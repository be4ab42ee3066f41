import Barbershop.Sale.Checks

/-!
# Loyalty points

Points live on the customer row. They are added with an increment, and taken back with
`GREATEST(0, …)` (`addLoyaltyPoints`), so that a customer who has already spent them does not go
below zero. A referral pays its bonus to the referrer once, when a paid sale of the referred
customer completes it, and the bonus is taken back when that sale stops counting.
-/

namespace Barbershop

open Lib

/-- `loyaltyPoints: { increment: delta }` -/
def incrementPoints (customers : Table Customer) (customerId : ℕ) (delta : ℤ) : Table Customer :=
  customers.modify customerId fun c => { c with loyaltyPoints := c.loyaltyPoints + delta }

/-- `SET "loyaltyPoints" = GREATEST(0, "loyaltyPoints" + delta)` -/
def floorPoints (customers : Table Customer) (customerId : ℕ) (delta : ℤ) : Table Customer :=
  customers.modify customerId fun c => { c with loyaltyPoints := max 0 (c.loyaltyPoints + delta) }

def addLoyaltyPoints (customers : Table Customer) (customerId : ℕ) (delta : ℤ) : Table Customer :=
  if 0 < delta then incrementPoints customers customerId delta
  else if delta < 0 then floorPoints customers customerId delta
  else customers

def loyaltyMoneyBase (total depositApplied prepaidApplied : ℚ) : ℚ :=
  max 0 (total + depositApplied + prepaidApplied)

/-- The money a sale counts for loyalty once its stored total is `total`. -/
def Sale.moneyBase (s : Sale) (total : ℚ) : ℚ :=
  loyaltyMoneyBase total (s.depositApplied.getD 0) (s.prepaidApplied.getD 0)

def loyaltyEarnedFor (network : Network) (paymentStatus : PaymentStatus) (total : ℚ)
    (customerId : Option ℕ) : ℤ :=
  if paymentStatus ≠ .paid ∨ customerId = none ∨ network.loyaltyEnabled = false then 0
  else
    let perUnit := network.loyaltyPointsPerCurrencyUnit.getD 0
    if perUnit ≤ 0 then 0 else ⌊total * perUnit⌋

/-- The referral bonus of the customer's first paid sale: the referral is completed by the sale and
its referrer gets the points, if there is a referral that no sale has completed yet. -/
def completeReferralIfPaid (network : Network) (now : ℤ) (customerId : Option ℕ) (moneyPaid : ℚ)
    (saleId : ℕ) (referrals : Table CustomerReferral) (customers : Table Customer) :
    Table CustomerReferral × Table Customer :=
  match customerId with
  | none => (referrals, customers)
  | some customerId =>
    if network.loyaltyEnabled = false ∨ moneyPaid ≤ 0 then (referrals, customers)
    else
      match referrals.find? fun _ r => r.referredId == customerId with
      | none => (referrals, customers)
      | some (id, referral) =>
        if referral.completedAt.isSome then (referrals, customers)
        else
          let bonusPoints := network.referralBonusPoints
          let referrals := referrals.modify id fun r =>
            { r with completedAt := some now, pointsAwarded := some bonusPoints, saleId := saleId }
          if 0 < bonusPoints then
            (referrals, incrementPoints customers referral.referrerId bonusPoints)
          else (referrals, customers)

/-- The sale that completed a referral is gone (or pending again, or another customer's): the bonus
goes back, without leaving the referrer below zero, and the referral is open again. -/
def revertReferralOfSale (saleId : ℕ) (referrals : Table CustomerReferral)
    (customers : Table Customer) : Table CustomerReferral × Table Customer :=
  match referrals.find? fun _ r => r.saleId == some saleId with
  | none => (referrals, customers)
  | some (id, referral) =>
    let points := referral.pointsAwarded.getD 0
    let referrals := referrals.modify id fun r =>
      { r with completedAt := none, pointsAwarded := none, saleId := none }
    if 0 < points then (referrals, floorPoints customers referral.referrerId (-points))
    else (referrals, customers)

end Barbershop
