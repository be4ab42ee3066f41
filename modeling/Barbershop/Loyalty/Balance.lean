import Barbershop.Loyalty.Points

/-!
# No negative balance of points

Every request keeps the balances of all customers at zero or above, except the refund of a
remainder: it lowers the balance by a plain increment, so a customer who has spent the points of the
refunded part goes below zero. `RefundCovered` is the condition under which that does not happen.
-/

namespace Barbershop

open Lib

/-- No customer has a negative balance. -/
structure PointsNonneg (customers : Table Customer) : Prop where
  nonneg : ∀ k c, customers.get? k = some c → 0 ≤ c.loyaltyPoints

namespace PointsNonneg

variable {t : Table Customer}

theorem modify (h : PointsNonneg t) (id : ℕ) {f : Customer → Customer}
    (hf : ∀ a, t.get? id = some a → 0 ≤ a.loyaltyPoints → 0 ≤ (f a).loyaltyPoints) :
    PointsNonneg (t.modify id f) := by
  constructor
  intro k c hk
  rw [Table.get?_modify] at hk
  split at hk
  · next hid =>
    subst hid
    obtain ⟨a, ha, rfl⟩ := Option.map_eq_some_iff.1 hk
    exact hf a ha (h.nonneg k a ha)
  · exact h.nonneg k c hk

theorem increment (h : PointsNonneg t) (id : ℕ) {delta : ℤ} (hd : 0 ≤ delta) :
    PointsNonneg (incrementPoints t id delta) :=
  h.modify id fun _ _ ha => add_nonneg ha hd

theorem floor (h : PointsNonneg t) (id : ℕ) (delta : ℤ) : PointsNonneg (floorPoints t id delta) :=
  h.modify id fun _ _ _ => le_max_left ..

theorem add (h : PointsNonneg t) (id : ℕ) (delta : ℤ) :
    PointsNonneg (addLoyaltyPoints t id delta) := by
  unfold addLoyaltyPoints
  split
  · next hpos => exact h.increment id hpos.le
  · split
    · exact h.floor id delta
    · exact h

theorem completeReferral (h : PointsNonneg t) (network : Network) (now : ℤ) (customerId : Option ℕ)
    (moneyPaid : ℚ) (saleId : ℕ) (r : Table CustomerReferral) :
    PointsNonneg (completeReferralIfPaid network now customerId moneyPaid saleId r t).2 := by
  unfold completeReferralIfPaid
  cases customerId with
  | none => exact h
  | some customerId =>
    dsimp only
    split
    · exact h
    · split
      · exact h
      · split
        · exact h
        · split
          · exact h.increment _ (by omega)
          · exact h

theorem revertReferral (h : PointsNonneg t) (saleId : ℕ) (r : Table CustomerReferral) :
    PointsNonneg (revertReferralOfSale saleId r t).2 := by
  unfold revertReferralOfSale
  split
  · exact h
  · dsimp only
    split
    · exact h.floor ..
    · exact h

theorem redeem (h : PointsNonneg t) {plan : SalePlan} {t' : Table Customer}
    (hr : plan.redeemPoints t = .ok t') : PointsNonneg t' := by
  unfold SalePlan.redeemPoints at hr
  cases hc : plan.customerId with
  | none =>
    simp only [hc, pure_eq_ok] at hr
    exact hr ▸ h
  | some id =>
    simp only [hc] at hr
    split at hr
    · exact pure_eq_ok.1 hr ▸ h
    · obtain ⟨a, ha, hle, rfl⟩ := Table.tryModify_eq_some.1 (orRefuse_eq_ok.1 hr)
      refine h.modify id fun b hb _ => ?_
      obtain rfl : a = b := Option.some.inj (ha.symm.trans hb)
      exact sub_nonneg.2 (of_decide_eq_true hle)

theorem grant (h : PointsNonneg t) (plan : SalePlan) (ctx : Caller) (saleId : ℕ)
    (r : Table CustomerReferral) : PointsNonneg (plan.grantPoints ctx saleId r t).2 := by
  unfold SalePlan.grantPoints
  cases hcustomer : plan.customerId with
  | none =>
    dsimp only
    split
    · exact h.completeReferral ..
    · exact h
  | some id =>
    have hearned : PointsNonneg (if 0 < plan.pointsEarned ctx.shop.network then
        incrementPoints t id (plan.pointsEarned ctx.shop.network) else t) := by
      split
      · next hpos => exact h.increment id hpos.le
      · exact h
    dsimp only
    split
    · exact hearned.completeReferral ..
    · exact hearned

theorem move (h : PointsNonneg t) (e : SaleEdit) (network : Network) :
    PointsNonneg (e.movePoints network t) := by
  unfold SaleEdit.movePoints
  cases e.existing.customerId with
  | none =>
    cases e.nextCustomerId with
    | none => exact h
    | some c => exact h.add ..
  | some a =>
    have htaken : PointsNonneg
        (if e.customerChanged then addLoyaltyPoints t a (-e.prevEarned) else t) := by
      split
      · exact h.add ..
      · exact h
    cases e.nextCustomerId with
    | none => exact htaken
    | some c => exact htaken.add ..

theorem moveReferral (h : PointsNonneg t) (e : SaleEdit) (ctx : Caller) (saleId : ℕ)
    (r : Table CustomerReferral) : PointsNonneg (e.moveReferral ctx saleId r t).2 := by
  unfold SaleEdit.moveReferral
  have hrev : PointsNonneg (if e.existing.paymentStatus = .paid ∧
      (e.nextStatus ≠ .paid ∨ e.customerChanged) then revertReferralOfSale saleId r t
      else (r, t)).2 := by
    split
    · exact h.revertReferral ..
    · exact h
  dsimp only
  split
  · exact hrev.completeReferral ..
  · exact hrev

theorem restore (h : PointsNonneg t) (existing : Sale) :
    PointsNonneg (restorePoints existing t) := by
  unfold restorePoints
  cases existing.customerId with
  | none => exact h
  | some id => exact h.add ..

end PointsNonneg

/-! ## The refund of a remainder -/

/-- What was consumed of the package or gift card a sale issued, out of its total. -/
def Db.consumed (db : Db) (saleId : ℕ) (s : Sale) : ℚ :=
  match db.packageOfSale saleId, db.cardOfSale saleId with
  | some (_, p), _ => round2 (s.total * p.usedSessions / p.totalSessions)
  | none, some (_, c) => round2 (max 0 (s.total - c.remainingValue))
  | none, none => s.total

/-- The points a sale gave beyond what its consumed part earns. -/
def Db.pointsOfRemainder (db : Db) (network : Network) (saleId : ℕ) (s : Sale) : ℤ :=
  let prevEarned := s.loyaltyPointsEarned.getD 0
  if 0 < prevEarned then
    prevEarned - loyaltyEarnedFor network s.paymentStatus (s.moneyBase (db.consumed saleId s))
      s.customerId
  else 0

/-- A refund finds the customer with at least the points the sale gave beyond what its consumed part
earns. -/
def RefundCovered (db : Db) : Request → Prop
  | .refundIssuedRemainder ctx saleId =>
    ∀ s ∈ db.sales.get? saleId, ∀ c ∈ s.customerId,
      db.pointsOfRemainder ctx.shop.network saleId s ≤ pointsOf db.customers c
  | _ => True

instance (db : Db) (r : Request) : Decidable (RefundCovered db r) :=
  match r with
  | .refundIssuedRemainder ctx saleId =>
    inferInstanceAs (Decidable (∀ s ∈ db.sales.get? saleId, ∀ c ∈ s.customerId,
      db.pointsOfRemainder ctx.shop.network saleId s ≤ pointsOf db.customers c))
  | .createSale .. | .updateSale .. | .deleteSale .. | .createGiftCard .. |
    .setGiftCardActive .. | .purchaseClientPackage .. | .debitClientPackageSession .. |
    .undoClientPackageUse .. | .adjustInventory .. | .openCashSession .. | .closeCashSession .. |
    .createExpense .. | .setAppointmentDepositPaid .. | .markNoShowFeeCollected .. =>
    isTrue trivial

theorem refund_newTotal {ctx : Caller} {saleId : ℕ} {db : Db} {r : Refund}
    {packages : Table ClientPackage} {cards : Table GiftCard}
    (h : (∃ found, db.packageOfSale saleId = some found ∧
        refundPackage ctx saleId r.existing found db.packages = .ok (r, packages) ∧
        cards = db.giftCards) ∨
      ∃ found, db.packageOfSale saleId = none ∧ db.cardOfSale saleId = some found ∧
        refundCard saleId r.existing found db.giftCards = .ok (r, cards) ∧
        packages = db.packages) :
    r.newTotal = db.consumed saleId r.existing := by
  unfold Db.consumed
  rcases h with ⟨found, hfound, hr, -⟩ | ⟨found, hnone, hfound, hr, -⟩
  · obtain ⟨-, -, -, hr, -⟩ := refundPackage_ok hr
    rw [hfound, hr]
  · obtain ⟨-, -, hr, -⟩ := refundCard_ok hr
    rw [hnone, hfound, hr]

theorem PointsNonneg.refund {db : Db} {network : Network} {saleId : ℕ} {r : Refund}
    (h : PointsNonneg db.customers) (hnew : r.newTotal = db.consumed saleId r.existing)
    (hcovered : ∀ c, r.existing.customerId = some c →
      db.pointsOfRemainder network saleId r.existing ≤ pointsOf db.customers c) :
    PointsNonneg (r.movePoints network db.customers) := by
  unfold Refund.movePoints
  cases hc : r.existing.customerId with
  | none => exact h
  | some id =>
    dsimp only
    split
    · next hpos =>
      refine h.modify id fun a ha _ => ?_
      have hle := hcovered id hc
      have hprev : 0 < r.existing.loyaltyPointsEarned.getD 0 := hpos
      simp only [Db.pointsOfRemainder, hprev, if_true, ← hnew, pointsOf, ha, Option.map_some,
        Option.getD_some] at hle
      simp only [Refund.nextEarned, hpos, if_true]
      unfold Refund.prevEarned
      omega
    · exact h

/-- Every covered request keeps the balances at zero or above. -/
theorem pointsNonneg_step {cat : Catalog} {r : Request} {db db' : Db}
    (hI : PointsNonneg db.customers) (hC : RefundCovered db r)
    (h : (service cat).step db r = some db') : PointsNonneg db'.customers := by
  rw [service_step] at h
  cases hr : r.plain with
  | true => exact (plain_frame hr h).customers ▸ hI
  | false =>
    cases r with
    | createSale ctx data =>
      change createSale cat ctx data (fun _ => db) db = .ok db' at h
      obtain ⟨plan, -, hcommit⟩ := createSale_ok h
      obtain ⟨cards, club, packages, customers, -, -, -, hredeem, rfl⟩ := commitSale_ok hcommit
      exact (hI.redeem hredeem).grant ..
    | updateSale ctx saleId data =>
      change updateSale cat ctx saleId data (fun _ => db) db = .ok db' at h
      obtain ⟨e, -, -, hcommit⟩ := updateSale_ok h
      obtain ⟨s, -, rfl⟩ := commitEdit_ok hcommit
      exact (hI.move ..).moveReferral ..
    | deleteSale ctx saleId =>
      change deleteSale ctx saleId (fun _ => db) db = .ok db' at h
      obtain ⟨existing, packages, cards, s, -, -, -, -, rfl⟩ := deleteSale_ok h
      exact (hI.revertReferral ..).restore _
    | refundIssuedRemainder ctx saleId =>
      change refundIssuedRemainder ctx saleId (fun _ => db) db = .ok db' at h
      obtain ⟨existing, s, hexisting, -, -, hs, r, packages, cards, rfl, hr, rfl⟩ :=
        refundIssuedRemainder_ok h
      exact hI.refund (refund_newTotal hr) fun c hc => hC r.existing hexisting c hc
    | adjustInventory ctx data =>
      obtain ⟨u, -, rfl⟩ := map_eq_ok.1 h
      obtain ⟨st, hst⟩ := adjustInventory_frame cat ctx data db
      rw [hst]
      exact hI
    | _ => cases hr

/-- The points of a package are spent, and then half of the package is refunded. -/
def overdrawingRun : List Request :=
  [.purchaseClientPackage (owner 0) 1 twoSessions none,
   .updateSale (owner 0) 1 { SalePatch.none with paymentStatus := some .paid },
   .createSale (owner 0) { haircutSale (some 1) 100 with loyaltyPointsRedeemed := some 100 },
   .debitClientPackageSession (owner 0) 1,
   .refundIssuedRemainder (owner 0) 1]

theorem oneCustomer_nonneg : PointsNonneg (oneCustomer 0).customers := by
  constructor
  intro k c hk
  rw [oneCustomer, Table.get?_insert] at hk
  split at hk
  · obtain rfl := Option.some.inj hk
    exact le_rfl
  · cases hk

end Barbershop
