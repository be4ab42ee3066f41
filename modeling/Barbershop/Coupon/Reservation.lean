import Barbershop.Lib.Guard
import Barbershop.Lib.Machine
import Barbershop.Lib.Table

/-!
# Coupons and their reservations

A charge with a coupon reserves one use of it for an hour, so that a customer at the checkout is not
told at the end that the coupon ran out. The use is claimed when the charge is paid, by the
reservation if there is a charge. Every call takes the lock of its coupon first; a call reads the
clock again each time it needs it.
-/

namespace Barbershop

open Lib

structure Coupon where
  maxUses : Option ℤ
  usedCount : ℕ

structure CouponReservation where
  couponId : ℕ
  userId : ℕ
  paymentIntentId : ℕ
  expiresAt : ℤ

structure UserCoupon where
  userId : ℕ
  couponId : ℕ
  usedAt : Option ℤ

structure CouponDb where
  coupons : Table Coupon
  reservations : Table CouponReservation
  userCoupons : Table UserCoupon

/-- An error of the source, or the one the database throws for a unique key that is taken. -/
inductive CouponRefusal where
  | badRequest (message : String)
  | uniqueViolation
  deriving DecidableEq

def COUPON_RESERVATION_MS : ℤ := 60 * 60 * 1000

namespace CouponReservation

variable (r : CouponReservation)

/-- A reservation of the coupon that has not run out. -/
def live (couponId : ℕ) (now : ℤ) : Bool := r.couponId == couponId && decide (now < r.expiresAt)

/-- A reservation of the coupon for the user. -/
def isOf (couponId userId : ℕ) : Bool := r.couponId == couponId && r.userId == userId

end CouponReservation

/-- The row of the unique key `userId_couponId`. -/
def UserCoupon.isOf (r : UserCoupon) (couponId userId : ℕ) : Bool :=
  r.couponId == couponId && r.userId == userId

/-- `coupon.maxUses && … >= coupon.maxUses`: a limit of 0 is none. -/
def Coupon.exhausted (c : Coupon) (held : ℕ) : Bool :=
  c.maxUses.any fun m => m != 0 && decide (m ≤ ((c.usedCount + held : ℕ) : ℤ))

namespace CouponDb

variable (s : CouponDb)

/-- The uses that the open charges of others hold. -/
def heldByOthers (couponId userId : ℕ) (now : ℤ) : ℕ :=
  (s.reservations.filter fun _ r => r.live couponId now && r.userId != userId).length

/-- `used?.usedAt` -/
def used (couponId userId : ℕ) : Bool :=
  (s.userCoupons.find? fun _ r => r.isOf couponId userId).any (·.2.usedAt.isSome)

/-- `paymentIntentId` is unique over all coupons. -/
def reservationOf (paymentIntentId : ℕ) : Option (ℕ × CouponReservation) :=
  s.reservations.find? fun _ r => r.paymentIntentId == paymentIntentId

/-- Returns the charges that lose their reservation. `counted` and `expiry` are the clock where the
reservations are counted and where the new one is made. -/
def reserve (couponId userId paymentIntentId : ℕ) (counted expiry : ℤ) :
    Except CouponRefusal (List ℕ × CouponDb) := do
  let coupon ← orRefuse (s.coupons.get? couponId) (.badRequest "Cupom não encontrado")
  refuseIf (s.used couponId userId = true)
    (.badRequest "Cupom já foi utilizado por este usuário")
  refuseIf (coupon.exhausted (s.heldByOthers couponId userId counted) = true)
    (.badRequest "Cupom esgotado")
  let previous := s.reservations.filter fun _ r => r.isOf couponId userId
  let reservations := s.reservations.eraseAll fun _ r => r.isOf couponId userId
  refuseIf ((reservations.any fun _ r => r.paymentIntentId == paymentIntentId) = true)
    .uniqueViolation
  return (previous.map (·.2.paymentIntentId),
    { s with reservations := reservations.insert {
        couponId := couponId
        userId := userId
        paymentIntentId := paymentIntentId
        expiresAt := expiry + COUPON_RESERVATION_MS } })

/-- `userCoupon.upsert` and the count that goes with it. -/
def recordUse (couponId userId : ℕ) (now : ℤ) : CouponDb where
  coupons := s.coupons.modify couponId fun c => { c with usedCount := c.usedCount + 1 }
  reservations := s.reservations
  userCoupons :=
    match s.userCoupons.find? fun _ r => r.isOf couponId userId with
    | some (id, _) => s.userCoupons.modify id fun r => { r with usedAt := some now }
    | none => s.userCoupons.insert ⟨userId, couponId, some now⟩

/-- The rest of `claimUse`; `held` is `none` for a charge whose reservation was counted already. -/
def finishClaim (coupon : Coupon) (held : Option ℕ) (couponId userId : ℕ) (now : ℤ) :
    Bool × CouponDb :=
  if held.any coupon.exhausted = true then (false, s)
  else if s.used couponId userId = true then (false, s)
  else (true, s.recordUse couponId userId now)

/-- Whether the use was taken, and what is written either way. `counted`, `checked` and `now` are the
clock at the count, at the reservation and at the use. -/
def claimUse (couponId userId : ℕ) (paymentIntentId : Option ℕ) (counted checked now : ℤ) :
    Bool × CouponDb :=
  match s.coupons.get? couponId with
  | none => (false, s)
  | some coupon =>
    let held := s.heldByOthers couponId userId counted
    match paymentIntentId with
    | none => s.finishClaim coupon (some held) couponId userId now
    | some paymentIntentId =>
      match s.reservationOf paymentIntentId with
      | none => (false, s)
      | some (id, reservation) =>
        if reservation.couponId ≠ couponId ∨ reservation.userId ≠ userId then (false, s)
        else
          -- one within its time was counted in the limit when it was made
          let held := if checked < reservation.expiresAt then none else some held
          { s with reservations := s.reservations.erase id }.finishClaim coupon held couponId userId
            now

end CouponDb

/-! ## Calls over time -/

inductive CouponCall where
  | reserve (couponId userId paymentIntentId : ℕ) (counted expiry : ℤ)
  | claimUse (couponId userId : ℕ) (paymentIntentId : Option ℕ) (counted checked now : ℤ)
  | wait (now : ℤ)

/-- The database and the clock. -/
structure CouponState where
  db : CouponDb
  now : ℤ

/-- The clock does not go back during a call. -/
def CouponCall.inOrder (start : ℤ) : CouponCall → Bool
  | reserve _ _ _ counted expiry => decide (start ≤ counted) && decide (counted ≤ expiry)
  | claimUse _ _ _ counted checked now =>
    decide (start ≤ counted) && (decide (counted ≤ checked) && decide (checked ≤ now))
  | wait now => decide (start ≤ now)

/-- The state after a call; one that is refused leaves the database as it was. -/
def CouponCall.exec (s : CouponDb) : CouponCall → CouponState
  | reserve couponId userId paymentIntentId counted expiry =>
    ⟨((s.reserve couponId userId paymentIntentId counted expiry).toOption.map (·.2)).getD s, expiry⟩
  | claimUse couponId userId paymentIntentId counted checked now =>
    ⟨(s.claimUse couponId userId paymentIntentId counted checked now).2, now⟩
  | wait now => ⟨s, now⟩

/-- The calls on all coupons. Each is one transaction under the lock of its coupon, and calls on two
coupons write no row of each other. -/
def couponService : Machine CouponState CouponCall where
  step s c := if c.inOrder s.now = true then some (c.exec s.db) else none

/-- 1 for a call by which the user gets the use of the coupon. -/
def CouponCall.claims (couponId userId : ℕ) (s : CouponState) : CouponCall → ℕ
  | claimUse c u paymentIntentId counted checked now =>
    if c = couponId ∧ u = userId ∧ (s.db.claimUse c u paymentIntentId counted checked now).1 = true
    then 1 else 0
  | _ => 0

end Barbershop
