import Barbershop.Coupon.Reservation
import Mathlib.Algebra.Order.Ring.Nat
import Mathlib.Data.List.Nodup

/-!
# The limit of a coupon

The uses of a coupon and the reservations that still count, of users who have not used it, stay
within its limit. A claim by a reservation moves one from the second to the first, so it needs no
check; time only takes reservations away.
-/

namespace Barbershop

open Lib

namespace CouponDb

variable (s : CouponDb)

/-- The users who have used a coupon. -/
def usersOf (couponId : ℕ) : List ℕ :=
  (s.userCoupons.filter fun _ r => r.couponId == couponId && r.usedAt.isSome).map (·.2.userId)

/-- The reservations that hold a use: they have not run out, and their user has none yet. -/
def held (couponId : ℕ) (now : ℤ) : ℕ :=
  s.reservations.sum fun _ r =>
    if r.live couponId now = true ∧ s.used couponId r.userId = false then 1 else 0

end CouponDb

/-- No one has used a coupon or reserved one. -/
structure CouponDb.Unused (s : CouponDb) : Prop where
  count : ∀ {id c}, s.coupons.get? id = some c → c.usedCount = 0
  none : ∀ {k r}, s.userCoupons.get? k = some r → r.usedAt = none
  distinct : ∀ {i j r q}, s.userCoupons.get? i = some r → s.userCoupons.get? j = some q →
    r.userId = q.userId → r.couponId = q.couponId → i = j
  reservations : s.reservations = .empty

/-- What the limit promises in a state. -/
structure CouponLimits (s : CouponDb) : Prop where
  within : ∀ {id c m}, s.coupons.get? id = some c → c.maxUses = some m → 1 ≤ m → c.usedCount ≤ m
  counted : ∀ {id c}, s.coupons.get? id = some c → c.usedCount = (s.usersOf id).length
  once : ∀ id, (s.usersOf id).Nodup
  kept : ∀ {couponId userId paymentIntentId id c r counted checked now},
    s.coupons.get? couponId = some c → s.reservationOf paymentIntentId = some (id, r) →
    r.isOf couponId userId = true → checked < r.expiresAt → s.used couponId userId = false →
    (s.claimUse couponId userId (some paymentIntentId) counted checked now).1 = true

structure CouponBooks (s : CouponDb) (now : ℤ) : Prop where
  distinct : ∀ {i j r q}, s.userCoupons.get? i = some r → s.userCoupons.get? j = some q →
    r.userId = q.userId → r.couponId = q.couponId → i = j
  counted : ∀ {id c}, s.coupons.get? id = some c → c.usedCount = s.userCoupons.sum fun _ r =>
    if r.couponId = id ∧ r.usedAt.isSome = true then 1 else 0
  limit : ∀ {id c m}, s.coupons.get? id = some c → c.maxUses = some m → 1 ≤ m →
    (c.usedCount + s.held id now : ℕ) ≤ m

/-! ## Uses -/

namespace CouponDb

variable {s s' : CouponDb} {couponId userId : ℕ} {now : ℤ}

theorem used_iff (hdistinct : ∀ {i j r q}, s.userCoupons.get? i = some r →
    s.userCoupons.get? j = some q → r.userId = q.userId → r.couponId = q.couponId → i = j) :
    s.used couponId userId = true ↔ ∃ k r, s.userCoupons.get? k = some r ∧
      r.couponId = couponId ∧ r.userId = userId ∧ r.usedAt.isSome = true := by
  unfold used
  cases hfind : s.userCoupons.find? fun _ r => r.isOf couponId userId with
  | none =>
    refine iff_of_false (by simp) ?_
    rintro ⟨k, r, hk, rfl, rfl, -⟩
    simpa [UserCoupon.isOf] using Table.find?_none.1 hfind k r hk
  | some row =>
    obtain ⟨hrow, hof⟩ := Table.find?_some (k := row.1) (a := row.2) hfind
    simp only [UserCoupon.isOf, Bool.and_eq_true, beq_iff_eq] at hof
    rw [Option.any_some]
    constructor
    · intro hused
      exact ⟨row.1, row.2, hrow, hof.1, hof.2, hused⟩
    · rintro ⟨k, r, hk, hcoupon, huser, hused⟩
      obtain rfl := hdistinct hk hrow (huser.trans hof.2.symm) (hcoupon.trans hof.1.symm)
      rw [hk] at hrow
      obtain rfl := Option.some.inj hrow
      exact hused

theorem not_exhausted {c : Coupon} {held : ℕ} {m : ℤ} (h : ¬ c.exhausted held = true)
    (hmax : c.maxUses = some m) (hpos : 1 ≤ m) : ((c.usedCount + held : ℕ) : ℤ) < m := by
  simp only [Coupon.exhausted, hmax, Option.any_some, Bool.and_eq_true, bne_iff_ne, ne_eq,
    decide_eq_true_eq, not_and, not_le] at h
  exact h (by omega)

/-- What is held by reservations, when fewer of them count. -/
theorem held_mono {id : ℕ} {now' : ℤ} (hreservations : s'.reservations = s.reservations)
    (hused : ∀ u, s.used id u = true → s'.used id u = true) (hnow : now ≤ now') :
    s'.held id now' ≤ s.held id now := by
  unfold held
  rw [hreservations]
  refine Table.sum_le_sum fun k r _ => ?_
  by_cases hcounts : r.live id now' = true ∧ s'.used id r.userId = false
  · have hlive : r.live id now = true := by
      have h := hcounts.1
      simp only [CouponReservation.live, Bool.and_eq_true, beq_iff_eq, decide_eq_true_eq] at h ⊢
      exact ⟨h.1, by omega⟩
    have hunused : s.used id r.userId = false := by
      cases hu : s.used id r.userId with
      | false => rfl
      | true => rw [hused _ hu] at hcounts; cases hcounts.2
    rw [if_pos hcounts, if_pos ⟨hlive, hunused⟩]
  · rw [if_neg hcounts]
    exact Nat.zero_le _

/-- The open charges of others hold as many uses as those of them that count. -/
theorem held_le_heldByOthers {counted : ℤ} (hnow : counted ≤ now)
    (hmine : ∀ {k r}, s.reservations.get? k = some r → r.userId = userId →
      r.couponId = couponId → s.used couponId userId = true) :
    s.held couponId now ≤ s.heldByOthers couponId userId counted := by
  unfold held heldByOthers
  have hlength := Table.length_filter (M := ℕ) s.reservations
    fun _ r => r.live couponId counted && r.userId != userId
  rw [Nat.cast_id] at hlength
  rw [hlength]
  refine Table.sum_le_sum fun k r hk => ?_
  by_cases hcounts : r.live couponId now = true ∧ s.used couponId r.userId = false
  · have hlive := hcounts.1
    simp only [CouponReservation.live, Bool.and_eq_true, beq_iff_eq, decide_eq_true_eq] at hlive
    have hother : r.userId ≠ userId := by
      intro huser
      have hused := hmine hk huser hlive.1
      rw [← huser, hcounts.2] at hused
      cases hused
    have hlive' : r.live couponId counted = true := by
      simp only [CouponReservation.live, Bool.and_eq_true, beq_iff_eq, decide_eq_true_eq]
      exact ⟨hlive.1, by omega⟩
    simp [hcounts.1, hcounts.2, hlive', hother]
  · rw [if_neg hcounts]
    exact Nat.zero_le _

theorem held_sublist {reservations : Table CouponReservation}
    (h : reservations.rows.Sublist s.reservations.rows) (id : ℕ) :
    ({ s with reservations := reservations } : CouponDb).held id now ≤ s.held id now :=
  (h.map _).sum_le_sum fun _ _ => Nat.zero_le _

/-! ### Taking a use -/

/-- What taking a use does to the rows of users: the one row of this coupon and user is used now, and
no other row changed. -/
theorem recordUse_rows (now : ℤ) (hdistinct : ∀ {i j r q}, s.userCoupons.get? i = some r →
    s.userCoupons.get? j = some q → r.userId = q.userId → r.couponId = q.couponId → i = j)
    (hused : s.used couponId userId = false) :
    ∃ k, (∀ {r}, s.userCoupons.get? k = some r → r.usedAt = none) ∧
      (∀ {j r}, s.userCoupons.get? j = some r → r.couponId = couponId → r.userId = userId → j = k) ∧
      (s.recordUse couponId userId now).userCoupons.get? k = some ⟨userId, couponId, some now⟩ ∧
      (∀ j, j ≠ k → (s.recordUse couponId userId now).userCoupons.get? j = s.userCoupons.get? j) ∧
      ∀ id, ((s.recordUse couponId userId now).userCoupons.sum fun _ r =>
          if r.couponId = id ∧ r.usedAt.isSome = true then 1 else 0) =
        (s.userCoupons.sum fun _ r => if r.couponId = id ∧ r.usedAt.isSome = true then 1 else 0) +
          if couponId = id then 1 else 0 := by
  unfold recordUse
  cases hfind : s.userCoupons.find? fun _ r => r.isOf couponId userId with
  | none =>
    refine ⟨s.userCoupons.next, by simp, fun {j r} hj hcoupon huser => ?_, by simp, fun j hj => ?_,
      fun id => ?_⟩
    · have hnot := Table.find?_none.1 hfind j r hj
      simp [UserCoupon.isOf, hcoupon, huser] at hnot
    · simp [Table.get?_insert, hj]
    · simp
  | some row =>
    obtain ⟨hrow, hof⟩ := Table.find?_some (k := row.1) (a := row.2) hfind
    simp only [UserCoupon.isOf, Bool.and_eq_true, beq_iff_eq] at hof
    have hnone : row.2.usedAt = none := by
      cases hat : row.2.usedAt with
      | none => rfl
      | some at' =>
        rw [(used_iff hdistinct).2 ⟨row.1, row.2, hrow, hof.1, hof.2, by simp [hat]⟩] at hused
        cases hused
    refine ⟨row.1, by simp [hrow, hnone], fun hj hcoupon huser => ?_, by simp [hrow, hof],
      fun j hj => ?_, fun id => ?_⟩
    · exact hdistinct hj hrow (huser.trans hof.2.symm) (hcoupon.trans hof.1.symm)
    · exact Table.get?_modify_of_ne _ _ hj
    · have hmodify := Table.sum_modify (fun r : UserCoupon => { r with usedAt := some now })
        (fun _ r => if r.couponId = id ∧ r.usedAt.isSome = true then 1 else 0) hrow
      simp only [hnone, hof.1, Option.isSome_none, Option.isSome_some, and_true, Bool.false_eq_true,
        and_false, if_false, add_zero] at hmodify
      exact hmodify

end CouponDb

/-! ## What a call keeps -/

namespace CouponBooks

variable {s : CouponDb} {now : ℤ}

theorem unused (h : s.Unused) (now : ℤ) : CouponBooks s now where
  distinct := h.distinct
  counted hget := by
    rw [h.count hget, Table.sum_eq_zero]
    intro k r hk
    simp [h.none hk]
  limit hget _ hpos := by
    simpa [h.count hget, CouponDb.held, h.reservations] using Int.le_trans (by decide) hpos

/-- Reservations go, or run out. -/
theorem fewer (h : CouponBooks s now) {reservations : Table CouponReservation} {now' : ℤ}
    (hheld : ∀ id, ({ s with reservations := reservations } : CouponDb).held id now' ≤
      s.held id now) :
    CouponBooks { s with reservations := reservations } now' where
  distinct := h.distinct
  counted := h.counted
  limit {id c m} hget hmax hpos := by
    have hlimit := h.limit hget hmax hpos
    have hle := hheld id
    omega

theorem wait (h : CouponBooks s now) {now' : ℤ} (hnow : now ≤ now') : CouponBooks s now' :=
  h.fewer fun _ => CouponDb.held_mono rfl (fun _ hu => hu) hnow

theorem erase (h : CouponBooks s now) (k : ℕ) :
    CouponBooks { s with reservations := s.reservations.erase k } now :=
  h.fewer fun id => CouponDb.held_sublist List.filter_sublist id

theorem recordUse_distinct (h : CouponBooks s now) {couponId userId : ℕ} {now' : ℤ}
    (hused : s.used couponId userId = false) {i j : ℕ} {r q : UserCoupon}
    (hi : (s.recordUse couponId userId now').userCoupons.get? i = some r)
    (hj : (s.recordUse couponId userId now').userCoupons.get? j = some q)
    (huser : r.userId = q.userId) (hcoupon : r.couponId = q.couponId) : i = j := by
  obtain ⟨k, -, hk, hnew, hrest, -⟩ := CouponDb.recordUse_rows now' h.distinct hused
  by_cases hik : i = k
  · subst hik
    by_cases hji : j = i
    · exact hji.symm
    · rw [hrest j hji] at hj
      obtain rfl := Option.some.inj (hnew.symm.trans hi)
      exact (hk hj hcoupon.symm huser.symm).symm
  · by_cases hjk : j = k
    · subst hjk
      rw [hrest i hik] at hi
      obtain rfl := Option.some.inj (hnew.symm.trans hj)
      exact hk hi hcoupon huser
    · rw [hrest i hik] at hi
      rw [hrest j hjk] at hj
      exact h.distinct hi hj huser hcoupon

/-- Taking a use makes its user one who has used the coupon, and nobody else. -/
theorem used_recordUse (h : CouponBooks s now) {couponId userId c u : ℕ} {now' : ℤ}
    (hused : s.used couponId userId = false) :
    (s.recordUse couponId userId now').used c u = true ↔
      s.used c u = true ∨ (c = couponId ∧ u = userId) := by
  rw [CouponDb.used_iff (h.recordUse_distinct hused), CouponDb.used_iff h.distinct]
  obtain ⟨k, hnone, hk, hnew, hrest, -⟩ := CouponDb.recordUse_rows now' h.distinct hused
  constructor
  · rintro ⟨j, r, hj, rfl, rfl, hsome⟩
    by_cases hjk : j = k
    · subst hjk
      obtain rfl := Option.some.inj (hnew.symm.trans hj)
      exact .inr ⟨rfl, rfl⟩
    · exact .inl ⟨j, r, hrest j hjk ▸ hj, rfl, rfl, hsome⟩
  · rintro (⟨j, r, hj, rfl, rfl, hsome⟩ | ⟨rfl, rfl⟩)
    · refine ⟨j, r, ?_, rfl, rfl, hsome⟩
      rw [hrest j fun hjk => ?_, hj]
      subst hjk
      rw [hnone hj] at hsome
      cases hsome
    · exact ⟨k, _, hnew, rfl, rfl, rfl⟩

theorem recordUse (h : CouponBooks s now) {couponId userId : ℕ} {now' : ℤ}
    (hused : s.used couponId userId = false)
    (hroom : ∀ {c m}, s.coupons.get? couponId = some c → c.maxUses = some m → 1 ≤ m →
      ((c.usedCount + 1 + (s.recordUse couponId userId now').held couponId now' : ℕ) : ℤ) ≤ m)
    (hnow : now ≤ now') : CouponBooks (s.recordUse couponId userId now') now' := by
  obtain ⟨k, -, -, -, -, hsum⟩ := CouponDb.recordUse_rows now' h.distinct hused
  have hcoupon : ∀ {id c'}, (s.recordUse couponId userId now').coupons.get? id = some c' →
      ∃ c, s.coupons.get? id = some c ∧ c' = if id = couponId then
        { c with usedCount := c.usedCount + 1 } else c := by
    intro id c' hget
    simp only [CouponDb.recordUse, Table.get?_modify] at hget
    split at hget
    · next hid =>
      obtain ⟨c, hc, rfl⟩ := Option.map_eq_some_iff.1 hget
      exact ⟨c, hc, (if_pos hid).symm⟩
    · next hid => exact ⟨c', hget, (if_neg hid).symm⟩
  refine {
    distinct := h.recordUse_distinct hused
    counted := fun {id c'} hget => ?_
    limit := fun {id c' m} hget hmax hpos => ?_ }
  · obtain ⟨c, hc, rfl⟩ := hcoupon hget
    have hcounted := h.counted hc
    rw [hsum]
    by_cases hid : id = couponId
    · simp [hid, hcounted]
    · simp [hid, Ne.symm hid, hcounted]
  · obtain ⟨c, hc, rfl⟩ := hcoupon hget
    by_cases hid : id = couponId
    · subst hid
      rw [if_pos rfl] at hmax ⊢
      exact hroom hc hmax hpos
    · rw [if_neg hid] at hmax ⊢
      have hle : (s.recordUse couponId userId now').held id now' ≤ s.held id now :=
        CouponDb.held_mono rfl (fun u hu => (h.used_recordUse hused).2 (.inl hu)) hnow
      have hlimit := h.limit hc hmax hpos
      omega

/-- A claim that the count lets through, or that a reservation within its time carries. -/
theorem finishClaim (h : CouponBooks s now) {c : Coupon} {held : Option ℕ} {couponId userId : ℕ}
    {now' : ℤ} (hget : s.coupons.get? couponId = some c)
    (hheld : ∀ {m}, c.maxUses = some m → 1 ≤ m → ¬ held.any c.exhausted = true →
      s.used couponId userId = false →
        ((c.usedCount + 1 + (s.recordUse couponId userId now').held couponId now' : ℕ) : ℤ) ≤ m)
    (hnow : now ≤ now') : CouponBooks (s.finishClaim c held couponId userId now').2 now' := by
  unfold CouponDb.finishClaim
  split
  · exact h.wait hnow
  · next hroom =>
    split
    · exact h.wait hnow
    · next hused =>
      rw [Bool.not_eq_true] at hused
      refine h.recordUse hused (fun hc hmax hpos => ?_) hnow
      obtain rfl := Option.some.inj (hget.symm.trans hc)
      exact hheld hmax hpos hroom hused

theorem claimUse (h : CouponBooks s now) {couponId userId : ℕ} {paymentIntentId : Option ℕ}
    {counted checked now' : ℤ} (hcounted : now ≤ counted) (hchecked : counted ≤ checked)
    (hnow : checked ≤ now') :
    CouponBooks (s.claimUse couponId userId paymentIntentId counted checked now').2 now' := by
  -- what the count leaves room for
  have hcount : ∀ {s : CouponDb} {c : Coupon} {m : ℤ} {n : ℕ}, CouponBooks s now →
      c.maxUses = some m → 1 ≤ m → s.heldByOthers couponId userId counted ≤ n →
        ¬ c.exhausted n = true → s.used couponId userId = false →
          ((c.usedCount + 1 + (s.recordUse couponId userId now').held couponId now' : ℕ) : ℤ) ≤ m := by
    intro s c m n h hmax hpos hn hroom hused
    have hlt := CouponDb.not_exhausted hroom hmax hpos
    have hle : (s.recordUse couponId userId now').held couponId now' ≤
        s.heldByOthers couponId userId counted :=
      CouponDb.held_le_heldByOthers (by omega) fun _ _ _ =>
        (h.used_recordUse hused).2 (.inr ⟨rfl, rfl⟩)
    omega
  have hafter : now ≤ now' := by omega
  unfold CouponDb.claimUse
  cases hget : s.coupons.get? couponId with
  | none => exact h.wait hafter
  | some c =>
    cases paymentIntentId with
    | none =>
      exact h.finishClaim hget (fun hmax hpos hroom hused =>
        hcount h hmax hpos le_rfl hroom hused) hafter
    | some paymentIntentId =>
      dsimp only
      cases hfind : s.reservationOf paymentIntentId with
      | none => exact h.wait hafter
      | some row =>
        obtain ⟨id, r⟩ := row
        obtain ⟨hrow, -⟩ := Table.find?_some hfind
        dsimp only
        split
        · exact h.wait hafter
        · next hof =>
          rw [not_or, not_not, not_not] at hof
          have herased := h.erase id
          refine herased.finishClaim hget (fun {m} hmax hpos hroom hused => ?_) hafter
          split at hroom
          · next hlive =>
            -- the reservation held a use, which is now the user's
            have hlimit := h.limit hget hmax hpos
            have hcounts : r.live couponId now = true ∧ s.used couponId r.userId = false := by
              simp only [CouponReservation.live, Bool.and_eq_true, beq_iff_eq, decide_eq_true_eq]
              exact ⟨⟨hof.1, by omega⟩, hof.2 ▸ hused⟩
            have hsplit : s.held couponId now =
                1 + ({ s with reservations := s.reservations.erase id } : CouponDb).held couponId
                  now := by
              refine (Table.sum_eq_add_erase _ hrow).trans ?_
              rw [if_pos hcounts]
              rfl
            have hle : (({ s with reservations := s.reservations.erase id } : CouponDb).recordUse
                couponId userId now').held couponId now' ≤
                  ({ s with reservations := s.reservations.erase id } : CouponDb).held couponId now :=
              CouponDb.held_mono rfl (fun u hu => (herased.used_recordUse hused).2 (.inl hu)) hafter
            omega
          · have hfewer : ({ s with reservations := s.reservations.erase id } : CouponDb).heldByOthers
                couponId userId counted ≤ s.heldByOthers couponId userId counted :=
              (List.filter_sublist.filter _).length_le
            exact hcount herased hmax hpos hfewer hroom hused

theorem reserve (h : CouponBooks s now) {couponId userId paymentIntentId : ℕ} {counted expiry : ℤ}
    {r : List ℕ × CouponDb} (hcounted : now ≤ counted) (hexpiry : counted ≤ expiry)
    (hreserve : s.reserve couponId userId paymentIntentId counted expiry = .ok r) :
    CouponBooks r.2 expiry := by
  simp only [CouponDb.reserve, bind_eq_ok, orRefuse_eq_ok, exists_punit, refuseIf_eq_ok,
    pure_eq_ok] at hreserve
  obtain ⟨c, hget, -, hroom, -, rfl⟩ := hreserve
  have hrows : (s.reservations.eraseAll fun _ r => r.isOf couponId userId).rows.Sublist
      s.reservations.rows := List.filter_sublist
  generalize hreservations : (s.reservations.eraseAll fun _ r => r.isOf couponId userId) =
    reservations at hrows ⊢
  have hothers : ({ s with reservations := reservations } : CouponDb).heldByOthers couponId userId
      counted ≤ s.heldByOthers couponId userId counted := (hrows.filter _).length_le
  have hheld : ({ s with reservations := reservations } : CouponDb).held couponId expiry ≤
      s.heldByOthers couponId userId counted := by
    refine (CouponDb.held_le_heldByOthers hexpiry fun hk huser hcoupon => ?_).trans hothers
    dsimp only at hk
    rw [← hreservations] at hk
    have hnot := (Table.get?_eraseAll.1 hk).2
    simp [CouponReservation.isOf, huser, hcoupon] at hnot
  refine {
    distinct := h.distinct
    counted := h.counted
    limit := fun {id c' m} hget' hmax hpos => ?_ }
  have hinsert : ∀ new, ({ s with reservations := reservations.insert new } : CouponDb).held id
      expiry = ({ s with reservations := reservations } : CouponDb).held id expiry +
        if new.live id expiry = true ∧ s.used id new.userId = false then 1 else 0 :=
    fun new => Table.sum_insert ..
  rw [hinsert]
  by_cases hid : id = couponId
  · subst hid
    obtain rfl := Option.some.inj (hget.symm.trans hget')
    have hlt := CouponDb.not_exhausted hroom hmax hpos
    split <;> omega
  · have hlimit := h.limit hget' hmax hpos
    have hle : ({ s with reservations := reservations } : CouponDb).held id expiry ≤ s.held id now :=
      (CouponDb.held_sublist hrows id).trans
        (CouponDb.held_mono rfl (fun _ hu => hu) (hcounted.trans hexpiry))
    have hother : (couponId == id) = false := beq_false_of_ne (Ne.symm hid)
    simp only [CouponReservation.live, hother, Bool.false_and, Bool.false_eq_true, false_and,
      if_false]
    omega

theorem finishClaim_used (h : CouponBooks s now) {coupon : Coupon} {held : Option ℕ}
    {couponId userId c u : ℕ} {now' : ℤ} :
    (s.finishClaim coupon held couponId userId now').2.used c u = true ↔ s.used c u = true ∨
      (c = couponId ∧ u = userId ∧
        (s.finishClaim coupon held couponId userId now').1 = true) := by
  unfold CouponDb.finishClaim
  split
  · simp
  · split
    · simp
    · next hused =>
      rw [Bool.not_eq_true] at hused
      simpa using h.used_recordUse hused

theorem finishClaim_unused {coupon : Coupon} {held : Option ℕ} {couponId userId : ℕ}
    (hclaimed : (s.finishClaim coupon held couponId userId now).1 = true) :
    s.used couponId userId = false := by
  unfold CouponDb.finishClaim at hclaimed
  split at hclaimed
  · cases hclaimed
  · split at hclaimed
    · cases hclaimed
    · next hused => exact Bool.not_eq_true _ ▸ hused

/-- A claim that succeeds is of a user who had no use yet, and gives one to that user. -/
theorem claimUse_used (h : CouponBooks s now) (couponId userId : ℕ) (paymentIntentId : Option ℕ)
    (counted checked now' : ℤ) :
    ((s.claimUse couponId userId paymentIntentId counted checked now').1 = true →
      s.used couponId userId = false) ∧
    ∀ c u, (s.claimUse couponId userId paymentIntentId counted checked now').2.used c u = true ↔
      s.used c u = true ∨ (c = couponId ∧ u = userId ∧
        (s.claimUse couponId userId paymentIntentId counted checked now').1 = true) := by
  unfold CouponDb.claimUse
  cases s.coupons.get? couponId with
  | none => simp
  | some coupon =>
    cases paymentIntentId with
    | none => exact ⟨finishClaim_unused, fun c u => h.finishClaim_used⟩
    | some paymentIntentId =>
      dsimp only
      cases s.reservationOf paymentIntentId with
      | none => simp
      | some row =>
        dsimp only
        split
        · simp
        · exact ⟨finishClaim_unused (s := { s with reservations := s.reservations.erase row.1 }),
            fun c u => (h.erase row.1).finishClaim_used⟩

theorem limits (h : CouponBooks s now) : CouponLimits s where
  within hget hmax hpos := by
    have hlimit := h.limit hget hmax hpos
    omega
  counted {id c} hget := by
    have hlength := Table.length_filter (M := ℕ) s.userCoupons
      fun _ r => r.couponId == id && r.usedAt.isSome
    rw [Nat.cast_id] at hlength
    rw [h.counted hget, CouponDb.usersOf, List.length_map, hlength]
    exact Table.sum_congr fun k r _ => if_congr (by simp) rfl rfl
  once id := by
    refine List.Nodup.map_on ?_ (s.userCoupons.nodup_filter _).of_map
    rintro ⟨i, r⟩ hi ⟨j, q⟩ hj huser
    obtain ⟨hi, hr⟩ := Table.mem_filter.1 hi
    obtain ⟨hj, hq⟩ := Table.mem_filter.1 hj
    simp only [Bool.and_eq_true, beq_iff_eq] at hr hq
    obtain rfl := h.distinct hi hj huser (hr.1.trans hq.1.symm)
    rw [Option.some.inj (hi.symm.trans hj)]
  kept hget hfind hof hlive hused := by
    simp only [CouponReservation.isOf, Bool.and_eq_true, beq_iff_eq] at hof
    have hused' : ∀ reservations, ({ s with reservations := reservations } : CouponDb).used _ _ =
      false := fun _ => hused
    simp [CouponDb.claimUse, CouponDb.finishClaim, hget, hfind, hof, hlive, hused']

end CouponBooks

/-! ## Every run -/

theorem couponService_keeps {s s' : CouponState} {c : CouponCall} (h : CouponBooks s.db s.now)
    (hstep : couponService.step s c = some s') : CouponBooks s'.db s'.now := by
  obtain ⟨horder, heq⟩ := Option.ite_none_right_eq_some.1 hstep
  obtain rfl := Option.some.inj heq
  cases c with
  | reserve couponId userId paymentIntentId counted expiry =>
    simp only [CouponCall.inOrder, Bool.and_eq_true, decide_eq_true_eq] at horder
    simp only [CouponCall.exec]
    cases hreserve : s.db.reserve couponId userId paymentIntentId counted expiry with
    | error e => exact h.wait (horder.1.trans horder.2)
    | ok r => exact h.reserve horder.1 horder.2 hreserve
  | claimUse couponId userId paymentIntentId counted checked now =>
    simp only [CouponCall.inOrder, Bool.and_eq_true, decide_eq_true_eq] at horder
    exact h.claimUse horder.1 horder.2.1 horder.2.2
  | wait now =>
    simp only [CouponCall.inOrder, decide_eq_true_eq] at horder
    exact h.wait horder

/-- A call moves who has used a coupon by what it claims. -/
theorem couponService_claims {s s' : CouponState} {call : CouponCall} {c u : ℕ}
    (h : CouponBooks s.db s.now) (hstep : couponService.step s call = some s') :
    (s'.db.used c u).toNat = (s.db.used c u).toNat + call.claims c u s := by
  obtain ⟨-, heq⟩ := Option.ite_none_right_eq_some.1 hstep
  obtain rfl := Option.some.inj heq
  cases call with
  | wait now => rfl
  | reserve couponId userId paymentIntentId counted expiry =>
    have hused : ((CouponCall.reserve couponId userId paymentIntentId counted expiry).exec
        s.db).db.used c u = s.db.used c u := by
      simp only [CouponCall.exec]
      cases hreserve : s.db.reserve couponId userId paymentIntentId counted expiry with
      | error e => rfl
      | ok r =>
        simp only [CouponDb.reserve, bind_eq_ok, orRefuse_eq_ok, exists_punit, refuseIf_eq_ok,
          pure_eq_ok] at hreserve
        obtain ⟨_, -, -, -, -, rfl⟩ := hreserve
        rfl
    rw [hused]
    rfl
  | claimUse couponId userId paymentIntentId counted checked now =>
    obtain ⟨hunused, hused⟩ := h.claimUse_used couponId userId paymentIntentId counted checked now
    change ((s.db.claimUse couponId userId paymentIntentId counted checked now).2.used c u).toNat = _
    simp only [CouponCall.claims]
    by_cases hclaimed : couponId = c ∧ userId = u ∧ (s.db.claimUse couponId userId paymentIntentId
        counted checked now).1 = true
    · rw [if_pos hclaimed]
      obtain ⟨rfl, rfl, hclaimed⟩ := hclaimed
      rw [(hused _ _).2 (.inr ⟨rfl, rfl, hclaimed⟩), hunused hclaimed]
      rfl
    · rw [if_neg hclaimed, add_zero, Bool.eq_iff_iff.2 ((hused c u).trans (or_iff_left ?_))]
      rintro ⟨rfl, rfl, hclaimed'⟩
      exact hclaimed ⟨rfl, rfl, hclaimed'⟩

/-- In every run from coupons that no one has used yet: the limits hold, and no user gets the use of a
coupon twice. -/
theorem coupon_limits {s₀ s : CouponState} {calls : List CouponCall} (hunused : s₀.db.Unused)
    (hrun : couponService.run s₀ calls = some s) :
    CouponLimits s.db ∧ ∀ c u, couponService.total (CouponCall.claims c u) s₀ calls ≤ 1 := by
  have hstart : CouponBooks s₀.db s₀.now := .unused hunused s₀.now
  have htotal : ∀ c u, CouponBooks s.db s.now ∧ (s.db.used c u).toNat =
      (s₀.db.used c u).toNat + couponService.total (CouponCall.claims c u) s₀ calls := by
    intro c u
    refine couponService.run_total (f := CouponCall.claims c u)
      (I := fun s => CouponBooks s.db s.now) (q := fun s => (s.db.used c u).toNat)
      (fun h hstep => ⟨couponService_keeps h hstep, couponService_claims h hstep⟩) hstart hrun
  refine ⟨(htotal 0 0).1.limits, fun c u => ?_⟩
  have hmoved := (htotal c u).2
  have hle := Bool.toNat_le (s.db.used c u)
  omega

/-- A coupon for one use: the first customer's charge reserves it and outlives its hour, the second
one's takes the use. -/
def expiredReservation : List CouponCall :=
  [.reserve 1 7 100 0 0, .claimUse 1 8 none 10 10 10,
    .reserve 1 8 101 COUPON_RESERVATION_MS COUPON_RESERVATION_MS,
    .claimUse 1 7 (some 100) (COUPON_RESERVATION_MS + 1) (COUPON_RESERVATION_MS + 1)
      (COUPON_RESERVATION_MS + 1),
    .claimUse 1 8 (some 101) (COUPON_RESERVATION_MS + 2) (COUPON_RESERVATION_MS + 2)
      (COUPON_RESERVATION_MS + 2)]

/-- One coupon with a limit. -/
def oneCoupon (maxUses : ℤ) : CouponState where
  db := {
    coupons := Table.empty.insert ⟨some maxUses, 0⟩
    reservations := .empty
    userCoupons := .empty }
  now := 0

theorem expiredReservation_limits : ∃ s, couponService.run (oneCoupon 1) expiredReservation = some s ∧
    s.db.usersOf 1 = [8] ∧ CouponLimits s.db ∧
      ∀ c u, couponService.total (CouponCall.claims c u) (oneCoupon 1) expiredReservation ≤ 1 := by
  have hunused : (oneCoupon 1).db.Unused := by
    refine {
      count := fun {id c} hget => ?_
      none := fun hget => by cases hget
      distinct := fun hget => by cases hget
      reservations := rfl }
    simp only [oneCoupon, Table.get?_insert] at hget
    split at hget
    · rw [← Option.some.inj hget]
    · cases hget
  have hsome : (couponService.run (oneCoupon 1) expiredReservation).any (fun s =>
      s.db.usersOf 1 == [8]) = true := by
    decide +kernel
  obtain ⟨s, hrun, hout⟩ := (Option.any_eq_true _ _).1 hsome
  exact ⟨s, hrun, beq_iff_eq.1 hout, coupon_limits hunused hrun⟩

end Barbershop
