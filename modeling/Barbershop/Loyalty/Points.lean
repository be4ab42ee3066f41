import Barbershop.Service

/-!
# How a request moves the points of one customer

`Moved c t t' d` says that between two customer tables the points of customer `c` move by `d`. Every
point-moving function of the service has one lemma of this form. Where it takes points back with a
floor at zero, `d` contains what the floor forgives (`forgivenTo`): the part of the amount that the
balance does not cover.

The referrals are kept in the same account: `Balanced c` says that the points of `c`, less the
bonuses referrals have awarded to `c`, move by `d`. Completing a referral moves nothing in it, and
reverting one moves only what the floor forgives.
-/

namespace Barbershop

open Lib

/-- The points of a customer; one who is not in the table has none. -/
def pointsOf (customers : Table Customer) (c : ℕ) : ℤ :=
  ((customers.get? c).map (·.loyaltyPoints)).getD 0

/-- The part of a negative `delta` that a balance does not cover. -/
def shortfall (balance delta : ℤ) : ℤ := max 0 (-(balance + delta))

theorem max_zero_eq_add_shortfall (b d : ℤ) : max 0 (b + d) = b + d + shortfall b d := by
  unfold shortfall
  omega

/-- What `addLoyaltyPoints customers id delta` forgives customer `c`. -/
def forgivenTo (customers : Table Customer) (id : ℕ) (delta : ℤ) (c : ℕ) : ℤ :=
  if id = c ∧ delta < 0 then shortfall (pointsOf customers c) delta else 0

/-! ## Customer tables -/

/-- The points of customer `c` move by `d`. -/
structure Moved (c : ℕ) (t t' : Table Customer) (d : ℤ) : Prop where
  known : (t'.get? c).isSome = (t.get? c).isSome
  points : (t.get? c).isSome → pointsOf t' c = pointsOf t c + d

namespace Moved

variable {c : ℕ} {t t' t'' : Table Customer} {d d' : ℤ}

theorem refl (c : ℕ) (t : Table Customer) : Moved c t t 0 := ⟨rfl, fun _ => (add_zero _).symm⟩

theorem trans (h : Moved c t t' d) (h' : Moved c t' t'' d') : Moved c t t'' (d + d') where
  known := h'.known.trans h.known
  points hc := by
    rw [h'.points (h.known ▸ hc), h.points hc, add_assoc]

theorem cast (h : Moved c t t' d) (e : d = d') : Moved c t t' d' := e ▸ h

end Moved

/-- A write to one customer row moves the points of that customer. -/
theorem moved_modify (c id : ℕ) (t : Table Customer) (f : Customer → Customer) (d : ℤ)
    (hf : ∀ a, t.get? c = some a → id = c → (f a).loyaltyPoints = a.loyaltyPoints + d) :
    Moved c t (t.modify id f) (if id = c then d else 0) where
  known := by
    rw [Table.get?_modify]
    split <;> simp
  points hc := by
    obtain ⟨a, ha⟩ := Option.isSome_iff_exists.1 hc
    by_cases hid : id = c
    · subst hid
      simp [pointsOf, ha, hf a ha rfl]
    · simp [pointsOf, Table.get?_modify_of_ne t f (Ne.symm hid), hid]

theorem moved_incrementPoints (c id : ℕ) (t : Table Customer) (delta : ℤ) :
    Moved c t (incrementPoints t id delta) (if id = c then delta else 0) :=
  moved_modify c id t _ delta fun _ _ _ => rfl

theorem moved_floorPoints (c id : ℕ) (t : Table Customer) (delta : ℤ) :
    Moved c t (floorPoints t id delta)
      (if id = c then delta + shortfall (pointsOf t c) delta else 0) := by
  refine moved_modify c id t _ _ fun a ha _ => ?_
  rw [max_zero_eq_add_shortfall, add_assoc]
  simp [pointsOf, ha]

theorem moved_addLoyaltyPoints (c id : ℕ) (t : Table Customer) (delta : ℤ) :
    Moved c t (addLoyaltyPoints t id delta)
      ((if id = c then delta else 0) + forgivenTo t id delta c) := by
  unfold addLoyaltyPoints
  split
  · next hpos =>
    refine (moved_incrementPoints c id t delta).cast ?_
    have : ¬delta < 0 := by omega
    simp [forgivenTo, this]
  · split
    · next hneg =>
      refine (moved_floorPoints c id t delta).cast ?_
      by_cases hid : id = c <;> simp [forgivenTo, hid, hneg]
    · have : delta = 0 := by omega
      refine (Moved.refl c t).cast ?_
      simp [forgivenTo, this]

/-! ## Referrals -/

/-- The bonuses that completed referrals have awarded to a customer. -/
def bonusesOf (referrals : Table CustomerReferral) (c : ℕ) : ℤ :=
  referrals.sum fun _ r => if r.referrerId = c then (r.pointsAwarded.getD 0 : ℤ) else 0

/-- A referral that no sale has completed has awarded nothing. -/
def OpenUnawarded (referrals : Table CustomerReferral) : Prop :=
  ∀ k r, referrals.get? k = some r → r.completedAt = none → r.pointsAwarded = none

/-- The points of `c`, less the bonuses awarded to `c`, move by `d`. -/
structure Balanced (c : ℕ) (r : Table CustomerReferral) (t : Table Customer)
    (p : Table CustomerReferral × Table Customer) (d : ℤ) : Prop where
  unawarded : OpenUnawarded p.1
  known : (p.2.get? c).isSome = (t.get? c).isSome
  points : (t.get? c).isSome →
    pointsOf p.2 c - bonusesOf p.1 c = pointsOf t c - bonusesOf r c + d

namespace Balanced

variable {c : ℕ} {r : Table CustomerReferral} {t t₀ : Table Customer}
  {p q : Table CustomerReferral × Table Customer} {d d' : ℤ}

theorem refl (c : ℕ) {r : Table CustomerReferral} (hr : OpenUnawarded r) (t : Table Customer) :
    Balanced c r t (r, t) 0 :=
  ⟨hr, rfl, fun _ => (add_zero _).symm⟩

theorem trans (h : Balanced c r t p d) (h' : Balanced c p.1 p.2 q d') :
    Balanced c r t q (d + d') where
  unawarded := h'.unawarded
  known := h'.known.trans h.known
  points hc := by
    rw [h'.points (h.known ▸ hc), h.points hc, add_assoc]

/-- A move of points before. -/
theorem after (h : Moved c t₀ t d) (h' : Balanced c r t p d') : Balanced c r t₀ p (d + d') where
  unawarded := h'.unawarded
  known := h'.known.trans h.known
  points hc := by
    have := h.points hc
    have := h'.points (h.known ▸ hc)
    omega

/-- A move of points after. -/
theorem before (h : Balanced c r t p d) {t' : Table Customer} (h' : Moved c p.2 t' d') :
    Balanced c r t (p.1, t') (d + d') where
  unawarded := h.unawarded
  known := h'.known.trans h.known
  points hc := by
    have := h.points hc
    have := h'.points (h.known ▸ hc)
    simp only at *
    omega

theorem cast (h : Balanced c r t p d) (e : d = d') : Balanced c r t p d' := e ▸ h

end Balanced

/-- Rewriting one referral changes the bonuses of its referrer by the change of its award. -/
theorem bonusesOf_modify {referrals : Table CustomerReferral} {id : ℕ} {a : CustomerReferral}
    (f : CustomerReferral → CustomerReferral) (ha : referrals.get? id = some a)
    (hf : (f a).referrerId = a.referrerId) (c : ℕ) :
    bonusesOf (referrals.modify id f) c = bonusesOf referrals c +
      if a.referrerId = c then ((f a).pointsAwarded.getD 0 : ℤ) - (a.pointsAwarded.getD 0 : ℤ)
      else 0 := by
  have h := Table.sum_modify f
    (fun _ r => if r.referrerId = c then (r.pointsAwarded.getD 0 : ℤ) else 0) ha
  simp only [hf] at h
  unfold bonusesOf
  split at h <;> simp_all
  omega

theorem openUnawarded_modify {referrals : Table CustomerReferral} (h : OpenUnawarded referrals)
    (id : ℕ) {f : CustomerReferral → CustomerReferral}
    (hf : ∀ a, (f a).completedAt = none → (f a).pointsAwarded = none) :
    OpenUnawarded (referrals.modify id f) := by
  intro k r hk hopen
  rw [Table.get?_modify] at hk
  split at hk
  · obtain ⟨a, -, rfl⟩ := Option.map_eq_some_iff.1 hk
    exact hf a hopen
  · exact h k r hk hopen

/-- What taking the bonus back forgives the referrer. -/
def referralForgiven (saleId : ℕ) (referrals : Table CustomerReferral) (customers : Table Customer)
    (c : ℕ) : ℤ :=
  match referrals.find? fun _ r => r.saleId == some saleId with
  | none => 0
  | some (_, referral) =>
    forgivenTo customers referral.referrerId (-(referral.pointsAwarded.getD 0 : ℤ)) c

theorem balanced_completeReferralIfPaid (c : ℕ) (network : Network) (now : ℤ)
    (customerId : Option ℕ) (moneyPaid : ℚ) (saleId : ℕ) {referrals : Table CustomerReferral}
    (hr : OpenUnawarded referrals) (customers : Table Customer) :
    Balanced c referrals customers
      (completeReferralIfPaid network now customerId moneyPaid saleId referrals customers) 0 := by
  unfold completeReferralIfPaid
  cases customerId with
  | none => exact Balanced.refl c hr customers
  | some customerId =>
    dsimp only
    split
    · exact Balanced.refl c hr customers
    · split
      · exact Balanced.refl c hr customers
      · next id referral hfound =>
        obtain ⟨hget, -⟩ := Table.find?_some hfound
        split
        · exact Balanced.refl c hr customers
        · next hopen =>
          have hnone : referral.pointsAwarded = none :=
            hr id referral hget (by simpa using hopen)
          have hb := bonusesOf_modify (fun r : CustomerReferral =>
            { r with completedAt := some now, pointsAwarded := some network.referralBonusPoints,
                     saleId := saleId }) hget rfl c
          simp only [hnone, Option.getD_some, Option.getD_none, Nat.cast_zero, sub_zero] at hb
          have hu := openUnawarded_modify hr id (f := fun r : CustomerReferral =>
            { r with completedAt := some now, pointsAwarded := some network.referralBonusPoints,
                     saleId := saleId }) (by simp)
          split
          · have hm := moved_incrementPoints c referral.referrerId customers
              network.referralBonusPoints
            refine ⟨hu, hm.known, fun hc => ?_⟩
            have := hm.points hc
            simp only at *
            split at this <;> simp_all
          · next hzero =>
            have hz : network.referralBonusPoints = 0 := by omega
            refine ⟨hu, rfl, fun _ => ?_⟩
            rw [hb]
            simp [hz]

theorem balanced_revertReferralOfSale (c saleId : ℕ) {referrals : Table CustomerReferral}
    (hr : OpenUnawarded referrals) (customers : Table Customer) :
    Balanced c referrals customers (revertReferralOfSale saleId referrals customers)
      (referralForgiven saleId referrals customers c) := by
  unfold revertReferralOfSale referralForgiven
  cases hfound : referrals.find? fun _ r => r.saleId == some saleId with
  | none => exact Balanced.refl c hr customers
  | some found =>
    obtain ⟨id, referral⟩ := found
    obtain ⟨hget, -⟩ := Table.find?_some hfound
    have hb := bonusesOf_modify (fun r : CustomerReferral =>
      { r with completedAt := none, pointsAwarded := none, saleId := none }) hget rfl c
    have hu := openUnawarded_modify hr id (f := fun r : CustomerReferral =>
      { r with completedAt := none, pointsAwarded := none, saleId := none }) (by simp)
    simp only [Option.getD_none, Nat.cast_zero, zero_sub] at hb
    dsimp only
    split
    · next hpos =>
      have hm := moved_floorPoints c referral.referrerId customers
        (-(referral.pointsAwarded.getD 0 : ℤ))
      have hneg : -(referral.pointsAwarded.getD 0 : ℤ) < 0 := by omega
      refine ⟨hu, hm.known, fun hc => ?_⟩
      have hp := hm.points hc
      simp only [hb, forgivenTo, hneg, and_true] at hp ⊢
      split at hp <;> simp_all
      omega
    · next hzero =>
      have hz : referral.pointsAwarded.getD 0 = 0 := by omega
      refine ⟨hu, rfl, fun _ => ?_⟩
      simp [hb, hz, forgivenTo]

end Barbershop
