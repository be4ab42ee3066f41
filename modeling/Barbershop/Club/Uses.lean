import Barbershop.Club.Session

/-!
# Sessions of a cycle and the rows that record them

`usedIn` counts the rows of a membership that record a session of a cycle and are not undone. Each
write of a request moves that count, and the counter of the membership, by what this module says.
-/

namespace Barbershop

open Lib

/-! ## The count -/

/-- The row counts as a session of the membership in a cycle. -/
def ClientSubscriptionUse.activeIn (k : ℕ) (p : Option ℤ) (u : ClientSubscriptionUse) : Bool :=
  u.clientSubscriptionId == k && u.undoneAt.isNone && u.periodStart == p

/-- The rows of a membership in a cycle that are not undone. -/
def usesIn (uses : Table ClientSubscriptionUse) (k : ℕ) (p : Option ℤ) :
    List (ℕ × ClientSubscriptionUse) :=
  uses.filter fun _ u => u.activeIn k p

def usedIn (uses : Table ClientSubscriptionUse) (k : ℕ) (p : Option ℤ) : ℕ :=
  uses.sum fun _ u => if u.activeIn k p then 1 else 0

/-- Of those rows, the ones of a sale. -/
def soldIn (uses : Table ClientSubscriptionUse) (saleId k : ℕ) (p : Option ℤ) : ℕ :=
  uses.sum fun _ u => if u.activeIn k p ∧ u.saleId = some saleId then 1 else 0

theorem length_usesIn (uses : Table ClientSubscriptionUse) (k : ℕ) (p : Option ℤ) :
    (usesIn uses k p).length = usedIn uses k p := by
  have h := Table.length_filter (M := ℕ) uses fun _ u => u.activeIn k p
  rwa [Nat.cast_id] at h

section Counts

variable {uses : Table ClientSubscriptionUse} {i x k : ℕ} {p : Option ℤ} {u : ClientSubscriptionUse}

theorem ClientSubscriptionUse.activeIn_iff : u.activeIn k p = true ↔
    u.clientSubscriptionId = k ∧ u.undoneAt = none ∧ u.periodStart = p := by
  simp [activeIn, and_assoc]

theorem ClientSubscriptionUse.IsUse.activeIn_iff {id : ℕ} {saleId : Option ℕ}
    {s : ClientSubscription} (h : u.IsUse id saleId s) :
    u.activeIn k p = true ↔ id = k ∧ s.currentPeriodStart = p := by
  rw [ClientSubscriptionUse.activeIn_iff, h.subscription, h.period]
  simp [h.active]

theorem usedIn_insert {id : ℕ} {saleId : Option ℕ} {s : ClientSubscription}
    (h : u.IsUse id saleId s) (uses : Table ClientSubscriptionUse) (k : ℕ) (p : Option ℤ) :
    usedIn (uses.insert u) k p =
      usedIn uses k p + if id = k ∧ s.currentPeriodStart = p then 1 else 0 := by
  unfold usedIn
  rw [Table.sum_insert]
  simp only [h.activeIn_iff]

/-- Undoing an active row takes it from the count of its cycle. -/
theorem usedIn_undo (hi : uses.get? i = some u) (hu : u.undoneAt = none) (now : ℤ) (userId k : ℕ)
    (p : Option ℤ) :
    usedIn (uses.modify i (·.undo now userId)) k p +
        (if u.clientSubscriptionId = k ∧ u.periodStart = p then 1 else 0) = usedIn uses k p := by
  have hsum := Table.sum_modify (·.undo now userId)
    (fun _ v => if ClientSubscriptionUse.activeIn k p v then 1 else 0) hi
  have hold : u.activeIn k p = true ↔ u.clientSubscriptionId = k ∧ u.periodStart = p := by
    simp [ClientSubscriptionUse.activeIn_iff, hu]
  have hnew : (u.undo now userId).activeIn k p = false := by
    simp [ClientSubscriptionUse.activeIn, ClientSubscriptionUse.undo]
  simp only [hold, hnew, Bool.false_eq_true, if_false, add_zero] at hsum
  exact hsum

/-! ## With the sale -/

/-- Undoing the rows of a sale takes them from the count of their cycle. -/
theorem usedIn_undoClubUses {existing : Sale} (hclub : existing.clientSubscriptionId.isSome = true)
    (uses : Table ClientSubscriptionUse) (x : ℕ) (now : ℤ) (userId k : ℕ) (p : Option ℤ) :
    usedIn (undoClubUses existing x now userId uses) k p + soldIn uses x k p = usedIn uses k p := by
  obtain ⟨id, hid⟩ := Option.isSome_iff_exists.1 hclub
  unfold undoClubUses usedIn soldIn
  rw [hid]
  dsimp only
  rw [Table.sum_modifyAll, ← Table.sum_add]
  refine Table.sum_congr fun j v _ => ?_
  by_cases hv : v.saleId = some x ∧ v.undoneAt = none
  · rw [if_pos hv]
    simp [ClientSubscriptionUse.activeIn, hv.1]
  · rw [if_neg hv]
    simp only [ClientSubscriptionUse.activeIn_iff]
    split
    · next ha => rw [if_neg fun h => hv ⟨h.2, ha.2.1⟩]
    · next ha => rw [if_neg fun h => ha h.1]

theorem undoClubUses_none {existing : Sale} (hclub : existing.clientSubscriptionId = none) (x : ℕ)
    (now : ℤ) (userId : ℕ) : undoClubUses existing x now userId uses = uses := by
  unfold undoClubUses
  rw [hclub]

theorem soldIn_pos (hi : uses.get? i = some u) (hu : u.activeIn k p = true)
    (hx : u.saleId = some x) : 0 < soldIn uses x k p := by
  unfold soldIn
  rw [Table.sum_eq_add_erase _ hi, if_pos ⟨hu, hx⟩]
  exact Nat.add_pos_left Nat.one_pos _

/-- The row is the only session of its sale. -/
theorem soldIn_of_unique (hi : uses.get? i = some u) (hx : u.saleId = some x)
    (hu : u.undoneAt = none) (hunique : ∀ j v, uses.get? j = some v → v.saleId = some x → j = i)
    (k : ℕ) (p : Option ℤ) :
    soldIn uses x k p = if u.clientSubscriptionId = k ∧ u.periodStart = p then 1 else 0 := by
  have hrest : (uses.erase i).sum
      (fun _ v => if ClientSubscriptionUse.activeIn k p v = true ∧ v.saleId = some x then 1 else 0) =
        0 := by
    refine Table.sum_eq_zero fun j v hj => ?_
    rw [Table.get?_erase] at hj
    split at hj
    · cases hj
    · next hne => exact if_neg fun h => hne (hunique j v hj h.2)
  unfold soldIn
  rw [Table.sum_eq_add_erase _ hi, hrest, add_zero]
  simp [ClientSubscriptionUse.activeIn_iff, hu, hx]

end Counts

/-! ## The counter -/

/-- Does the deletion of the sale give its session back to the membership? -/
def Sale.restores (existing : Sale) (s : ClientSubscription) : Bool :=
  decide (0 < s.usedThisCycle) && s.currentPeriodStart.all fun start =>
    decide (start ≤ existing.createdAt)

theorem restoreClub_some {existing : Sale} {k : ℕ} (hk : existing.clientSubscriptionId = some k)
    (subscriptions : Table ClientSubscription) :
    restoreClub existing subscriptions = subscriptions.modify k fun s =>
      if existing.restores s then { s with usedThisCycle := s.usedThisCycle - 1 } else s := by
  unfold restoreClub
  rw [hk]
  simp [Sale.restores]

theorem restoreClub_none {existing : Sale} (hclub : existing.clientSubscriptionId = none)
    (subscriptions : Table ClientSubscription) : restoreClub existing subscriptions = subscriptions := by
  unfold restoreClub
  rw [hclub]

/-- The counter after so many sessions went back. -/
def ClientSubscription.less (n : ℕ) (s : ClientSubscription) : ClientSubscription :=
  { s with usedThisCycle := s.usedThisCycle - n }

theorem ClientSubscription.giveBack_eq (s : ClientSubscription) : s.giveBack = s.less 1 := by
  unfold giveBack less
  split
  · rfl
  · next h =>
    have hzero := Nat.eq_zero_of_not_pos h
    cases s
    cases hzero
    rfl

section Rows

variable {subscriptions : Table ClientSubscription} {k : ℕ} {t : ClientSubscription}

theorem get?_giveBack {id : ℕ} (h : (subscriptions.modify id (·.giveBack)).get? k = some t) :
    ∃ s, subscriptions.get? k = some s ∧ t = s.less (if id = k then 1 else 0) := by
  rw [Table.get?_modify] at h
  split at h
  · next hk =>
    obtain ⟨s, hs, rfl⟩ := Option.map_eq_some_iff.1 h
    rw [if_pos hk.symm]
    exact ⟨s, hs, s.giveBack_eq⟩
  · next hk =>
    rw [if_neg (Ne.symm hk)]
    exact ⟨t, h, rfl⟩

theorem get?_restoreClub {existing : Sale} {id : ℕ} (hclub : existing.clientSubscriptionId = some id)
    (h : (restoreClub existing subscriptions).get? k = some t) :
    ∃ s, subscriptions.get? k = some s ∧
      t = s.less (if id = k ∧ existing.restores s = true then 1 else 0) := by
  rw [restoreClub_some hclub, Table.get?_modify] at h
  split at h
  · next hk =>
    obtain ⟨s, hs, rfl⟩ := Option.map_eq_some_iff.1 h
    refine ⟨s, hs, ?_⟩
    split
    · next hr =>
      rw [if_pos ⟨hk.symm, hr⟩]
      rfl
    · next hr =>
      rw [if_neg fun e => hr e.2]
      rfl
  · next hk =>
    refine ⟨t, h, ?_⟩
    rw [if_neg fun e => hk e.1.symm]
    rfl

end Rows

/-! ## What a row keeps -/

/-- Between an earlier and a later row of a use: only whether it is undone may change. -/
structure ClientSubscriptionUse.Keeps (u u' : ClientSubscriptionUse) : Prop where
  subscription : u'.clientSubscriptionId = u.clientSubscriptionId
  sale : u'.saleId = u.saleId
  period : u'.periodStart = u.periodStart

namespace ClientSubscriptionUse.Keeps

variable {uses : Table ClientSubscriptionUse} {i : ℕ} {a b c v : ClientSubscriptionUse}

theorem refl (u : ClientSubscriptionUse) : u.Keeps u := ⟨rfl, rfl, rfl⟩

theorem trans (h : a.Keeps b) (h' : b.Keeps c) : a.Keeps c :=
  ⟨h'.subscription.trans h.subscription, h'.sale.trans h.sale, h'.period.trans h.period⟩

theorem undo {j : ℕ} {now : ℤ} {userId : ℕ}
    (h : (uses.modify j (·.undo now userId)).get? i = some v) :
    ∃ u, uses.get? i = some u ∧ u.Keeps v := by
  rw [Table.get?_modify] at h
  split at h
  · obtain ⟨u, hu, rfl⟩ := Option.map_eq_some_iff.1 h
    exact ⟨u, hu, rfl, rfl, rfl⟩
  · exact ⟨v, h, .refl v⟩

theorem undoClubUses {existing : Sale} {x : ℕ} {now : ℤ} {userId : ℕ}
    (h : (Barbershop.undoClubUses existing x now userId uses).get? i = some v) :
    ∃ u, uses.get? i = some u ∧ u.Keeps v := by
  unfold Barbershop.undoClubUses at h
  split at h
  · exact ⟨v, h, .refl v⟩
  · rw [Table.get?_modifyAll] at h
    obtain ⟨u, hu, rfl⟩ := Option.map_eq_some_iff.1 h
    refine ⟨u, hu, ?_⟩
    split
    · exact ⟨rfl, rfl, rfl⟩
    · exact .refl u

end ClientSubscriptionUse.Keeps

/-- The rows of other sales stay as they are. -/
theorem undoClubUses_of_ne {uses : Table ClientSubscriptionUse} {existing : Sale} {x : ℕ} (now : ℤ)
    (userId : ℕ) {i : ℕ} {u : ClientSubscriptionUse} (hi : uses.get? i = some u)
    (hu : u.saleId ≠ some x) :
    (undoClubUses existing x now userId uses).get? i = some u := by
  unfold undoClubUses
  split
  · exact hi
  · rw [Table.get?_modifyAll, hi, Option.map_some, if_neg fun e => hu e.1]

end Barbershop
