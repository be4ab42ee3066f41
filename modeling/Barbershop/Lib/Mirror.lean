import Mathlib.Data.List.Dedup
import Barbershop.Lib.Table

/-!
# Derived rows

Some rows of a table are derived: the rows of one owner are to be exactly one for each wanted item.
A `Derivation` says which rows are the owner's, what is wanted, and how a row is refreshed and made.
`Derivation.sync` brings the rows up to date in three statements: delete what is not wanted, refresh
what is left, insert what is missing.

`Derivation.sync_mirrors`: from rows that are distinct, whatever else is wrong with them, one sync
makes them mirror what is wanted. `Derivation.sync_other`: it touches no row of another owner.
-/

namespace Lib

universe u v

/-- How the rows of one owner are derived, one for each wanted item. -/
structure Derivation (α : Type u) (ι : Type v) where
  mine : α → Bool
  item : α → ι
  wanted : List ι
  refresh : α → α
  fresh : ι → α

namespace Derivation

variable {α : Type u} {ι : Type v}

/-- Refreshed and fresh rows are the owner's, and of their item. -/
structure Lawful (d : Derivation α ι) : Prop where
  mine_refresh : ∀ a, d.mine a = true → d.mine (d.refresh a) = true
  item_refresh : ∀ a, d.item (d.refresh a) = d.item a
  mine_fresh : ∀ i, d.mine (d.fresh i) = true
  item_fresh : ∀ i, d.item (d.fresh i) = i

/-- The owner has no two rows of one item. -/
def Distinct (d : Derivation α ι) (t : Table α) : Prop :=
  ∀ ⦃j k a b⦄, t.get? j = some a → t.get? k = some b → d.mine a = true → d.mine b = true →
    d.item a = d.item b → j = k

/-- The rows of the owner are one for each wanted item, all of them as `good` says. -/
structure Mirrors (d : Derivation α ι) (good : α → Prop) (t : Table α) : Prop where
  sound : ∀ ⦃k a⦄, t.get? k = some a → d.mine a = true → d.item a ∈ d.wanted ∧ good a
  complete : ∀ i ∈ d.wanted, ∃ k a, t.get? k = some a ∧ d.mine a = true ∧ d.item a = i
  distinct : d.Distinct t

section Statements

variable (d : Derivation α ι)

def update (t : Table α) : Table α :=
  t.modifyAll fun _ a => if d.mine a then d.refresh a else a

def insertAll (l : List ι) (t : Table α) : Table α := l.foldl (fun t i => t.insert (d.fresh i)) t

variable [DecidableEq ι]

def delete (t : Table α) : Table α :=
  t.eraseAll fun _ a => d.mine a && decide (d.item a ∉ d.wanted)

/-- The wanted items without a row. -/
def missing (t : Table α) : List ι :=
  d.wanted.dedup.filter fun i => !t.any fun _ a => d.mine a && decide (d.item a = i)

def sync (t : Table α) : Table α :=
  let t := d.update (d.delete t)
  d.insertAll (d.missing t) t

end Statements

variable {d : Derivation α ι}

/-! ## The three statements -/

/-- A row after the update: one of another owner, or one refreshed. -/
theorem get?_update {t : Table α} {k : ℕ} {b : α} (h : (d.update t).get? k = some b) :
    ∃ a, t.get? k = some a ∧ (d.mine a = true ∧ b = d.refresh a ∨ d.mine a = false ∧ b = a) := by
  unfold update at h
  rw [Table.get?_modifyAll] at h
  obtain ⟨a, ha, rfl⟩ := Option.map_eq_some_iff.1 h
  refine ⟨a, ha, ?_⟩
  cases hmine : d.mine a with
  | true => exact .inl ⟨rfl, by simp⟩
  | false => exact .inr ⟨rfl, by simp⟩

theorem get?_update_of_not_mine {t : Table α} {k : ℕ} {a : α} (h : t.get? k = some a)
    (hmine : d.mine a = false) : (d.update t).get? k = some a := by
  unfold update
  rw [Table.get?_modifyAll, h, Option.map_some, hmine]
  rfl

theorem get?_insertAll_of_some {l : List ι} {t : Table α} {k : ℕ} {a : α}
    (h : t.get? k = some a) : (d.insertAll l t).get? k = some a := by
  induction l generalizing t with
  | nil => exact h
  | cons i l ih => exact ih (Table.get?_insert_of_some _ h)

theorem get?_insertAll {l : List ι} {t : Table α} {k : ℕ} {a : α}
    (h : (d.insertAll l t).get? k = some a) : t.get? k = some a ∨ ∃ i ∈ l, a = d.fresh i := by
  induction l generalizing t with
  | nil => exact .inl h
  | cons i l ih =>
    rcases ih h with h | ⟨j, hj, rfl⟩
    · rcases Table.get?_insert_cases h with ⟨-, rfl⟩ | h
      · exact .inr ⟨i, List.mem_cons_self, rfl⟩
      · exact .inl h
    · exact .inr ⟨j, List.mem_cons_of_mem _ hj, rfl⟩

theorem insertAll_has {l : List ι} {t : Table α} {i : ι} (hi : i ∈ l) :
    ∃ k, (d.insertAll l t).get? k = some (d.fresh i) := by
  induction l generalizing t with
  | nil => cases hi
  | cons j l ih =>
    rcases List.mem_cons.1 hi with rfl | hi
    · exact ⟨t.next, get?_insertAll_of_some (t := t.insert (d.fresh i)) (by simp)⟩
    · exact ih hi

/-- Distinct items that have no row yet get distinct rows. -/
theorem Distinct.insertAll (hd : d.Lawful) {l : List ι} {t : Table α} (ht : d.Distinct t)
    (hl : l.Nodup) (hnew : ∀ i ∈ l, ∀ k a, t.get? k = some a → d.mine a = true → d.item a ≠ i) :
    d.Distinct (d.insertAll l t) := by
  induction l generalizing t with
  | nil => exact ht
  | cons i l ih =>
    obtain ⟨hi, hl⟩ := List.nodup_cons.1 hl
    refine ih ?_ hl ?_
    · intro j k a b hj hk ha hb hab
      rcases Table.get?_insert_cases hj with ⟨rfl, rfl⟩ | hj'
      · rcases Table.get?_insert_cases hk with ⟨rfl, -⟩ | hk'
        · rfl
        · rw [hd.item_fresh] at hab
          exact absurd hab.symm (hnew i List.mem_cons_self k b hk' hb)
      · rcases Table.get?_insert_cases hk with ⟨rfl, rfl⟩ | hk'
        · rw [hd.item_fresh] at hab
          exact absurd hab (hnew i List.mem_cons_self j a hj' ha)
        · exact ht hj' hk' ha hb hab
    · intro j hj k a hk ha
      rcases Table.get?_insert_cases hk with ⟨-, rfl⟩ | hk'
      · rw [hd.item_fresh]
        rintro rfl
        exact hi hj
      · exact hnew j (List.mem_cons_of_mem _ hj) k a hk' ha

/-! ## The sync -/

variable [DecidableEq ι]

theorem get?_delete {t : Table α} {k : ℕ} {a : α} : (d.delete t).get? k = some a ↔
    t.get? k = some a ∧ (d.mine a = true → d.item a ∈ d.wanted) := by
  unfold delete
  rw [Table.get?_eraseAll]
  cases d.mine a <;> simp

/-- A row of the owner after the sync: one that was kept and refreshed, or a fresh one. -/
theorem get?_sync_mine {t : Table α} {k : ℕ} {b : α}
    (h : (d.sync t).get? k = some b) (hb : d.mine b = true) :
    (∃ a, t.get? k = some a ∧ d.mine a = true ∧ d.item a ∈ d.wanted ∧ b = d.refresh a) ∨
      ∃ i ∈ d.wanted, b = d.fresh i := by
  rcases get?_insertAll h with h | ⟨i, hi, rfl⟩
  · obtain ⟨a, ha, ⟨hmine, rfl⟩ | ⟨hmine, rfl⟩⟩ := get?_update h
    · obtain ⟨ha, hwanted⟩ := get?_delete.1 ha
      exact .inl ⟨a, ha, hmine, hwanted hmine, rfl⟩
    · rw [hmine] at hb
      cases hb
  · exact .inr ⟨i, List.mem_dedup.1 (List.mem_filter.1 hi).1, rfl⟩

theorem sync_mirrors (hd : d.Lawful) (good : α → Prop)
    (hrefresh : ∀ a, d.mine a = true → good (d.refresh a)) (hfresh : ∀ i, good (d.fresh i))
    {t : Table α} (ht : d.Distinct t) : d.Mirrors good (d.sync t) where
  sound k b h hb := by
    rcases get?_sync_mine h hb with ⟨a, -, hmine, hwanted, rfl⟩ | ⟨i, hi, rfl⟩
    · rw [hd.item_refresh]
      exact ⟨hwanted, hrefresh a hmine⟩
    · rw [hd.item_fresh]
      exact ⟨hi, hfresh i⟩
  complete i hi := by
    by_cases hmissing : i ∈ d.missing (d.update (d.delete t))
    · obtain ⟨k, hk⟩ := insertAll_has (t := d.update (d.delete t)) hmissing
      exact ⟨k, d.fresh i, hk, hd.mine_fresh i, hd.item_fresh i⟩
    · have hany : ((d.update (d.delete t)).any fun _ a => d.mine a && decide (d.item a = i)) =
          true := by
        by_contra hnot
        apply hmissing
        rw [Bool.not_eq_true] at hnot
        exact List.mem_filter.2 ⟨List.mem_dedup.2 hi, by rw [hnot]; rfl⟩
      obtain ⟨k, a, hk, ha⟩ := Table.any_eq_true.1 hany
      simp only [Bool.and_eq_true, decide_eq_true_eq] at ha
      exact ⟨k, a, get?_insertAll_of_some hk, ha⟩
  distinct := by
    have hupdated : d.Distinct (d.update (d.delete t)) := by
      intro j k a b hj hk ha hb hab
      obtain ⟨a', ha', hcase⟩ := get?_update hj
      obtain ⟨b', hb', hcase'⟩ := get?_update hk
      have hitem : ∀ {x y : α}, d.mine x = true ∧ y = d.refresh x ∨ d.mine x = false ∧ y = x →
          d.mine y = true → d.mine x = true ∧ d.item x = d.item y := by
        rintro x y (⟨hx, rfl⟩ | ⟨hx, rfl⟩) hy
        · exact ⟨hx, (hd.item_refresh x).symm⟩
        · rw [hx] at hy
          cases hy
      obtain ⟨hma, hia⟩ := hitem hcase ha
      obtain ⟨hmb, hib⟩ := hitem hcase' hb
      exact ht (get?_delete.1 ha').1 (get?_delete.1 hb').1 hma hmb (by rw [hia, hib, hab])
    refine hupdated.insertAll hd ((List.nodup_dedup _).filter _) ?_
    intro i hi k a hk ha hitem
    obtain ⟨-, hnone⟩ := List.mem_filter.1 hi
    rw [Bool.not_eq_true'] at hnone
    have hnot := Table.any_eq_false.1 hnone k a hk
    simp [ha, hitem] at hnot

/-- Rows of another owner are left alone. -/
theorem sync_other (hd : d.Lawful) {t : Table α} {k : ℕ} {a : α} (ha : d.mine a = false) :
    (d.sync t).get? k = some a ↔ t.get? k = some a := by
  constructor
  · intro h
    rcases get?_insertAll h with h | ⟨i, -, rfl⟩
    · obtain ⟨b, hb, ⟨hmine, rfl⟩ | ⟨-, rfl⟩⟩ := get?_update h
      · rw [hd.mine_refresh b hmine] at ha
        cases ha
      · exact (get?_delete.1 hb).1
    · rw [hd.mine_fresh] at ha
      cases ha
  · intro h
    apply get?_insertAll_of_some
    apply get?_update_of_not_mine _ ha
    exact get?_delete.2 ⟨h, fun hmine => by rw [ha] at hmine; cases hmine⟩

end Derivation

end Lib
