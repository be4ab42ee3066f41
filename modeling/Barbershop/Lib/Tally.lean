import Mathlib.Algebra.BigOperators.Group.List.Basic
import Mathlib.Algebra.Order.Group.Defs
import Mathlib.Tactic.Abel

/-!
# Totals by key

A map from keys to amounts in the order the keys came, as the `Map` of JavaScript is. A key that is not
there counts as zero.
-/

namespace Lib

/-- Amounts by key, in the order of the keys' first amounts. -/
structure Tally (κ : Type) (α : Type) where
  rows : List (κ × α)
  nodup : (rows.map (·.1)).Nodup

namespace Tally

variable {κ α : Type} [DecidableEq κ] [AddCommGroup α]

omit [DecidableEq κ] [AddCommGroup α] in
/-- The map without keys. -/
def empty : Tally κ α := ⟨[], List.nodup_nil⟩

/-- The first amount of a key among rows. -/
def rowsGet (k : κ) : List (κ × α) → α
  | [] => 0
  | row :: rows => if row.1 = k then row.2 else rowsGet k rows

omit [AddCommGroup α] in
/-- Write an amount over that of a key, or after the others. -/
def rowsSet (k : κ) (a : α) : List (κ × α) → List (κ × α)
  | [] => [(k, a)]
  | row :: rows => if row.1 = k then (k, a) :: rows else row :: rowsSet k a rows

omit [AddCommGroup α] in
theorem mem_rowsSet_keys {k k' : κ} {a : α} {rows : List (κ × α)}
    (h : k' ∈ (rowsSet k a rows).map (·.1)) : k' = k ∨ k' ∈ rows.map (·.1) := by
  induction rows with
  | nil => simpa [rowsSet] using h
  | cons row rows ih =>
    rw [rowsSet] at h
    split at h
    · next hkey => simpa [hkey] using h
    · simp only [List.map_cons, List.mem_cons] at h ⊢
      tauto

omit [AddCommGroup α] in
theorem nodup_rowsSet (k : κ) (a : α) {rows : List (κ × α)} (h : (rows.map (·.1)).Nodup) :
    ((rowsSet k a rows).map (·.1)).Nodup := by
  induction rows with
  | nil => simp [rowsSet]
  | cons row rows ih =>
    rw [List.map_cons, List.nodup_cons] at h
    rw [rowsSet]
    split
    · next hkey => simpa [← hkey] using h
    · next hkey =>
      rw [List.map_cons, List.nodup_cons]
      refine ⟨fun hmem => ?_, ih h.2⟩
      rcases mem_rowsSet_keys hmem with heq | hmem
      · exact hkey heq
      · exact h.1 hmem

variable (m : Tally κ α) (k : κ) (a : α)

def get : α := rowsGet k m.rows

def set : Tally κ α := ⟨rowsSet k a m.rows, nodup_rowsSet k a m.nodup⟩

omit [DecidableEq κ] [AddCommGroup α] in
def keys : List κ := m.rows.map (·.1)

omit [DecidableEq κ] in
/-- All amounts together. -/
def total : α := (m.rows.map (·.2)).sum

omit [DecidableEq κ] in
@[simp] theorem total_empty : (empty : Tally κ α).total = 0 := rfl

theorem rowsTotal_set (rows : List (κ × α)) : ((rowsSet k a rows).map (·.2)).sum =
    (rows.map (·.2)).sum - rowsGet k rows + a := by
  induction rows with
  | nil => simp [rowsSet, rowsGet]
  | cons row rows ih =>
    rw [rowsSet, rowsGet]
    split
    · simp only [List.map_cons, List.sum_cons]
      abel
    · rw [List.map_cons, List.sum_cons, ih, List.map_cons, List.sum_cons]
      abel

theorem total_set : (m.set k a).total = m.total - m.get k + a := rowsTotal_set k a m.rows

theorem rowsGet_mem {p : α → Prop} (hzero : p 0) {rows : List (κ × α)}
    (h : ∀ row ∈ rows, p row.2) (k : κ) : p (rowsGet k rows) := by
  induction rows with
  | nil => exact hzero
  | cons row rows ih =>
    rw [rowsGet]
    split
    · exact h row (by simp)
    · exact ih fun row' hrow => h row' (by simp [hrow])

omit [AddCommGroup α] in
theorem mem_rowsSet {p : α → Prop} {rows : List (κ × α)} (h : ∀ row ∈ rows, p row.2) (ha : p a) :
    ∀ row ∈ rowsSet k a rows, p row.2 := by
  induction rows with
  | nil => simpa [rowsSet] using ha
  | cons row rows ih =>
    rw [rowsSet]
    split
    · simp only [List.mem_cons, forall_eq_or_imp] at h ⊢
      exact ⟨ha, h.2⟩
    · simp only [List.mem_cons, forall_eq_or_imp] at h ⊢
      exact ⟨h.1, ih h.2⟩

/-- The amounts under the keys add up to the total. -/
theorem sum_get : (m.keys.map m.get).sum = m.total := by
  obtain ⟨rows, hnodup⟩ := m
  show ((rows.map (·.1)).map fun k => rowsGet k rows).sum = (rows.map (·.2)).sum
  induction rows with
  | nil => rfl
  | cons row rows ih =>
    rw [List.map_cons, List.nodup_cons] at hnodup
    rw [List.map_cons, List.map_cons, List.sum_cons, List.map_cons, List.sum_cons, ← ih hnodup.2]
    congr 1
    · exact if_pos rfl
    · refine congrArg List.sum (List.map_congr_left fun k hk => if_neg ?_)
      rintro rfl
      exact hnodup.1 hk

end Tally

end Lib
