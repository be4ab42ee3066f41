import Mathlib.Algebra.BigOperators.Group.List.Basic
import Mathlib.Data.List.Nodup

/-!
# Lists without repetitions

`List.eraseDups` keeps the first occurrence of each element, as the keys of a `Map` and the elements
of a `Set` are kept in JavaScript. Under distinct keys a filter by key leaves one element
(`filter_key_eq_singleton`). A sum over such a list meets each element once
(`sum_ite_of_nodup`), so a sum can be grouped by a key (`sum_eq_sum_groups`).
-/

namespace Lib

universe u v

variable {α : Type u}

theorem nodup_eraseDups [BEq α] [LawfulBEq α] : ∀ l : List α, l.eraseDups.Nodup
  | [] => List.nodup_nil
  | a :: l => by
    have hlen : (l.filter fun b => !b == a).length ≤ l.length := List.length_filter_le ..
    rw [List.eraseDups_cons, List.nodup_cons, List.mem_eraseDups]
    exact ⟨by simp, nodup_eraseDups _⟩
  termination_by l => l.length

/-- Over distinct elements, a sum of which only the term at `a` counts. -/
theorem sum_ite_of_nodup {M : Type v} [AddCommMonoid M] [DecidableEq α] {l : List α} (h : l.Nodup)
    (a : α) (d : M) : (l.map fun b => if b = a then d else 0).sum = if a ∈ l then d else 0 := by
  induction l with
  | nil => simp
  | cons b l ih =>
    rw [List.nodup_cons] at h
    rw [List.map_cons, List.sum_cons, ih h.2]
    by_cases hb : b = a
    · subst hb
      simp [h.1]
    · simp [hb, Ne.symm hb]

/-- Under distinct keys, an element is the only one with its key. -/
theorem filter_key_eq_singleton {β : Type v} [DecidableEq β] {key : α → β} {l : List α}
    (h : (l.map key).Nodup) {a : α} (ha : a ∈ l) : l.filter (fun b => key b == key a) = [a] := by
  induction l with
  | nil => cases ha
  | cons b l ih =>
    rw [List.map_cons, List.nodup_cons] at h
    rw [List.filter_cons]
    rcases List.mem_cons.1 ha with rfl | ha
    · have hrest : l.filter (fun b => key b == key a) = [] := by
        rw [List.filter_eq_nil_iff]
        intro b hb heq
        exact h.1 (beq_iff_eq.1 heq ▸ List.mem_map_of_mem hb)
      rw [if_pos (beq_self_eq_true _), hrest]
    · have hne : ¬ (key b == key a) = true := fun heq =>
        h.1 (beq_iff_eq.1 heq ▸ List.mem_map_of_mem ha)
      rw [if_neg hne, ih h.2 ha]

/-- A sum, grouped by keys below a bound. -/
theorem sum_eq_sum_groups {M : Type v} [AddCommMonoid M] {n : ℕ} {key : α → ℕ} (g : α → M) :
    ∀ {l : List α}, (∀ a ∈ l, key a < n) → (l.map g).sum =
      ((List.range n).map fun i => ((l.filter fun a => key a == i).map g).sum).sum
  | [], _ => by simp
  | a :: l, h => by
    have hgroup : ∀ i, (((a :: l).filter fun a => key a == i).map g).sum =
        (if i = key a then g a else 0) + ((l.filter fun a => key a == i).map g).sum := by
      intro i
      rw [List.filter_cons]
      by_cases hi : key a = i
      · simp [hi]
      · simp [hi, Ne.symm hi]
    have hmem : key a ∈ List.range n := List.mem_range.2 (h a List.mem_cons_self)
    simp only [hgroup]
    rw [List.sum_map_add, sum_ite_of_nodup List.nodup_range, if_pos hmem, List.map_cons,
      List.sum_cons, sum_eq_sum_groups g fun b hb => h b (List.mem_cons_of_mem _ hb)]

end Lib
