import Mathlib.Data.List.Sort
import Mathlib.Order.Bounds.Basic

/-!
# The earliest of several lists

Lists in order, each looked at in its first element only, give the same earliest element as one list of
all their elements, sorted (`earliest_foldl`, `earliest_sorted`, `Earliest.unique`).
-/

namespace Lib

universe u

variable {α : Type u} [LinearOrder α] {S T : Set α} {o o' : Option α}

/-- The least element of a set, or `none` when it is empty. -/
structure Earliest (S : Set α) (o : Option α) : Prop where
  empty : o = none → S = ∅
  least : ∀ t ∈ o, IsLeast S t

theorem earliest_some {t : α} (h : IsLeast S t) : Earliest S (some t) where
  empty hnone := by cases hnone
  least u hu := by
    cases hu
    exact h

theorem earliest_none : Earliest (∅ : Set α) none where
  empty _ := rfl
  least t ht := by cases ht

/-- The earlier of two times, with none later than any. -/
def sooner (earliest slot : Option α) : Option α :=
  match slot with
  | none => earliest
  | some s => if earliest.all (decide <| s < ·) then some s else earliest

@[simp] theorem none_sooner (slot : Option α) : sooner none slot = slot := by
  cases slot <;> rfl

theorem Earliest.unique (h : Earliest S o) (h' : Earliest S o') : o = o' := by
  cases o with
  | none =>
    cases o' with
    | none => rfl
    | some t =>
      have hmem := (h'.least t rfl).1
      rw [h.empty rfl] at hmem
      exact absurd hmem (Set.notMem_empty t)
  | some t =>
    cases o' with
    | none =>
      have hmem := (h.least t rfl).1
      rw [h'.empty rfl] at hmem
      exact absurd hmem (Set.notMem_empty t)
    | some u => rw [(h.least t rfl).unique (h'.least u rfl)]

theorem Earliest.sooner (h : Earliest S o) (h' : Earliest T o') :
    Earliest (S ∪ T) (sooner o o') := by
  cases o' with
  | none =>
    rw [h'.empty rfl, Set.union_empty]
    exact h
  | some s =>
    have hs := h'.least s rfl
    cases o with
    | none =>
      rw [h.empty rfl, Set.empty_union]
      exact h'
    | some t =>
      have ht := h.least t rfl
      unfold Lib.sooner
      dsimp only
      by_cases hlt : s < t
      · rw [if_pos (by simpa using hlt)]
        refine earliest_some ⟨.inr hs.1, ?_⟩
        rintro v (hv | hv)
        · exact hlt.le.trans (ht.2 hv)
        · exact hs.2 hv
      · rw [if_neg (by simpa using hlt)]
        refine earliest_some ⟨.inl ht.1, ?_⟩
        rintro v (hv | hv)
        · exact ht.2 hv
        · exact (not_lt.1 hlt).trans (hs.2 hv)

/-- A list in order starts with its least element. -/
theorem earliest_head {l : List α} (h : l.Pairwise (· ≤ ·)) : Earliest {t | t ∈ l} l.head? := by
  cases l with
  | nil => simpa using earliest_none
  | cons t ts =>
    refine earliest_some ⟨List.mem_cons_self, ?_⟩
    intro v hv
    rcases List.mem_cons.1 hv with rfl | hv
    · exact le_rfl
    · exact (List.pairwise_cons.1 h).1 v hv

theorem earliest_foldl {ls : List (List α)} (hls : ∀ l ∈ ls, l.Pairwise (· ≤ ·))
    (h : Earliest S o) :
    Earliest (S ∪ {t | t ∈ ls.flatten}) ((ls.map List.head?).foldl Lib.sooner o) := by
  induction ls generalizing S o with
  | nil => simpa using h
  | cons l ls ih =>
    have hnext := ih (fun l' hl' => hls l' (List.mem_cons_of_mem l hl'))
      (h.sooner (earliest_head (hls l List.mem_cons_self)))
    rw [List.map_cons, List.foldl_cons, List.flatten_cons]
    have hset : S ∪ {t | t ∈ l ++ ls.flatten} = S ∪ {t | t ∈ l} ∪ {t | t ∈ ls.flatten} := by
      ext t
      simp [or_assoc]
    rw [hset]
    exact hnext

theorem earliest_sorted (l : List α) :
    Earliest {t | t ∈ l} ((l.eraseDups.insertionSort (· ≤ ·)).head?) := by
  have hsorted := earliest_head (List.pairwise_insertionSort (· ≤ ·) l.eraseDups)
  simpa using hsorted

/-- The first elements of lists in order have the least element of all. -/
theorem foldl_sooner_eq {ls : List (List α)} (hls : ∀ l ∈ ls, l.Pairwise (· ≤ ·)) :
    (ls.map List.head?).foldl Lib.sooner none =
      (ls.flatten.eraseDups.insertionSort (· ≤ ·)).head? := by
  have hfold := earliest_foldl hls earliest_none
  rw [Set.empty_union] at hfold
  exact hfold.unique (earliest_sorted ls.flatten)

end Lib
