import Mathlib.Data.Set.Card
import Mathlib.Logic.Relation
import Barbershop.Lib.Table

/-!
# Classes of related things

The classes of a relation are those of the equivalence it generates (`Relation.EqvGen`). A new thing
whose relations all lie in one class joins that class and leaves the others apart
(`eqvGen_of_joined`). A class with at most so many members has at most one more after one was added.
-/

namespace Lib

universe u

variable {α : Type u}

open Classical in
/-- A new thing `n`, related to things of one class only, joins no two classes. -/
theorem eqvGen_of_joined {R R' : α → α → Prop} {n : α} (hsymm : ∀ {i j}, R' i j → R' j i)
    (hold : ∀ {i j}, i ≠ n → j ≠ n → R' i j → R i j)
    (hjoin : ∀ {i j}, i ≠ n → j ≠ n → R' i n → R' j n → Relation.EqvGen R i j) {i j : α}
    (h : Relation.EqvGen R' i j) (hi : i ≠ n) (hj : j ≠ n) : Relation.EqvGen R i j := by
  -- `m` stands for `n`: one of the things it is related to, if there is one
  obtain ⟨m, hm⟩ : ∃ m, ∀ i, i ≠ n → R' i n → m ≠ n ∧ R' m n := by
    by_cases hsome : ∃ m, m ≠ n ∧ R' m n
    · obtain ⟨m, hm⟩ := hsome
      exact ⟨m, fun _ _ _ => hm⟩
    · exact ⟨n, fun i hi hR => absurd ⟨i, hi, hR⟩ hsome⟩
  have hmoved : Relation.EqvGen R (if i = n then m else i) (if j = n then m else j) := by
    clear hi hj
    induction h with
    | rel i j hR =>
      by_cases hi' : i = n
      · by_cases hj' : j = n
        · rw [if_pos hi', if_pos hj']
          exact .refl m
        · subst hi'
          rw [if_pos rfl, if_neg hj']
          obtain ⟨hne, hrel⟩ := hm j hj' (hsymm hR)
          exact hjoin hne hj' hrel (hsymm hR)
      · by_cases hj' : j = n
        · subst hj'
          rw [if_neg hi', if_pos rfl]
          obtain ⟨hne, hrel⟩ := hm i hi' hR
          exact hjoin hi' hne hR hrel
        · rw [if_neg hi', if_neg hj']
          exact .rel i j (hold hi' hj' hR)
    | refl i => exact .refl _
    | symm i j _ ih => exact .symm _ _ ih
    | trans i k j _ _ ih₁ ih₂ => exact .trans _ _ _ ih₁ ih₂
  rw [if_neg hi, if_neg hj] at hmoved
  exact hmoved

/-- A class of at most `k` members, and one more. -/
theorem encard_le_succ {s t : Set α} {e : α} {k : ℕ} (hsub : s ⊆ insert e t)
    (ht : t.encard < k + 1) : s.encard ≤ k + 1 := by
  have hle : t.encard ≤ k := ENat.lt_add_one_iff (by simp) |>.1 ht
  calc s.encard ≤ (insert e t).encard := Set.encard_le_encard hsub
    _ ≤ t.encard + 1 := Set.encard_insert_le t e
    _ ≤ k + 1 := by gcongr

/-- The keys of the rows that `p` selects bound a set of keys of such rows. -/
theorem encard_le_length_filter {t : Table α} {p : ℕ → α → Bool} {s : Set ℕ}
    (hs : ∀ k ∈ s, ∃ a, t.get? k = some a ∧ p k a = true) :
    s.encard ≤ (t.filter p).length := by
  have hsub : s ⊆ ((t.filter p).map Prod.fst).toFinset := by
    intro k hk
    obtain ⟨a, ha, hp⟩ := hs k hk
    simpa using ⟨a, Table.mem_filter.2 ⟨ha, hp⟩⟩
  calc s.encard ≤ (((t.filter p).map Prod.fst).toFinset : Set ℕ).encard :=
        Set.encard_le_encard hsub
    _ = (((t.filter p).map Prod.fst).toFinset.card : ℕ) := Set.encard_coe_eq_coe_finsetCard _
    _ ≤ (t.filter p).length := by
        exact_mod_cast (List.toFinset_card_le _).trans (List.length_map ..).le

end Lib
