import Mathlib.MeasureTheory.Measure.Lebesgue.Basic
import Mathlib.MeasureTheory.Measure.Real

/-!
# Covered time

Spans of time with whole instants as their ends cover a set of the line. What they cover together has a
length, whatever the order of the spans and however they overlap.
-/

namespace Lib

open MeasureTheory Set

/-- What some spans cover. -/
def covered (spans : List (ℤ × ℤ)) : Set ℝ := {x | ∃ s ∈ spans, x ∈ Icc (s.1 : ℝ) (s.2 : ℝ)}

/-- The length of what some spans cover. -/
noncomputable def coverage (spans : List (ℤ × ℤ)) : ℝ := volume.real (covered spans)

@[simp] theorem covered_nil : covered [] = ∅ := by
  ext x
  simp [covered]

theorem covered_append (l l' : List (ℤ × ℤ)) : covered (l ++ l') = covered l ∪ covered l' := by
  ext x
  simp [covered, or_and_right, exists_or]

theorem covered_cons (s : ℤ × ℤ) (l : List (ℤ × ℤ)) :
    covered (s :: l) = Icc (s.1 : ℝ) (s.2 : ℝ) ∪ covered l := by
  ext x
  simp [covered]

theorem covered_mono {l l' : List (ℤ × ℤ)} (h : ∀ s ∈ l, s ∈ l') : covered l ⊆ covered l' := by
  rintro x ⟨s, hs, hx⟩
  exact ⟨s, h s hs, hx⟩

theorem covered_congr {l l' : List (ℤ × ℤ)} (h : ∀ s, s ∈ l ↔ s ∈ l') : covered l = covered l' :=
  (covered_mono fun s => (h s).1).antisymm (covered_mono fun s => (h s).2)

theorem volume_covered_ne_top (l : List (ℤ × ℤ)) : volume (covered l) ≠ ⊤ := by
  induction l with
  | nil => simp
  | cons s l ih =>
    rw [covered_cons]
    exact measure_union_ne_top (by simp) ih

theorem coverage_mono {l l' : List (ℤ × ℤ)} (h : ∀ s ∈ l, s ∈ l') : coverage l ≤ coverage l' :=
  measureReal_mono (covered_mono h) (volume_covered_ne_top l')

/-- Spans without a length cover nothing more. -/
theorem coverage_filter (l : List (ℤ × ℤ)) :
    coverage (l.filter fun s => s.1 < s.2) = coverage l := by
  have hae : covered (l.filter fun s => s.1 < s.2) =ᵐ[volume] covered l := by
    induction l with
    | nil => rfl
    | cons s l ih =>
      rw [covered_cons]
      by_cases hs : s.1 < s.2
      · rw [List.filter_cons_of_pos (by simp [hs]), covered_cons]
        exact (ae_eq_refl _).union ih
      · rw [List.filter_cons_of_neg (by simp [hs])]
        have hpoint : Icc (s.1 : ℝ) (s.2 : ℝ) =ᵐ[volume] (∅ : Set ℝ) := by
          rw [ae_eq_empty, Real.volume_Icc, ENNReal.ofReal_eq_zero, sub_nonpos]
          exact_mod_cast not_lt.1 hs
        exact ih.trans (by simpa using (hpoint.union (ae_eq_refl (covered l))).symm)
  exact measureReal_congr hae

/-- A span after all others adds its length. -/
theorem coverage_after {l : List (ℤ × ℤ)} {a b : ℤ} (hl : covered l ⊆ Iio (a : ℝ)) (hab : a ≤ b) :
    volume.real (covered l ∪ Icc (a : ℝ) (b : ℝ)) = coverage l + (b - a) := by
  have hdisjoint : Disjoint (covered l) (Icc (a : ℝ) (b : ℝ)) := by
    refine Set.disjoint_left.2 fun x hx hx' => ?_
    exact absurd (hl hx) (not_lt.2 hx'.1)
  rw [measureReal_union hdisjoint measurableSet_Icc (volume_covered_ne_top l) (by simp),
    Real.volume_real_Icc_of_le (by exact_mod_cast hab)]
  rfl

end Lib
