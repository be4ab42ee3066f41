import Mathlib.Data.List.Perm.Subperm
import Mathlib.Data.List.Nodup
import Mathlib.Data.List.Sort

/-!
# The latest of some dated records

Records with distinct dates, newest first. Which of them are among the first `n` is a matter of how many
are later, and two lists have the same first `n` exactly when what is early enough in one is in the
other and what is in the other only comes late enough (`latest_eq_iff`).
-/

namespace Lib

section Latest

variable {α β : Type*} [LinearOrder β] (date : α → β)

/-- How many records are later than a date. -/
def later (records : List α) (d : β) : ℕ := records.countP fun r => d < date r

def newestFirst (records : List α) : List α := records.insertionSort fun a b => date b ≤ date a

variable {date} {records others : List α}

theorem mem_newestFirst {r : α} : r ∈ newestFirst date records ↔ r ∈ records := List.mem_insertionSort _

theorem newestFirst_length : (newestFirst date records).length = records.length :=
  List.length_insertionSort _ _

theorem later_newestFirst (d : β) : later date (newestFirst date records) d = later date records d :=
  (List.perm_insertionSort _ _).countP_eq _

theorem newestFirst_pairwise (h : (records.map date).Nodup) :
    (newestFirst date records).Pairwise fun a b => date b < date a := by
  have hsorted : (newestFirst date records).Pairwise fun a b => date b ≤ date a := by
    have htotal : Std.Total fun a b => date b ≤ date a := ⟨fun a b => le_total (date b) (date a)⟩
    have htrans : IsTrans α fun a b => date b ≤ date a := ⟨fun _ _ _ hab hbc => hbc.trans hab⟩
    exact List.pairwise_insertionSort _ _
  have hdistinct : (newestFirst date records).Pairwise fun a b => date a ≠ date b := by
    have hnodup : ((newestFirst date records).map date).Nodup :=
      ((List.perm_insertionSort _ _).map date).nodup_iff.2 h
    exact List.pairwise_map.1 hnodup
  exact (hsorted.and hdistinct).imp fun hab => lt_of_le_of_ne hab.1 (Ne.symm hab.2)

/-- In the order of dates, the records before one are those that are later. -/
theorem later_at {before after : List α} {r : α}
    (h : (before ++ r :: after).Pairwise fun a b => date b < date a) :
    later date (before ++ r :: after) (date r) = before.length := by
  obtain ⟨-, hafter, hbetween⟩ := List.pairwise_append.1 h
  have hall : before.countP (fun x => date r < date x) = before.length :=
    List.countP_eq_length.2 fun x hx => decide_eq_true (hbetween x hx r List.mem_cons_self)
  have hnone : (r :: after).countP (fun x => date r < date x) = 0 := by
    refine List.countP_eq_zero.2 fun x hx => ?_
    rw [decide_eq_true_eq, not_lt]
    rcases List.mem_cons.1 hx with rfl | hx
    · exact le_rfl
    · exact ((List.pairwise_cons.1 hafter).1 x hx).le
  rw [later, List.countP_append, hall, hnone, Nat.add_zero]

/-- No fewer are later than a record than stand before it. -/
theorem idxOf_le_later [DecidableEq α] (h : records.Pairwise fun a b => date b < date a) {r : α}
    {n : ℕ} (hr : r ∈ records.take n) :
    records.idxOf r ≤ later date (records.take n) (date r) := by
  obtain ⟨before, after, hsplit⟩ := List.append_of_mem hr
  have hwhole : records = before ++ r :: (after ++ records.drop n) := by
    conv_lhs => rw [← List.take_append_drop n records, hsplit]
    simp
  have hsorted : (before ++ r :: after).Pairwise fun a b => date b < date a :=
    hsplit ▸ h.sublist (List.take_sublist n records)
  rw [hsplit, later_at hsorted]
  conv_lhs => rw [hwhole]
  rw [List.idxOf_append]
  split
  next hmem => exact (List.idxOf_lt_length_of_mem hmem).le
  next => simp

/-- A record is among the first ones when few are later. -/
theorem mem_take_newestFirst (h : (records.map date).Nodup) {r : α} {n : ℕ} :
    r ∈ (newestFirst date records).take n ↔ r ∈ records ∧ later date records (date r) < n := by
  have hsorted := newestFirst_pairwise h
  constructor
  · intro hr
    obtain ⟨before, after, hsplit⟩ := List.append_of_mem hr
    have hwhole : newestFirst date records =
        before ++ r :: (after ++ (newestFirst date records).drop n) := by
      conv_lhs => rw [← List.take_append_drop n (newestFirst date records), hsplit]
      simp
    refine ⟨mem_newestFirst.1 (List.mem_of_mem_take hr), ?_⟩
    rw [← later_newestFirst, hwhole, later_at (hwhole ▸ hsorted)]
    have hlength := congrArg List.length hsplit
    simp only [List.length_append, List.length_cons, List.length_take] at hlength
    omega
  · rintro ⟨hr, hlater⟩
    have hin : r ∈ newestFirst date records := mem_newestFirst.2 hr
    obtain ⟨before, after, hsplit⟩ := List.append_of_mem hin
    rw [← later_newestFirst, hsplit, later_at (hsplit ▸ hsorted)] at hlater
    rw [hsplit]
    obtain ⟨k, rfl⟩ := Nat.exists_eq_add_of_lt hlater
    rw [Nat.add_assoc, List.take_length_add_append]
    exact List.mem_append_right _ List.mem_cons_self

theorem later_mono (records : List α) {d d' : β} (h : d ≤ d') :
    later date records d' ≤ later date records d := by
  refine List.countP_mono_left fun r _ hr => ?_
  rw [decide_eq_true_eq] at hr ⊢
  exact h.trans_lt hr

/-- With so many later than a date, the first ones are. -/
theorem lt_date_of_le_later (h : (records.map date).Nodup) {d : β} {n : ℕ}
    (hn : n ≤ later date records d) {r : α} (hr : r ∈ (newestFirst date records).take n) :
    d < date r := by
  by_contra hlate
  have hfew := ((mem_take_newestFirst h).1 hr).2
  have hmono : later date records d ≤ later date records (date r) :=
    later_mono records (not_lt.1 hlate)
  omega

/-- Records later than a date, among others. -/
theorem length_le_later {l : List α} (hl : l.Nodup) {d : β}
    (h : ∀ r ∈ l, r ∈ others ∧ d < date r) : l.length ≤ later date others d := by
  rw [later, List.countP_eq_length_filter]
  refine (List.subperm_of_subset hl fun r hr => ?_).length_le
  exact List.mem_filter.2 ⟨(h r hr).1, decide_eq_true (h r hr).2⟩

/-- So many of the first ones, later than a date, are so many among others. -/
theorem le_later_of_take (h : (records.map date).Nodup) {d : β} {n : ℕ}
    (hn : n ≤ later date records d)
    (hothers : ∀ r ∈ (newestFirst date records).take n, r ∈ others) : n ≤ later date others d := by
  have hnodup : ((newestFirst date records).take n).Nodup :=
    ((List.perm_insertionSort _ _).nodup_iff.2 (List.Nodup.of_map _ h)).sublist (List.take_sublist _ _)
  have hlength : ((newestFirst date records).take n).length = n := by
    rw [List.length_take, newestFirst_length, Nat.min_eq_left]
    exact hn.trans List.countP_le_length
  have hle : _ ≤ later date others d :=
    length_le_later hnodup fun r hr => ⟨hothers r hr, lt_date_of_le_later h hn hr⟩
  omega

/-- Two lists have the same first records exactly when those of the second are in the first, and what
only the first has comes after so many of the second. -/
theorem latest_eq_iff (h : (records.map date).Nodup) (h' : (others.map date).Nodup) {n : ℕ} :
    (newestFirst date records).take n = (newestFirst date others).take n ↔
      (∀ r ∈ others, later date others (date r) < n → r ∈ records) ∧
        ∀ r ∈ records, r ∉ others → n ≤ later date others (date r) := by
  constructor
  · intro heq
    have hsub : ∀ r ∈ (newestFirst date records).take n, r ∈ others := fun r hr =>
      ((mem_take_newestFirst h').1 (heq ▸ hr)).1
    refine ⟨fun r hr hfew => ?_, fun r hr hout => ?_⟩
    · exact ((mem_take_newestFirst h).1 (heq ▸ (mem_take_newestFirst h').2 ⟨hr, hfew⟩)).1
    · refine le_later_of_take h ?_ hsub
      by_contra hfew
      exact hout (hsub r ((mem_take_newestFirst h).2 ⟨hr, not_le.1 hfew⟩))
  · rintro ⟨hin, hout⟩
    have hsub : ∀ r ∈ (newestFirst date others).take n, r ∈ records := fun r hr =>
      hin r ((mem_take_newestFirst h').1 hr).1 ((mem_take_newestFirst h').1 hr).2
    have hmem : ∀ r, r ∈ (newestFirst date records).take n ↔ r ∈ (newestFirst date others).take n := by
      intro r
      rw [mem_take_newestFirst h, mem_take_newestFirst h']
      constructor
      · rintro ⟨hr, hfew⟩
        by_contra hnot
        have hmany : n ≤ later date others (date r) := by
          by_cases ho : r ∈ others
          · exact not_lt.1 fun hlt => hnot ⟨ho, hlt⟩
          · exact hout r hr ho
        have hle := le_later_of_take h' hmany hsub
        omega
      · rintro ⟨hr, hfew⟩
        refine ⟨hin r hr hfew, lt_of_le_of_lt ?_ hfew⟩
        have hnodup : (records.filter fun x => date r < date x).Nodup :=
          (List.Nodup.of_map _ h).filter _
        have hle : (records.filter fun x => date r < date x).length ≤ later date others (date r) := by
          refine length_le_later hnodup fun x hx => ?_
          obtain ⟨hx, hlt⟩ := List.mem_filter.1 hx
          rw [decide_eq_true_eq] at hlt
          refine ⟨?_, hlt⟩
          by_contra ho
          have hmono : later date others (date x) ≤ later date others (date r) :=
            later_mono others hlt.le
          have hmany := hout x hx ho
          omega
        rwa [later, List.countP_eq_length_filter]
    have hperm : ((newestFirst date records).take n).Perm ((newestFirst date others).take n) := by
      refine (List.perm_ext_iff_of_nodup ?_ ?_).2 hmem
      · exact ((List.perm_insertionSort _ _).nodup_iff.2 (List.Nodup.of_map _ h)).sublist
          (List.take_sublist _ _)
      · exact ((List.perm_insertionSort _ _).nodup_iff.2 (List.Nodup.of_map _ h')).sublist
          (List.take_sublist _ _)
    refine hperm.eq_of_pairwise (fun a b _ _ hab hba => absurd hab hba.asymm)
      ((newestFirst_pairwise h).sublist (List.take_sublist _ _))
      ((newestFirst_pairwise h').sublist (List.take_sublist _ _))

end Latest

end Lib
