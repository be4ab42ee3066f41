import Mathlib.Algebra.BigOperators.Intervals
import Mathlib.Algebra.Order.BigOperators.Group.Finset
import Mathlib.Algebra.Order.Field.Rat
import Mathlib.Tactic.Positivity
import Barbershop.Lib.Calendar

/-!
# Months

Months are counted in one row, twelve to a year. The part of its month that a day is (`dayShare`) turns
what a stretch of days fills of each month into a sum over the days (`monthlyShare_eq`), which is split
where the stretch is.
-/

namespace Lib.Calendar

/-- The month of a day. -/
def monthIndex (n : ℤ) : ℤ := 12 * (civil n).year + (civil n).month - 1

/-- The first day of a month. -/
def monthFirst (k : ℤ) : ℤ := dayNumber 0 (k + 1) 1

/-- How many days a month has. -/
def monthDays (k : ℤ) : ℤ := monthFirst (k + 1) - monthFirst k

variable {a b c n k : ℤ}

theorem dayNumber_eq (y m d : ℤ) : dayNumber y m d = monthFirst (12 * y + m - 1) + d - 1 := by
  have hyear : 0 + (12 * y + m - 1 + 1 - 1) / 12 = y + (m - 1) / 12 := by omega
  have hmonth : (12 * y + m - 1 + 1 - 1) % 12 = (m - 1) % 12 := by omega
  unfold monthFirst dayNumber
  dsimp only
  rw [hyear, hmonth]
  omega

theorem monthFirst_lt_succ (k : ℤ) : monthFirst k < monthFirst (k + 1) :=
  dayNumber_lt_next_month 0 (k + 1) 1

theorem monthFirst_le_of_le {l : ℤ} (h : k ≤ l) : monthFirst k ≤ monthFirst l :=
  (strictMono_int_of_lt_succ monthFirst_lt_succ).monotone h

theorem monthDays_pos (k : ℤ) : 0 < monthDays k := sub_pos.2 (monthFirst_lt_succ k)

theorem monthFirst_monthIndex (n : ℤ) : monthFirst (monthIndex n) + (civil n).day - 1 = n := by
  conv_rhs => rw [← dayNumber_civil n, dayNumber_eq]
  rfl

theorem monthLength_eq (n : ℤ) :
    monthLength (civil n).year (civil n).month = monthDays (monthIndex n) := by
  obtain ⟨hm, hm'⟩ := (civil_valid n).month
  have hleap := leapDay_bounds (civil n).year
  have hyear := yearStart_succ (civil n).year
  have hfirst := dayNumber_of_month (y := (civil n).year) (d := 1) hm hm'
  rw [dayNumber_eq] at hfirst
  have hnext : monthFirst (monthIndex n + 1) =
      yearStart (civil n).year + monthStart (leapDay (civil n).year) ((civil n).month + 1) := by
    by_cases hlast : (civil n).month = 12
    · have hjan := dayNumber_of_month (y := (civil n).year + 1) (m := 1) (d := 1) (by decide)
        (by decide)
      rw [dayNumber_eq] at hjan
      have hindex : monthIndex n + 1 = 12 * ((civil n).year + 1) + 1 - 1 := by
        unfold monthIndex
        omega
      rw [hindex, hlast]
      unfold monthStart at *
      simp only [show ¬ (12 + 1 : ℤ) ≤ 2 by decide, show (1 : ℤ) ≤ 2 by decide, if_true,
        if_false] at *
      omega
    · have hmonth := dayNumber_of_month (y := (civil n).year) (m := (civil n).month + 1) (d := 1)
        (by omega) (by omega)
      rw [dayNumber_eq] at hmonth
      have hindex : monthIndex n + 1 = 12 * (civil n).year + ((civil n).month + 1) - 1 := by
        unfold monthIndex
        omega
      rw [hindex]
      omega
  unfold monthLength monthDays
  rw [hnext]
  unfold monthIndex
  omega

theorem monthFirst_le_iff : monthFirst k ≤ n ↔ k ≤ monthIndex n := by
  have hday := monthFirst_monthIndex n
  obtain ⟨hlow, hhigh⟩ := (civil_valid n).day
  rw [monthLength_eq] at hhigh
  unfold monthDays at hhigh
  constructor
  · intro h
    by_contra hlt
    have := monthFirst_le_of_le (show monthIndex n + 1 ≤ k by omega)
    omega
  · intro h
    have := monthFirst_le_of_le h
    omega

theorem lt_monthFirst_iff : n < monthFirst k ↔ monthIndex n < k := by
  rw [← not_le, monthFirst_le_iff, not_le]

theorem monthIndex_eq_iff : monthIndex n = k ↔ monthFirst k ≤ n ∧ n < monthFirst (k + 1) := by
  rw [monthFirst_le_iff, lt_monthFirst_iff]
  omega

/-! ## Shares of months -/

/-- How many days there are from `a` to `b`. -/
def dayCount (a b : ℤ) : ℕ := (b + 1 - a).toNat

/-- What the days from `a` to `b` fill of each month, summed over the months. -/
def monthlyShare (a b : ℤ) : ℚ :=
  ∑ j ∈ Finset.range (monthIndex b + 1 - monthIndex a).toNat,
    (((Finset.range (dayCount a b)).filter fun i : ℕ =>
      monthIndex (a + i) = monthIndex a + j).card : ℚ) / monthDays (monthIndex a + j)

/-- The part of its month that a day is. -/
def dayShare (n : ℤ) : ℚ := 1 / monthDays (monthIndex n)

theorem dayShare_pos (n : ℤ) : 0 < dayShare n := by
  have hdays : (0 : ℚ) < monthDays (monthIndex n) := by exact_mod_cast monthDays_pos _
  unfold dayShare
  positivity

theorem dayShare_eq_iff {m : ℤ} :
    dayShare m = dayShare n ↔ monthDays (monthIndex m) = monthDays (monthIndex n) := by
  unfold dayShare
  rw [one_div, one_div, inv_inj]
  exact Int.cast_inj

theorem monthlyShare_eq (a b : ℤ) :
    monthlyShare a b = ∑ i ∈ Finset.range (dayCount a b), dayShare (a + i) := by
  have hmonths : ∀ i ∈ Finset.range (dayCount a b), (monthIndex (a + i) - monthIndex a).toNat ∈
      Finset.range (monthIndex b + 1 - monthIndex a).toNat := by
    intro i hi
    rw [Finset.mem_range] at hi ⊢
    unfold dayCount at hi
    have hfirst := monthFirst_le_iff.2 (le_refl (monthIndex a))
    have hlast := monthFirst_le_iff.2 (le_refl (monthIndex (a + i)))
    have hlow : monthIndex a ≤ monthIndex (a + i) := monthFirst_le_iff.1 (by omega)
    have hhigh : monthIndex (a + i) ≤ monthIndex b := monthFirst_le_iff.1 (by omega)
    omega
  rw [monthlyShare, ← Finset.sum_fiberwise_of_maps_to hmonths]
  refine Finset.sum_congr rfl fun j _ => ?_
  have hmonth : ∀ i ∈ Finset.range (dayCount a b),
      (monthIndex (a + (i : ℕ)) = monthIndex a + j ↔
        (monthIndex (a + i) - monthIndex a).toNat = j) := by
    intro i _
    have hfirst := monthFirst_le_iff.2 (le_refl (monthIndex a))
    have hlow : monthIndex a ≤ monthIndex (a + i) := monthFirst_le_iff.1 (by omega)
    omega
  have hshare : ∀ i ∈ (Finset.range (dayCount a b)).filter fun i : ℕ =>
      monthIndex (a + i) = monthIndex a + j,
      dayShare (a + i) = 1 / monthDays (monthIndex a + j) := by
    intro i hi
    rw [dayShare, (Finset.mem_filter.1 hi).2]
  rw [← Finset.filter_congr hmonth, Finset.sum_congr rfl hshare, Finset.sum_const, nsmul_eq_mul,
    mul_one_div]

theorem monthlyShare_of_lt (h : b < a) : monthlyShare a b = 0 := by
  have hnone : dayCount a b = 0 := by
    unfold dayCount
    omega
  rw [monthlyShare_eq, hnone, Finset.range_zero, Finset.sum_empty]

/-- Two stretches of days, one after the other, have the share of both together. -/
theorem monthlyShare_split (hac : a ≤ c + 1) (hcb : c ≤ b) :
    monthlyShare a c + monthlyShare (c + 1) b = monthlyShare a b := by
  have hcount : dayCount a b = dayCount a c + dayCount (c + 1) b := by
    unfold dayCount
    omega
  have htail : ∀ i ∈ Finset.range (dayCount (c + 1) b),
      dayShare (c + 1 + (i : ℕ)) = dayShare (a + ((dayCount a c + i : ℕ) : ℤ)) := by
    intro i _
    refine congrArg dayShare ?_
    unfold dayCount
    omega
  rw [monthlyShare_eq, monthlyShare_eq, monthlyShare_eq, hcount, Finset.sum_range_add,
    Finset.sum_congr rfl htail]

theorem monthlyShare_self (n : ℤ) : monthlyShare n n = dayShare n := by
  have hone : dayCount n n = 1 := by
    unfold dayCount
    omega
  rw [monthlyShare_eq, hone, Finset.sum_range_one, Int.natCast_zero, add_zero]

theorem monthlyShare_first (h : a ≤ b) :
    monthlyShare a b = dayShare a + monthlyShare (a + 1) b := by
  rw [← monthlyShare_split (by omega) h, monthlyShare_self]

theorem monthlyShare_last (h : a ≤ b) :
    monthlyShare a b = monthlyShare a (b - 1) + dayShare b := by
  rw [← monthlyShare_split (c := b - 1) (by omega) (by omega), sub_add_cancel, monthlyShare_self]

theorem monthlyShare_mono (h : c ≤ b) : monthlyShare a c ≤ monthlyShare a b := by
  rw [monthlyShare_eq, monthlyShare_eq]
  refine Finset.sum_le_sum_of_subset_of_nonneg (Finset.range_subset_range.2 ?_)
    fun i _ _ => (dayShare_pos _).le
  unfold dayCount
  omega

/-- Days of one month. -/
theorem monthlyShare_of_month (hab : a ≤ b + 1) (ha : monthFirst k ≤ a)
    (hb : b < monthFirst (k + 1)) : monthlyShare a b = ((b - a + 1 : ℤ) : ℚ) / monthDays k := by
  have hshare : ∀ i ∈ Finset.range (dayCount a b), dayShare (a + (i : ℕ)) = 1 / monthDays k := by
    intro i hi
    rw [Finset.mem_range] at hi
    unfold dayCount at hi
    have hmonth : monthIndex (a + i) = k := monthIndex_eq_iff.2 ⟨by omega, by omega⟩
    rw [dayShare, hmonth]
  have hcount : ((dayCount a b : ℕ) : ℚ) = (b - a + 1 : ℤ) := by
    rw [dayCount, ← Int.cast_natCast, Int.toNat_of_nonneg (by omega)]
    congr 1
    omega
  rw [monthlyShare_eq, Finset.sum_congr rfl hshare, Finset.sum_const, nsmul_eq_mul, mul_one_div,
    Finset.card_range, hcount]

end Lib.Calendar
