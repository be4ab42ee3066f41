import Mathlib.Algebra.Order.Ring.Int
import Mathlib.Tactic.Common

/-!
# The Gregorian calendar

Days are counted from 1 January 1970, before it with negative numbers, in the calendar as it is today
(proleptic). `dayNumber` takes a date whose month and day may lie outside their range, as date
arithmetic does; `civil` names a day. They are inverse to each other on the dates that exist
(`dayNumber_civil`, `civil_dayNumber`).
-/

namespace Lib.Calendar

/-- A year, a month from 1 and a day from 1; not every one is a day of the calendar. -/
structure Date where
  year : ℤ
  month : ℤ
  day : ℤ
  deriving DecidableEq, Repr

/-- A number in two digits at least. -/
def pad2 (n : ℤ) : String := if 0 ≤ n ∧ n ≤ 9 then "0" ++ toString n else toString n

/-- A date as it is written. -/
def Date.text (d : Date) : String := toString d.year ++ "-" ++ pad2 d.month ++ "-" ++ pad2 d.day

/-! ## Years -/

/-- 1 for a leap year. -/
def leapDay (y : ℤ) : ℤ := if y % 4 = 0 ∧ (y % 100 ≠ 0 ∨ y % 400 = 0) then 1 else 0

/-- The day number of the first of January. -/
def yearStart (y : ℤ) : ℤ := 365 * (y - 1970) + (y - 1) / 4 - (y - 1) / 100 + (y - 1) / 400 - 477

theorem leapDay_bounds (y : ℤ) : 0 ≤ leapDay y ∧ leapDay y ≤ 1 := by
  unfold leapDay
  split <;> omega

theorem yearStart_succ (y : ℤ) : yearStart (y + 1) = yearStart y + 365 + leapDay y := by
  unfold yearStart leapDay
  split <;> omega

theorem yearStart_le_of_le {y z : ℤ} (h : y ≤ z) : yearStart y ≤ yearStart z := by
  unfold yearStart
  omega

/-- The year of a day. A year has 146097 / 400 days on average, and the guess by it is off by one
at most. -/
def yearOf (n : ℤ) : ℤ :=
  let y := 1970 + 400 * n / 146097
  if n < yearStart y then y - 1 else if yearStart (y + 1) ≤ n then y + 1 else y

theorem yearOf_spec (n : ℤ) : yearStart (yearOf n) ≤ n ∧ n < yearStart (yearOf n + 1) := by
  have hlow : yearStart (1970 + 400 * n / 146097 - 1) ≤ n := by
    unfold yearStart
    omega
  have hhigh : n < yearStart (1970 + 400 * n / 146097 + 1 + 1) := by
    unfold yearStart
    omega
  unfold yearOf
  dsimp only
  split
  · next h => exact ⟨hlow, by rwa [sub_add_cancel]⟩
  · next h =>
    split
    · next h' => exact ⟨h', hhigh⟩
    · next h' => exact ⟨not_lt.1 h, not_le.1 h'⟩

/-- A day of a year is of that year. -/
theorem yearOf_eq {n y : ℤ} (h : yearStart y ≤ n) (h' : n < yearStart (y + 1)) : yearOf n = y := by
  obtain ⟨hle, hlt⟩ := yearOf_spec n
  rcases lt_trichotomy (yearOf n) y with hy | hy | hy
  · have := yearStart_le_of_le (show yearOf n + 1 ≤ y by omega)
    omega
  · exact hy
  · have := yearStart_le_of_le (show y + 1 ≤ yearOf n by omega)
    omega

theorem le_yearOf {n y : ℤ} : y ≤ yearOf n ↔ yearStart y ≤ n := by
  obtain ⟨hle, hlt⟩ := yearOf_spec n
  constructor
  · intro h
    exact (yearStart_le_of_le h).trans hle
  · intro h
    by_contra hy
    have := yearStart_le_of_le (show yearOf n + 1 ≤ y by omega)
    omega

/-! ## Months -/

/-- The days of a year before month `m`; `leap` is the year's `leapDay`. Months have 367 / 12 days on
average once February is given 30. -/
def monthStart (leap m : ℤ) : ℤ := (367 * m - 362) / 12 + if m ≤ 2 then 0 else leap - 2

/-- The days of a month. -/
def monthLength (y m : ℤ) : ℤ := monthStart (leapDay y) (m + 1) - monthStart (leapDay y) m

example : (List.range 12).map (fun m : ℕ => monthLength 2026 (m + 1)) =
    [31, 28, 31, 30, 31, 30, 31, 31, 30, 31, 30, 31] := by decide

/-- The month of the day `k` of a year, counted from 0. -/
def monthOf (leap k : ℤ) : ℤ := (12 * (k + if k < 59 + leap then 0 else 2 - leap) + 373) / 367

section Month

variable {leap k m : ℤ} (hleap : 0 ≤ leap ∧ leap ≤ 1)
include hleap

theorem monthOf_bounds (hk : 0 ≤ k) (hk' : k < 365 + leap) :
    1 ≤ monthOf leap k ∧ monthOf leap k ≤ 12 := by
  unfold monthOf
  split <;> omega

theorem monthOf_spec (hk : 0 ≤ k) (hk' : k < 365 + leap) :
    monthStart leap (monthOf leap k) ≤ k ∧ k < monthStart leap (monthOf leap k + 1) := by
  unfold monthOf
  split
  · unfold monthStart
    split <;> split <;> omega
  · unfold monthStart
    split <;> split <;> omega

/-- A day of a month is of that month. -/
theorem monthOf_eq (hm : 1 ≤ m) (hm' : m ≤ 12) (h : monthStart leap m ≤ k)
    (h' : k < monthStart leap (m + 1)) : monthOf leap k = m := by
  unfold monthStart at h h'
  unfold monthOf
  split at h <;> split at h' <;> split <;> omega

theorem monthStart_bounds (hm : 1 ≤ m) (hm' : m ≤ 13) :
    0 ≤ monthStart leap m ∧ monthStart leap m ≤ 365 + leap := by
  unfold monthStart
  split <;> omega

end Month

theorem monthLength_le {y m : ℤ} (hm : 1 ≤ m) (hm' : m ≤ 12) : monthLength y m ≤ 31 := by
  have hleap := leapDay_bounds y
  unfold monthLength monthStart
  split <;> split <;> omega

/-! ## Days -/

/-- The day number of a date. Months beyond the year go to other years, days beyond the month to
other months. -/
def dayNumber (year month day : ℤ) : ℤ :=
  let y := year + (month - 1) / 12
  yearStart y + monthStart (leapDay y) ((month - 1) % 12 + 1) + day - 1

/-- The date of a day. -/
def civil (n : ℤ) : Date :=
  let y := yearOf n
  let k := n - yearStart y
  let m := monthOf (leapDay y) k
  ⟨y, m, k - monthStart (leapDay y) m + 1⟩

/-- A day of the calendar. -/
structure Date.Valid (d : Date) : Prop where
  month : 1 ≤ d.month ∧ d.month ≤ 12
  day : 1 ≤ d.day ∧ d.day ≤ monthLength d.year d.month

theorem dayNumber_of_month {y m d : ℤ} (hm : 1 ≤ m) (hm' : m ≤ 12) :
    dayNumber y m d = yearStart y + monthStart (leapDay y) m + d - 1 := by
  have hdiv : (m - 1) / 12 = 0 := by omega
  have hmod : (m - 1) % 12 + 1 = m := by omega
  unfold dayNumber
  dsimp only
  rw [hdiv, hmod, add_zero]

/-- Days past the end of a month are counted on. -/
theorem dayNumber_add (y m d k : ℤ) : dayNumber y m (d + k) = dayNumber y m d + k := by
  unfold dayNumber
  dsimp only
  omega

/-- A month has days. -/
theorem dayNumber_lt_next_month (y m d : ℤ) : dayNumber y m d < dayNumber y (m + 1) d := by
  have hleap := leapDay_bounds (y + (m - 1) / 12)
  have hyear := yearStart_succ (y + (m - 1) / 12)
  unfold dayNumber
  dsimp only
  by_cases hlast : (m - 1) % 12 = 11
  · have hnext : y + (m + 1 - 1) / 12 = y + (m - 1) / 12 + 1 := by omega
    rw [hnext, hlast, show (m + 1 - 1) % 12 = 0 by omega]
    unfold monthStart
    split <;> split <;> omega
  · have hsame : y + (m + 1 - 1) / 12 = y + (m - 1) / 12 := by omega
    rw [hsame, show (m + 1 - 1) % 12 = (m - 1) % 12 + 1 by omega]
    unfold monthStart
    split <;> split <;> omega

theorem civil_year (n : ℤ) : (civil n).year = yearOf n := rfl

theorem civil_valid (n : ℤ) : (civil n).Valid := by
  have hleap := leapDay_bounds (yearOf n)
  obtain ⟨hle, hlt⟩ := yearOf_spec n
  rw [yearStart_succ] at hlt
  have hspec := monthOf_spec (k := n - yearStart (yearOf n)) hleap (by omega) (by omega)
  refine ⟨monthOf_bounds hleap (by omega) (by omega), ?_⟩
  unfold monthLength
  dsimp only [civil]
  omega

theorem dayNumber_civil (n : ℤ) : dayNumber (civil n).year (civil n).month (civil n).day = n := by
  obtain ⟨hm, hm'⟩ := (civil_valid n).month
  rw [dayNumber_of_month hm hm']
  dsimp only [civil]
  omega

theorem civil_dayNumber {d : Date} (h : d.Valid) : civil (dayNumber d.year d.month d.day) = d := by
  obtain ⟨y, m, d⟩ := d
  obtain ⟨hm, hm'⟩ := h.month
  obtain ⟨hd, hd'⟩ := h.day
  dsimp only at hm hm' hd hd' ⊢
  unfold monthLength at hd'
  have hleap := leapDay_bounds y
  have hfirst := monthStart_bounds hleap hm (by omega)
  have hlast := monthStart_bounds (m := m + 1) hleap (by omega) (by omega)
  rw [dayNumber_of_month hm hm']
  have hyear : yearOf (yearStart y + monthStart (leapDay y) m + d - 1) = y := by
    refine yearOf_eq (by omega) ?_
    rw [yearStart_succ]
    omega
  have hmonth : monthOf (leapDay y)
      (yearStart y + monthStart (leapDay y) m + d - 1 - yearStart y) = m :=
    monthOf_eq hleap hm hm' (by omega) (by omega)
  unfold civil
  dsimp only
  rw [hyear, hmonth]
  refine congrArg (Date.mk y m) ?_
  omega

end Lib.Calendar
