import Barbershop.Core.Timezone

/-!
# Days of a unit's calendar

What a wall time read from an instant gives back (`wall_clock_round_trip`), and when the ranges between
local midnights hold the instants of their dates (`local_days_tile_iff`).
-/

namespace Barbershop

open Lib Calendar LocalTime

variable {z : Zone} {t n : ℤ}

/-! ## Round trip -/

/-- The wall times at least two days within the years that `Date.UTC` reads as written. -/
def Legible (w : ℤ) : Prop := YEAR_100 + 172800000 ≤ w ∧ w ≤ 8639999827200000

instance (w : ℤ) : Decidable (Legible w) :=
  inferInstanceAs (Decidable (YEAR_100 + 172800000 ≤ w ∧ w ≤ 8639999827200000))

theorem Legible.ofOurEra (h : Legible (z.wall t)) : OfOurEra z t := by
  have hlow := h.1
  have hyear : 100 ≤ (civil (z.localDay t)).year := year_100_le.2 (by omega)
  unfold OfOurEra
  omega

/-- `zonedTimeToUtc` of what the clocks show at an instant. -/
theorem zonedTimeToUtc_toZonedParts (h : Legible (z.wall t)) :
    zonedTimeToUtc (toZonedParts t z).dateStr (toZonedParts t z).minutesOfDay z =
      some (z.instant (z.wall t / 60000 * 60000)) := by
  obtain ⟨hlow, hhigh⟩ := h
  have hyear : 100 ≤ (civil (z.localDay t)).year := year_100_le.2 (by omega)
  have hminutes := toZonedParts_minutesOfDay z t
  have hoff := z.bounds (z.wall t / 60000 * 60000)
  have hoff' := z.bounds (z.wall t / 60000 * 60000 - z.offset (z.wall t / 60000 * 60000))
  unfold YEAR_100 at hlow
  rw [toZonedParts_dateStr (Legible.ofOurEra ⟨hlow, hhigh⟩)]
  refine zonedTimeToUtc_eq ?_ ?_ ?_ ?_ (by omega)
  · rw [fullYear_of_le hyear, dayNumber_civil]
    unfold Zone.localDay day
    omega
  · unfold YEAR_100
    omega
  · unfold Zone.wall YEAR_100 at *
    omega
  · unfold Zone.wall YEAR_100 at *
    omega

theorem wall_clock_round_trip (z : Zone) (t : ℤ) (hminute : z.wall t % 60000 = 0)
    (hlegible : Legible (z.wall t)) :
    ∃ t', zonedTimeToUtc (toZonedParts t z).dateStr (toZonedParts t z).minutesOfDay z = some t' ∧
      toZonedParts t' z = toZonedParts t z ∧
      ((∀ u, z.wall u % 60000 = 0 → OfOurEra z u → toZonedParts u z = toZonedParts t z → u = t) →
        t' = t) := by
  have hwhole : z.wall t / 60000 * 60000 = z.wall t := by omega
  have hshown := z.wall_instant t
  have hera' : OfOurEra z (z.instant (z.wall t)) :=
    Legible.ofOurEra (by rw [hshown]; exact hlegible)
  have hparts : toZonedParts (z.instant (z.wall t)) z = toZonedParts t z :=
    (toZonedParts_eq_iff hlegible.ofOurEra hera').2 (by rw [hshown])
  refine ⟨z.instant (z.wall t), ?_, hparts, ?_⟩
  · rw [zonedTimeToUtc_toZonedParts hlegible, hwhole]
  · intro honce
    exact honce _ (by rw [hshown]; exact hminute) hera' hparts

/-- A zone three hours behind UTC. -/
def threeBehind : Zone := .constant (-10800000) (by decide) (by decide)

theorem round_trip_threeBehind :
    ∃ t', zonedTimeToUtc (toZonedParts 1790337600000 threeBehind).dateStr
        (toZonedParts 1790337600000 threeBehind).minutesOfDay threeBehind = some t' ∧
      toZonedParts t' threeBehind = toZonedParts 1790337600000 threeBehind ∧
      ((∀ u, threeBehind.wall u % 60000 = 0 → OfOurEra threeBehind u →
        toZonedParts u threeBehind = toZonedParts 1790337600000 threeBehind → u = 1790337600000) →
        t' = 1790337600000) :=
  wall_clock_round_trip threeBehind 1790337600000 (by decide) (by decide)

/-- Local mean time of São Paulo, 3 h 6 min 28 s behind UTC. -/
def localMeanTime : Zone := .constant (-11188000) (by decide) (by decide)

/-- 29 February 1972 at 12:00 is the one whole minute of UTC at which the clocks show 08:53 of that day,
and half a minute is lost on the way back; a date of the year 50 comes back in 1950. -/
theorem minute_not_regained :
    ((∀ u, u % 60000 = 0 → toZonedParts u localMeanTime = toZonedParts 68212800000 localMeanTime →
        u = 68212800000) ∧
      zonedTimeToUtc (toZonedParts 68212800000 localMeanTime).dateStr
        (toZonedParts 68212800000 localMeanTime).minutesOfDay localMeanTime = some 68212768000) ∧
    ∃ t', zonedTimeToUtc (toZonedParts (-60576336000000) threeBehind).dateStr
        (toZonedParts (-60576336000000) threeBehind).minutesOfDay threeBehind = some t' ∧
      (toZonedParts (-60576336000000) threeBehind).dateStr.year = 50 ∧
      (toZonedParts t' threeBehind).dateStr.year = 1950 := by
  refine ⟨⟨?_, by decide +kernel⟩, ?_⟩
  · intro u hu heq
    by_cases hera : OfOurEra localMeanTime u
    · have hsame := (toZonedParts_eq_iff (by decide) hera).1 heq
      have hwall : localMeanTime.wall u = u - 11188000 := rfl
      have hwall' : localMeanTime.wall 68212800000 / 60000 = 1136693 := by decide
      omega
    · -- the year 1971 before our era, which prints as this one, has no 29 February
      have hdate := congrArg ZonedParts.dateStr heq
      have hdate' : (toZonedParts 68212800000 localMeanTime).dateStr = ⟨1972, 2, 29⟩ := by
        decide +kernel
      have hvalid := civil_valid (localMeanTime.localDay u)
      unfold OfOurEra at hera
      rw [hdate'] at hdate
      unfold toZonedParts formatToParts at hdate
      dsimp only at hdate
      rw [if_pos (by omega), Date.mk.injEq] at hdate
      obtain ⟨hyear, hmonth, hday⟩ := hdate
      have hlength := hvalid.day.2
      rw [hmonth, hday, show (civil (localMeanTime.localDay u)).year = -1971 by omega] at hlength
      exact absurd hlength (by decide)
  · exact ⟨-618192000000, by decide +kernel, by decide +kernel, by decide +kernel⟩

/-! ## Ranges between midnights -/

/-- The first of January of the year 100, as a day. -/
def FIRST_DAY : ℤ := -683003

/-- The last day whose date text has a year of four digits. -/
def LAST_DAY : ℤ := 2932896

/-- `dayStart` and `dayEnd`: a date from its midnight to the next one. -/
def dayRangeUtc (dateStr : Date) (timeZone : Zone) : Option (ℤ × ℤ) := do
  let dayStart ← zonedTimeToUtc dateStr 0 timeZone
  let dayEnd ← zonedTimeToUtc (← nextDateStr dateStr) 0 timeZone
  return (dayStart, dayEnd)

/-- An instant lies between the midnights of the date it is given. -/
def InItsDay (z : Zone) (t : ℤ) : Prop :=
  ∃ r ∈ dayRangeUtc (toZonedParts t z).dateStr z, r.1 ≤ t ∧ t < r.2

/-- A range holds exactly the instants of the dates from `a` to the day before `b`. -/
def HoldsDays (z : Zone) (a b : ℤ) (range : ℤ → Prop) : Prop :=
  ∀ t, OfOurEra z t →
    (range t ↔ ∃ n, a ≤ n ∧ n < b ∧ (toZonedParts t z).dateStr = civil n)

/-- The instant of a midnight parts the instants of the days before it from the others. -/
def MidnightSharp (z : Zone) (n : ℤ) : Prop :=
  ¬ z.Late (n * 86400000) ∧ ¬ z.Early (n * 86400000)

theorem firstDay_le : FIRST_DAY ≤ n ↔ 100 ≤ (civil n).year := by
  rw [civil_year, le_yearOf]
  rfl

theorem lastDay_lt : LAST_DAY < n ↔ 9999 < (civil n).year := by
  rw [← Int.add_one_le_iff (b := (civil n).year), civil_year, le_yearOf]
  unfold LAST_DAY
  norm_num [yearStart]
  omega

theorem isoDate_day (hn : FIRST_DAY ≤ n) (hn' : n ≤ LAST_DAY) :
    isoDate (n * 86400000) = some (civil n) := by
  have hfirst := firstDay_le.1 hn
  have hlast := lastDay_lt.not.1 (not_lt.2 hn')
  unfold isoDate
  rw [Int.mul_ediv_cancel _ (by decide)]
  dsimp only
  rw [if_neg hlast, if_neg (by omega)]

theorem nextDateStr_civil (hn : FIRST_DAY ≤ n) :
    nextDateStr (civil n) = if n < LAST_DAY then some (civil (n + 1)) else none := by
  have hyear := firstDay_le.1 hn
  unfold nextDateStr dateUTC
  rw [fullYear_of_le hyear, sub_add_cancel, dayNumber_add, dayNumber_civil]
  simp only [zero_mul, add_zero]
  split
  · next h =>
    unfold FIRST_DAY at hn
    have hlast := h
    unfold LAST_DAY at hlast
    rw [timeClip, if_pos (by omega)]
    exact isoDate_day (by unfold FIRST_DAY; omega) h
  · next h =>
    unfold timeClip
    split
    · show isoDate ((n + 1) * 86400000) = none
      unfold isoDate
      rw [Int.mul_ediv_cancel _ (by decide)]
      exact if_pos (lastDay_lt.1 (by omega))
    · rfl

theorem dayRangeUtc_start {date : Date} {r : ℤ × ℤ} (h : r ∈ dayRangeUtc date z) :
    zonedTimeToUtc date 0 z = some r.1 := by
  obtain ⟨start, hstart, h⟩ := Option.bind_eq_some_iff.1 h
  obtain ⟨next, -, h⟩ := Option.bind_eq_some_iff.1 h
  obtain ⟨finish, -, h⟩ := Option.bind_eq_some_iff.1 h
  rw [hstart, ← Option.some.inj h]

section Steps

variable (hz : z.StepsWithin 7200000)
include hz

theorem zonedTimeToUtc_minute {m : ℤ} (date : Date) (hn : FIRST_DAY < n) (hn' : n ≤ 99999997)
    (hdate : dayNumber (fullYear date.year) date.month date.day = n) (hm : 0 ≤ m) (hm' : m < 1440) :
    zonedTimeToUtc date m z = some (z.instant (n * 86400000 + m * 60000)) := by
  have hoff := z.bounds (n * 86400000 + m * 60000)
  have hnear := Zone.offset_near hz (w := n * 86400000 + m * 60000)
    (t := n * 86400000 + m * 60000 - z.offset (n * 86400000 + m * 60000)) (by omega) (by omega)
  unfold FIRST_DAY at hn
  refine zonedTimeToUtc_eq ?_ ?_ ?_ ?_ (by omega)
  · rw [hdate]
  · unfold YEAR_100
    omega
  · unfold Zone.wall YEAR_100
    omega
  · unfold Zone.wall YEAR_100
    omega

theorem zonedTimeToUtc_midnight (date : Date) (hn : FIRST_DAY < n) (hn' : n ≤ 99999997)
    (hdate : dayNumber (fullYear date.year) date.month date.day = n) :
    zonedTimeToUtc date 0 z = some (z.instant (n * 86400000)) := by
  have hminute := zonedTimeToUtc_minute hz date hn hn' hdate le_rfl (by decide)
  rwa [zero_mul, add_zero] at hminute

theorem zonedTimeToUtc_civil_minute {m : ℤ} (hn : FIRST_DAY < n) (hn' : n ≤ 99999997) (hm : 0 ≤ m)
    (hm' : m < 1440) :
    zonedTimeToUtc (civil n) m z = some (z.instant (n * 86400000 + m * 60000)) :=
  zonedTimeToUtc_minute hz _ hn hn' (by rw [fullYear_of_le (firstDay_le.1 hn.le), dayNumber_civil])
    hm hm'

theorem zonedTimeToUtc_civil (hn : FIRST_DAY < n) (hn' : n ≤ 99999997) :
    zonedTimeToUtc (civil n) 0 z = some (z.instant (n * 86400000)) :=
  zonedTimeToUtc_midnight hz _ hn hn' (by
    rw [fullYear_of_le (firstDay_le.1 hn.le), dayNumber_civil])

/-- Noon of every day is shown, give or take two hours. -/
theorem exists_localDay (n : ℤ) : ∃ t, z.localDay t = n := by
  have hnoon := Zone.wall_instant_near hz (n * 86400000 + 43200000)
  exact ⟨z.instant (n * 86400000 + 43200000), localDay_eq_iff.2 ⟨by omega, by omega⟩⟩

theorem dayRangeUtc_civil (hn : FIRST_DAY < n) : dayRangeUtc (civil n) z =
    if n < LAST_DAY then some (z.instant (n * 86400000), z.instant ((n + 1) * 86400000))
    else none := by
  unfold dayRangeUtc
  rw [nextDateStr_civil hn.le]
  split
  · next h =>
    unfold LAST_DAY at h
    rw [zonedTimeToUtc_civil hz hn (by omega)]
    simp only [Option.bind_eq_bind, Option.bind_some]
    rw [zonedTimeToUtc_civil hz (by omega) (by omega)]
    rfl
  · cases zonedTimeToUtc (civil n) 0 z <;> rfl

/-- Dates of the years 1 to 99 are looked for in the 20th century. -/
theorem not_inItsDay_of_lt (ht : OfOurEra z t) (hn : z.localDay t < FIRST_DAY) : ¬ InItsDay z t := by
  have hyear : ¬ 100 ≤ (civil (z.localDay t)).year := by
    rw [← firstDay_le]
    omega
  have hvalid := civil_valid (z.localDay t)
  have hspec := (yearOf_spec (z.localDay t)).2
  have hday := localDay_eq_iff.1 (rfl : z.localDay t = z.localDay t)
  have hnear := z.wall_near t
  unfold OfOurEra at ht
  rintro ⟨r, hr, hle, -⟩
  rw [toZonedParts_dateStr ht] at hr
  have hfull : fullYear (civil (z.localDay t)).year = 1900 + (civil (z.localDay t)).year := by
    unfold fullYear
    exact if_pos (by omega)
  have hleap := leapDay_bounds (1900 + (civil (z.localDay t)).year)
  have hmonth := monthStart_bounds hleap hvalid.month.1 (by have := hvalid.month.2; omega)
  have hlength := monthLength_le (y := (civil (z.localDay t)).year) hvalid.month.1 hvalid.month.2
  have hnumber := dayNumber_of_month (y := 1900 + (civil (z.localDay t)).year)
    (d := (civil (z.localDay t)).day) hvalid.month.1 hvalid.month.2
  rw [← civil_year] at hspec
  obtain ⟨hday₁, hday₂⟩ := hvalid.day
  unfold yearStart at hspec hnumber
  unfold FIRST_DAY at hn
  have hstart := zonedTimeToUtc_midnight hz (civil (z.localDay t))
    (n := dayNumber (1900 + (civil (z.localDay t)).year) _ _) (by unfold FIRST_DAY; omega)
    (by omega) (congrArg (dayNumber · _ _) hfull)
  have hr := Option.some.inj (hstart.symm.trans (dayRangeUtc_start hr))
  have hmidnight := z.instant_near
    (dayNumber (1900 + (civil (z.localDay t)).year) (civil (z.localDay t)).month
      (civil (z.localDay t)).day * 86400000)
  omega

/-- The range of a month is that between two midnights. -/
theorem monthRangeUtc_eq {y m : ℤ} (hy : 100 ≤ y) (hfirst : FIRST_DAY < dayNumber y m 1)
    (hlast : dayNumber y (m + 1) 1 ≤ LAST_DAY) : monthRangeUtc y m z =
      some (z.instant (dayNumber y m 1 * 86400000),
        z.instant (dayNumber y (m + 1) 1 * 86400000)) := by
  have hlt := dayNumber_lt_next_month y m 1
  have hiso : ∀ k, FIRST_DAY ≤ dayNumber y k 1 → dayNumber y k 1 ≤ LAST_DAY →
      (do isoDate (← dateUTC y (k - 1) 1 0 0 0)) = some (civil (dayNumber y k 1)) := by
    intro k hk hk'
    rw [← isoDate_day hk hk']
    unfold FIRST_DAY LAST_DAY at *
    unfold dateUTC
    rw [fullYear_of_le hy, sub_add_cancel]
    simp only [zero_mul, add_zero]
    rw [timeClip, if_pos (by omega)]
    rfl
  unfold monthRangeUtc
  dsimp only
  rw [hiso m hfirst.le (by omega), hiso (m + 1) (by omega) hlast]
  simp only [Option.bind_eq_bind, Option.bind_some]
  unfold LAST_DAY at hlast
  rw [zonedTimeToUtc_civil hz hfirst (by omega), zonedTimeToUtc_civil hz (by omega) (by omega)]
  rfl

/-- The period of two dates is that from the midnight of one to the one after the other. -/
theorem reportPeriod_dates {a b : ℤ} (ha : FIRST_DAY < a) (hab : a ≤ b) (hb : b < LAST_DAY) :
    reportPeriod z (some (.date (civil a))) (some (.date (civil b))) =
      some { gte := some (z.instant (a * 86400000)),
             lte := some (z.instant ((b + 1) * 86400000) - 1) } := by
  have hnear := z.instant_near ((b + 1) * 86400000)
  have hlast := hb
  unfold LAST_DAY at hlast
  unfold FIRST_DAY at *
  have hclip : timeClip (z.instant ((b + 1) * 86400000) - 1) =
      some (z.instant ((b + 1) * 86400000) - 1) := if_pos (by omega)
  simp only [reportPeriod, Option.mapM_some, PeriodEnd.parse, Bool.false_eq_true, if_false, if_true]
  rw [nextDateStr_civil (by unfold FIRST_DAY; omega), if_pos hb,
    zonedTimeToUtc_civil hz (by unfold FIRST_DAY; omega) (by omega)]
  simp only [Option.bind_eq_bind, Option.bind_some]
  rw [zonedTimeToUtc_civil hz (by unfold FIRST_DAY; omega) (by omega)]
  simp only [Option.bind_some]
  rw [hclip]
  rfl

theorem day_holds_iff (hera : 1 ≤ (civil n).year) (hn : n ≠ FIRST_DAY) :
    (∀ t, OfOurEra z t → (toZonedParts t z).dateStr = civil n → InItsDay z t) ↔
      FIRST_DAY < n ∧ n < LAST_DAY ∧ ¬ z.Late (n * 86400000) ∧
        ¬ z.Early ((n + 1) * 86400000) := by
  by_cases hfirst : n < FIRST_DAY
  · obtain ⟨t, rfl⟩ := exists_localDay hz n
    constructor
    · intro h
      exact absurd (h t hera (toZonedParts_dateStr hera)) (not_inItsDay_of_lt hz hera hfirst)
    · intro h
      exact absurd h.1 (not_lt.2 hfirst.le)
  have hfirst : FIRST_DAY < n := by omega
  have hshown : ∀ t, (OfOurEra z t ∧ (toZonedParts t z).dateStr = civil n) ↔
      n * 86400000 ≤ z.wall t ∧ z.wall t < (n + 1) * 86400000 := by
    intro t
    rw [← localDay_eq_iff]
    constructor
    · rintro ⟨ht, hdate⟩
      exact (dateStr_eq_civil_iff ht).1 hdate
    · rintro rfl
      exact ⟨hera, toZonedParts_dateStr hera⟩
  by_cases hlast : n < LAST_DAY
  · have hbetween := Zone.between_of_shown_iff hz (w := n * 86400000) (v := (n + 1) * 86400000)
      (by omega)
    rw [← and_assoc, and_iff_right ⟨hfirst, hlast⟩, ← hbetween]
    refine forall_congr' fun t => ?_
    rw [← and_imp, ← and_imp, hshown t]
    refine imp_congr_right fun ht => ?_
    have hdate := ((hshown t).2 ht).2
    unfold InItsDay
    rw [hdate, dayRangeUtc_civil hz hfirst, if_pos hlast]
    simp
  · obtain ⟨t, rfl⟩ := exists_localDay hz n
    constructor
    · intro h
      obtain ⟨r, hr, -⟩ := h t hera (toZonedParts_dateStr hera)
      rw [toZonedParts_dateStr hera, dayRangeUtc_civil hz hfirst, if_neg hlast] at hr
      exact absurd hr (by simp)
    · intro h
      exact absurd h.2.1 hlast

/-- The midnights of two days hold the instants of the dates between them exactly when both are
sharp. -/
theorem holdsDays_iff {a b : ℤ} (ha : FIRST_DAY < a) (hab : a < b) :
    HoldsDays z a b (fun t => z.instant (a * 86400000) ≤ t ∧ t < z.instant (b * 86400000)) ↔
      MidnightSharp z a ∧ MidnightSharp z b := by
  unfold MidnightSharp
  rw [← Zone.between_iff_shown_iff hz (by omega)]
  refine forall_congr' fun t => ?_
  have hnear := z.wall_near t
  have hstart := z.instant_near (a * 86400000)
  have hshown : OfOurEra z t → ((∃ n, a ≤ n ∧ n < b ∧ (toZonedParts t z).dateStr = civil n) ↔
      a * 86400000 ≤ z.wall t ∧ z.wall t < b * 86400000) := by
    intro ht
    constructor
    · rintro ⟨n, han, hnb, hdate⟩
      have hday := localDay_eq_iff.1 ((dateStr_eq_civil_iff ht).1 hdate)
      omega
    · intro hwall
      refine ⟨z.localDay t, ?_, ?_, toZonedParts_dateStr ht⟩
      · unfold Zone.localDay day
        omega
      · unfold Zone.localDay day
        omega
  by_cases ht : OfOurEra z t
  · rw [imp_iff_right ht, hshown ht]
  · -- before our era both sides are false
    have hday : z.localDay t < -719162 := by
      unfold OfOurEra at ht
      rw [civil_year, le_yearOf] at ht
      exact not_le.1 ht
    unfold Zone.localDay day at hday
    unfold FIRST_DAY at ha
    refine iff_of_true (fun h => absurd h ht) (iff_of_false ?_ ?_)
    · omega
    · omega

end Steps

/-- When the instants of a date lie between its midnights, and when a day, a month and the period of a
report hold exactly the instants of their dates. -/
theorem local_days_tile_iff (z : Zone) (hz : z.StepsWithin (2 * hour)) :
    (∀ n, 1 ≤ (civil n).year → n ≠ FIRST_DAY →
      ((∀ t, OfOurEra z t → (toZonedParts t z).dateStr = civil n → InItsDay z t) ↔
        FIRST_DAY < n ∧ n < LAST_DAY ∧ ¬ z.Late (n * day) ∧ ¬ z.Early ((n + 1) * day))) ∧
    (∀ n, FIRST_DAY < n → n < LAST_DAY →
      (HoldsDays z n (n + 1) (fun t => ∃ r ∈ dayRangeUtc (civil n) z, r.1 ≤ t ∧ t < r.2) ↔
        MidnightSharp z n ∧ MidnightSharp z (n + 1))) ∧
    (∀ y m, 100 ≤ y → FIRST_DAY < dayNumber y m 1 → dayNumber y (m + 1) 1 ≤ LAST_DAY →
      (HoldsDays z (dayNumber y m 1) (dayNumber y (m + 1) 1)
          (fun t => ∃ r ∈ monthRangeUtc y m z, r.1 ≤ t ∧ t < r.2) ↔
        MidnightSharp z (dayNumber y m 1) ∧ MidnightSharp z (dayNumber y (m + 1) 1))) ∧
    ∀ a b, FIRST_DAY < a → a ≤ b → b < LAST_DAY →
      (HoldsDays z a (b + 1) (fun t => ∃ p ∈ reportPeriod z (some (.date (civil a)))
          (some (.date (civil b))), p.contains t) ↔
        MidnightSharp z a ∧ MidnightSharp z (b + 1)) := by
  refine ⟨fun n hera hn => day_holds_iff hz hera hn, ?_, ?_, ?_⟩
  · intro n hn hn'
    rw [← holdsDays_iff hz hn (by omega), dayRangeUtc_civil hz hn, if_pos hn']
    simp
  · intro y m hy hfirst hlast
    rw [← holdsDays_iff hz hfirst (dayNumber_lt_next_month y m 1),
      monthRangeUtc_eq hz hy hfirst hlast]
    simp
  · intro a b ha hab hb
    rw [← holdsDays_iff hz ha (by omega), reportPeriod_dates hz ha hab hb]
    simp only [ReportPeriod.contains, Option.mem_some_iff, exists_eq_left', forall_eq',
      Int.le_sub_one_iff]

/-- Clocks of São Paulo went from midnight to one o'clock on 4 November 2018. -/
def midnightSkipped : Zone :=
  .changing 1541300400000 (-10800000) (-7200000) (by decide) (by decide) (by decide)

/-- The day after is whole. -/
theorem day_after_midnightSkipped :
    dayRangeUtc (civil 17840) midnightSkipped = some (1541383200000, 1541469600000) ∧
    ∀ t, OfOurEra midnightSkipped t → (toZonedParts t midnightSkipped).dateStr = civil 17840 →
      InItsDay midnightSkipped t := by
  have hsteps : midnightSkipped.StepsWithin (2 * hour) :=
    Zone.changing_stepsWithin _ _ _ (by decide) (by decide) (by decide)
  refine ⟨by decide +kernel, ((local_days_tile_iff midnightSkipped hsteps).1 17840 (by decide)
    (by decide)).2 ⟨by decide, by decide, ?_, ?_⟩⟩
  · rintro ⟨c, hc, h⟩
    simp only [midnightSkipped, Zone.changing, day] at hc h
    split at h <;> split at h <;> omega
  · rintro ⟨c, hc, h⟩
    simp only [midnightSkipped, Zone.changing, day] at hc h
    split at h <;> split at h <;> omega

/-- The day before ends an hour early: its last instant is not in it. -/
theorem hour_before_midnightSkipped :
    midnightSkipped.StepsWithin (2 * hour) ∧
    (toZonedParts 1541300399999 midnightSkipped).dateStr = ⟨2018, 11, 3⟩ ∧
    dayRangeUtc ⟨2018, 11, 3⟩ midnightSkipped = some (1541214000000, 1541296800000) ∧
    ¬ InItsDay midnightSkipped 1541300399999 := by
  refine ⟨Zone.changing_stepsWithin _ _ _ (by decide) (by decide) (by decide), by decide +kernel,
    by decide +kernel, ?_⟩
  rintro ⟨r, hr, -, hlt⟩
  have hrange : dayRangeUtc (toZonedParts 1541300399999 midnightSkipped).dateStr midnightSkipped =
      some (1541214000000, 1541296800000) := by decide +kernel
  obtain rfl := Option.some.inj (hrange.symm.trans hr)
  exact absurd hlt (by decide)

end Barbershop
