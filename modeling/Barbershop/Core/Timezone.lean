import Barbershop.Lib.Calendar
import Barbershop.Lib.LocalTime
import Barbershop.Model.Db

/-!
# Local time of a unit

Instants are the milliseconds of a `Date`. A date text `YYYY-MM-DD` is the three numbers its readers take
from it with `split('-').map(Number)`. A result `none` is an `Invalid Date`, or the `RangeError` of the
method that is asked to print one.
-/

namespace Barbershop

open Lib Calendar LocalTime

/-! ## `Date` -/

/-- The instants a `Date` holds. -/
def timeClip (t : ℤ) : Option ℤ :=
  if -8640000000000000 ≤ t ∧ t ≤ 8640000000000000 then some t else none

/-- `Date.UTC` takes 0 to 99 for years of the 20th century. -/
def fullYear (year : ℤ) : ℤ := if 0 ≤ year ∧ year ≤ 99 then 1900 + year else year

/-- `Date.UTC`, with months from 0. -/
def dateUTC (year month day hours minutes seconds : ℤ) : Option ℤ :=
  timeClip (dayNumber (fullYear year) (month + 1) day * 86400000 + hours * 3600000 +
    minutes * 60000 + seconds * 1000)

/-- The first ten characters of `toISOString`. Years beyond 9999 have six digits and a sign, and leave
no room for the day; before the year 0 the sign is read as an empty year. -/
def isoDate (t : ℤ) : Option Date :=
  let date := civil (t / 86400000)
  if 9999 < date.year then none
  else if date.year < 0 then some ⟨0, -date.year, date.month⟩
  else some date

/-! ## Wall time -/

structure DateTimeParts where
  year : ℤ
  month : ℤ
  day : ℤ
  hour : ℤ
  minute : ℤ
  second : ℤ
  deriving DecidableEq, Repr

/-- `formatToParts`: the year is printed without its era. -/
def formatToParts (timeZone : Zone) (t : ℤ) : DateTimeParts :=
  let date := civil (timeZone.localDay t)
  let time := timeZone.wall t % 86400000
  { year := if date.year ≤ 0 then 1 - date.year else date.year
    month := date.month
    day := date.day
    hour := time / 3600000
    minute := time / 60000 % 60
    second := time / 1000 % 60 }

/-- 0 is Sunday. -/
def dayOfWeekOf (dateStr : Date) : Option ℤ :=
  (dateUTC dateStr.year (dateStr.month - 1) dateStr.day 0 0 0).map fun t => (t / 86400000 + 4) % 7

@[ext] structure ZonedParts where
  dateStr : Date
  dayOfWeek : Option ℤ
  minutesOfDay : ℤ
  deriving DecidableEq, Repr

def toZonedParts (instant : ℤ) (timeZone : Zone) : ZonedParts :=
  let parts := formatToParts timeZone instant
  let dateStr := ⟨parts.year, parts.month, parts.day⟩
  { dateStr := dateStr
    dayOfWeek := dayOfWeekOf dateStr
    minutesOfDay := parts.hour * 60 + parts.minute }

def offsetMs (instant : ℤ) (timeZone : Zone) : Option ℤ := do
  let parts := formatToParts timeZone instant
  let asUtc ← dateUTC parts.year (parts.month - 1) parts.day parts.hour parts.minute parts.second
  return asUtc - instant / 1000 * 1000

def zonedTimeToUtc (dateStr : Date) (minutesOfDay : ℤ) (timeZone : Zone) : Option ℤ := do
  let wallAsUtc ← dateUTC dateStr.year (dateStr.month - 1) dateStr.day 0 minutesOfDay 0
  let guess ← timeClip (wallAsUtc - (← offsetMs wallAsUtc timeZone))
  timeClip (wallAsUtc - (← offsetMs guess timeZone))

def addDaysStr (dateStr : Date) (days : ℤ) : Option Date := do
  isoDate (← dateUTC dateStr.year (dateStr.month - 1) (dateStr.day + days) 0 0 0)

def nextDateStr (dateStr : Date) : Option Date := do
  isoDate (← dateUTC dateStr.year (dateStr.month - 1) (dateStr.day + 1) 0 0 0)

/-! ## Ranges -/

/-- `monthRangeUtc`: from the first instant to the one after the last. -/
def monthRangeUtc (year month : ℤ) (timeZone : Zone) : Option (ℤ × ℤ) := do
  let first (y m : ℤ) : Option Date := do isoDate (← dateUTC y (m - 1) 1 0 0 0)
  let start ← zonedTimeToUtc (← first year month) 0 timeZone
  let finish ← zonedTimeToUtc (← first year (month + 1)) 0 timeZone
  return (start, finish)

/-- An end of a report's period: a date, or a text with a time, read as an instant. -/
inductive PeriodEnd where
  | date (dateStr : Date)
  | instant (t : Option ℤ)

def PeriodEnd.parse (timeZone : Zone) (isEnd : Bool) : PeriodEnd → Option ℤ
  | date v =>
    if isEnd then do
      let next ← nextDateStr v
      let t ← zonedTimeToUtc next 0 timeZone
      timeClip (t - 1)
    else zonedTimeToUtc v 0 timeZone
  | instant t => t

/-- The bounds of a report's period, both within it. -/
structure ReportPeriod where
  gte : Option ℤ
  lte : Option ℤ

def reportPeriod (timeZone : Zone) (start finish : Option PeriodEnd) : Option ReportPeriod := do
  let gte ← start.mapM (PeriodEnd.parse timeZone false)
  let lte ← finish.mapM (PeriodEnd.parse timeZone true)
  return { gte := gte, lte := lte }

def ReportPeriod.contains (period : ReportPeriod) (t : ℤ) : Prop :=
  (∀ s ∈ period.gte, s ≤ t) ∧ ∀ e ∈ period.lte, t ≤ e

instance (period : ReportPeriod) (t : ℤ) : Decidable (period.contains t) :=
  inferInstanceAs (Decidable ((∀ s ∈ period.gte, s ≤ t) ∧ ∀ e ∈ period.lte, t ≤ e))

/-! ## What they compute -/

/-- The first of January of the year 100 in UTC: years before it are not read as written. -/
def YEAR_100 : ℤ := -59011459200000

theorem timeClip_eq_some {t s : ℤ} :
    timeClip t = some s ↔ (-8640000000000000 ≤ t ∧ t ≤ 8640000000000000) ∧ t = s := by
  simp [timeClip]

theorem fullYear_of_le {y : ℤ} (h : 100 ≤ y) : fullYear y = y := if_neg (by omega)

theorem year_100_le {t : ℤ} : 100 ≤ (civil (t / 86400000)).year ↔ YEAR_100 ≤ t := by
  rw [civil_year, le_yearOf]
  unfold YEAR_100
  norm_num [yearStart]
  omega

theorem localDay_eq_iff {z : Zone} {t n : ℤ} :
    z.localDay t = n ↔ n * 86400000 ≤ z.wall t ∧ z.wall t < (n + 1) * 86400000 := by
  unfold Zone.localDay day
  omega

/-- A date text names no era: this is the one it is read in. -/
def OfOurEra (z : Zone) (t : ℤ) : Prop := 1 ≤ (civil (z.localDay t)).year

instance (z : Zone) (t : ℤ) : Decidable (OfOurEra z t) :=
  inferInstanceAs (Decidable (1 ≤ (civil (z.localDay t)).year))

theorem toZonedParts_dateStr {z : Zone} {t : ℤ} (h : OfOurEra z t) :
    (toZonedParts t z).dateStr = civil (z.localDay t) := by
  unfold OfOurEra at h
  unfold toZonedParts formatToParts
  dsimp only
  rw [if_neg (by omega)]

theorem toZonedParts_minutesOfDay (z : Zone) (t : ℤ) :
    (toZonedParts t z).minutesOfDay = z.wall t % 86400000 / 60000 := by
  unfold toZonedParts formatToParts
  dsimp only
  omega

theorem dateStr_eq_civil_iff {z : Zone} {t n : ℤ} (h : OfOurEra z t) :
    (toZonedParts t z).dateStr = civil n ↔ z.localDay t = n := by
  rw [toZonedParts_dateStr h]
  constructor
  · intro heq
    rw [← dayNumber_civil (z.localDay t), heq, dayNumber_civil]
  · rintro rfl
    rfl

/-- What the clocks show is the same to the minute. -/
theorem toZonedParts_eq_iff {z : Zone} {t u : ℤ} (ht : OfOurEra z t) (hu : OfOurEra z u) :
    toZonedParts u z = toZonedParts t z ↔ z.wall u / 60000 = z.wall t / 60000 := by
  have hdate := dateStr_eq_civil_iff (n := z.localDay t) hu
  rw [← toZonedParts_dateStr ht] at hdate
  have hminutes := toZonedParts_minutesOfDay z t
  have hminutes' := toZonedParts_minutesOfDay z u
  constructor
  · intro heq
    rw [heq] at hdate hminutes'
    have hday := hdate.1 rfl
    unfold Zone.localDay day at hday
    omega
  · intro heq
    have hday := hdate.2 (by unfold Zone.localDay day; omega)
    have hsame : (toZonedParts u z).minutesOfDay = (toZonedParts t z).minutesOfDay := by omega
    have hweek : (toZonedParts u z).dayOfWeek = (toZonedParts t z).dayOfWeek :=
      congrArg dayOfWeekOf hday
    exact ZonedParts.ext hday hweek hsame

/-- `Date.UTC` of the date and time of a day. -/
theorem dateUTC_civil {n h m s : ℤ} (hn : 100 ≤ (civil n).year) :
    dateUTC (civil n).year ((civil n).month - 1) (civil n).day h m s =
      timeClip (n * 86400000 + h * 3600000 + m * 60000 + s * 1000) := by
  rw [dateUTC, fullYear_of_le hn, sub_add_cancel, dayNumber_civil]

theorem offsetMs_eq {z : Zone} {t : ℤ} (hlow : YEAR_100 ≤ z.wall t)
    (hhigh : z.wall t ≤ 8640000000000000) : offsetMs t z = some (z.offset t) := by
  have hyear : 100 ≤ (civil (z.localDay t)).year := year_100_le.2 hlow
  have hera : ¬ (civil (z.localDay t)).year ≤ 0 := by omega
  unfold offsetMs formatToParts
  dsimp only
  rw [if_neg hera, dateUTC_civil hyear]
  have hsum : z.localDay t * 86400000 + z.wall t % 86400000 / 3600000 * 3600000 +
      z.wall t % 86400000 / 60000 % 60 * 60000 + z.wall t % 86400000 / 1000 % 60 * 1000 =
      z.wall t / 1000 * 1000 := by
    unfold Zone.localDay day
    omega
  rw [hsum, timeClip, if_pos (by unfold YEAR_100 at hlow; omega)]
  have hoffset := z.seconds t
  refine congrArg some ?_
  unfold Zone.wall
  omega

/-- `zonedTimeToUtc` finds the instant of the wall time it is given. -/
theorem zonedTimeToUtc_eq {z : Zone} {date : Date} {m w : ℤ}
    (hw : dayNumber (fullYear date.year) date.month date.day * 86400000 + m * 60000 = w)
    (hlow : YEAR_100 ≤ w) (hfirst : YEAR_100 ≤ z.wall w)
    (hsecond : YEAR_100 ≤ z.wall (w - z.offset w)) (hhigh : w ≤ 8639999827200000) :
    zonedTimeToUtc date m z = some (z.instant w) := by
  have hoff := z.bounds w
  have hoff' := z.bounds (w - z.offset w)
  have hwall : dateUTC date.year (date.month - 1) date.day 0 m 0 = some w := by
    unfold dateUTC
    rw [sub_add_cancel, timeClip_eq_some]
    unfold YEAR_100 at hlow
    omega
  unfold zonedTimeToUtc
  have hguess : timeClip (w - z.offset w) = some (w - z.offset w) := by
    rw [timeClip_eq_some]
    unfold YEAR_100 at hlow
    omega
  have hinstant : timeClip (z.instant w) = some (z.instant w) := by
    rw [timeClip_eq_some]
    unfold YEAR_100 at hlow
    unfold Zone.instant
    omega
  rw [hwall]
  simp only [Option.bind_eq_bind, Option.bind_some]
  rw [offsetMs_eq hfirst (by unfold Zone.wall; omega)]
  simp only [Option.bind_some]
  rw [hguess]
  simp only [Option.bind_some]
  rw [offsetMs_eq hsecond (by unfold Zone.wall; omega)]
  exact hinstant

end Barbershop
