import Barbershop.Core.LocalDays
import Barbershop.Lib.Months
import Barbershop.Payroll.Payout

/-!
# The pay period and the unit's calendar

The fixed pay of a period is the share of months or weeks that its days fill. The period is kept as two
instants, and the days are found again in UTC half a day within each. That is right while local midnight
is less than half a day from midnight in UTC (`shares_own_days_iff`).
-/

namespace Barbershop

open Lib Calendar LocalTime

/-! ## The days of `Date` -/

theorem utcDay_eq_dayNumber (y m d : ℤ) : utcDay y m d = dayNumber y (m + 1) d := by
  unfold utcDay dayNumber yearStart monthStart leapDay
  dsimp only
  rw [add_sub_cancel_right]
  generalize y + m / 12 = year
  have hlow : 0 ≤ m % 12 := by omega
  have hhigh : m % 12 < 12 := by omega
  generalize m % 12 = month at hlow hhigh
  by_cases hmonth : month < 2
  · rw [if_pos hmonth, if_pos (by omega)]
    omega
  · rw [if_neg hmonth, if_neg (by omega)]
    split <;> omega

/-- The year of an era from the days before it and the day of a year that begins in March. -/
theorem yearOfEra_eq {y d : ℤ} (hy : 0 ≤ y ∧ y < 400) (hd : 0 ≤ d ∧ d ≤ 365)
    (hleap : d = 365 → y % 4 = 3 ∧ (y % 100 = 99 → y = 399)) {doe : ℤ}
    (hdoe : doe = y * 365 + y / 4 - y / 100 + d) :
    (doe - doe / 1460 + doe / 36524 - doe / 146096) / 365 = y := by
  subst hdoe
  have hcentury : (y * 365 + y / 4 - y / 100 + d) / 36524 =
      y / 100 + if d = 365 ∧ y % 100 = 99 then 1 else 0 := by
    split <;> omega
  have hera : (y * 365 + y / 4 - y / 100 + d) / 146096 = if d = 365 ∧ y = 399 then 1 else 0 := by
    split <;> omega
  rw [hcentury, hera]
  split <;> split <;> omega

/-- The month of the day `d` of a year that begins in March, the year `y` of an era. -/
theorem utcMonth_march {n era y d : ℤ} (hy : 0 ≤ y ∧ y < 400) (hd : 0 ≤ d ∧ d ≤ 365)
    (hleap : d = 365 → y % 4 = 3 ∧ (y % 100 = 99 → y = 399))
    (hn : n + 719468 = era * 146097 + (y * 365 + y / 4 - y / 100 + d)) :
    utcMonth n = (era * 400 + y + ((5 * d + 2) / 153 + 2) / 12, ((5 * d + 2) / 153 + 2) % 12) := by
  have hyoe := yearOfEra_eq hy hd hleap rfl
  have hera : (n + 719468) / 146097 = era := by
    clear hyoe hleap
    omega
  have hdoe : (n + 719468) % 146097 = y * 365 + y / 4 - y / 100 + d := by
    clear hyoe hleap
    omega
  have hdoy : y * 365 + y / 4 - y / 100 + d - (365 * y + y / 4 - y / 100) = d := by
    clear hyoe hleap hdoe hn
    omega
  unfold utcMonth
  dsimp only
  rw [hera, hdoe, hyoe, hdoy]
  clear hera hdoe hyoe hdoy hn hleap
  refine Prod.ext ?_ rfl
  dsimp only
  split <;> omega

theorem utcDay_march (y : ℤ) {m : ℤ} (hm : 0 ≤ m) (hm' : m < 12) :
    utcDay y (m + 2) 1 = y / 400 * 146097 + (y % 400 * 365 + y % 400 / 4 - y % 400 / 100 +
      (153 * m + 2) / 5) - 719468 := by
  have hmonth : ((m + 2) % 12 + 10) % 12 = m := by omega
  have hyear : (if (m + 2) % 12 < 2 then y + (m + 2) / 12 - 1 else y + (m + 2) / 12) = y := by
    split <;> omega
  unfold utcDay
  dsimp only
  rw [hmonth, hyear]
  omega

theorem utcDay_first (y m : ℤ) : utcDay y m 1 = monthFirst (12 * y + m) := by
  rw [utcDay_eq_dayNumber, dayNumber_eq, add_sub_cancel_right, ← add_assoc, add_sub_cancel_right]

theorem utcMonth_eq (n : ℤ) : utcMonth n = (monthIndex n / 12, monthIndex n % 12) := by
  -- the year that began in March, and the day of it
  obtain ⟨y, hy⟩ : ∃ y, y = (monthIndex n - 2) / 12 := ⟨_, rfl⟩
  have hfirst : utcDay y (0 + 2) 1 ≤ n := by
    rw [utcDay_first, monthFirst_le_iff]
    omega
  have hlast : n < utcDay (y + 1) (0 + 2) 1 := by
    rw [utcDay_first, lt_monthFirst_iff]
    omega
  have hfirst' := hfirst
  have hlast' := hlast
  rw [utcDay_march y le_rfl (by decide)] at hfirst'
  rw [utcDay_march (y + 1) le_rfl (by decide)] at hlast'
  obtain ⟨d, hd⟩ : ∃ d, d = n + 719468 - y / 400 * 146097 -
    (y % 400 * 365 + y % 400 / 4 - y % 400 / 100) := ⟨_, rfl⟩
  have hday : 0 ≤ d ∧ d ≤ 365 := by omega
  have hleap : d = 365 → y % 400 % 4 = 3 ∧ (y % 400 % 100 = 99 → y % 400 = 399) := by omega
  have hn : n + 719468 =
      y / 400 * 146097 + (y % 400 * 365 + y % 400 / 4 - y % 400 / 100 + d) := by omega
  obtain ⟨m, hm⟩ : ∃ m, m = (5 * d + 2) / 153 := ⟨_, rfl⟩
  have hbounds : 0 ≤ m ∧ m < 12 ∧ (153 * m + 2) / 5 ≤ d ∧ d < (153 * (m + 1) + 2) / 5 := by
    clear hfirst hlast hfirst' hlast' hleap hn hd hy
    omega
  have hindex : monthIndex n = 12 * y + (m + 2) := by
    rw [monthIndex_eq_iff, ← utcDay_first, utcDay_march y hbounds.1 hbounds.2.1]
    clear hfirst hfirst' hlast' hleap hd hm hy
    refine ⟨by omega, ?_⟩
    by_cases hdec : m = 11
    · rw [utcDay_first] at hlast
      exact hlast.trans_eq (congrArg monthFirst (by omega))
    · rw [add_assoc, add_right_comm, ← utcDay_first, utcDay_march y (by omega) (by omega)]
      omega
  rw [utcMonth_march ⟨by omega, by omega⟩ hday hleap hn, hindex, ← hm]
  clear hfirst hlast hfirst' hlast' hleap hn hd hy hm hindex
  refine Prod.ext ?_ ?_
  · dsimp only
    omega
  · dsimp only
    omega
/-! ## The loop over months -/

theorem le_max_first {first k : ℤ} (hk : monthIndex first ≤ k) :
    (if utcMonth first = (k / 12, k % 12) then first else monthFirst k) =
      max first (monthFirst k) := by
  have hmonth := utcMonth_eq first
  split
  · next h =>
    rw [hmonth, Prod.mk.injEq] at h
    have hsame : k ≤ monthIndex first := by omega
    exact (max_eq_left (monthFirst_le_iff.2 hsame)).symm
  · next h =>
    rw [hmonth, Prod.mk.injEq] at h
    have hlater : monthIndex first < k := by omega
    exact (max_eq_right (lt_monthFirst_iff.2 hlater).le).symm

/-- The months from `k` on, to the one of the last day. -/
theorem monthShares_eq {first last : ℤ} (n : ℕ) {k : ℤ} (hk : monthIndex first ≤ k)
    (hfuel : monthIndex last < k + n) (hn : 1 ≤ n) :
    monthShares first last n (k / 12) (k % 12) = monthlyShare (max first (monthFirst k)) last := by
  induction n generalizing k with
  | zero => omega
  | succ n ih =>
    have hwhole : 12 * (k / 12) + k % 12 = k := by omega
    have hstart : utcDay (k / 12) (k % 12) 1 = monthFirst k := by rw [utcDay_first, hwhole]
    have hend : utcDay (k / 12) (k % 12 + 1) 0 = monthFirst (k + 1) - 1 := by
      have hnext := utcDay_first (k / 12) (k % 12 + 1)
      rw [← add_assoc, hwhole] at hnext
      rw [utcDay_eq_dayNumber] at hnext ⊢
      have hday := dayNumber_add (k / 12) (k % 12 + 1 + 1) 0 1
      rw [zero_add, hnext] at hday
      omega
    have hdays : monthFirst (k + 1) - 1 - monthFirst k + 1 = monthDays k := by
      unfold monthDays
      omega
    have hin := lt_monthFirst_iff.2 (show monthIndex first < k + 1 by omega)
    have hmonth := monthFirst_lt_succ k
    have hfrom := le_max_right first (monthFirst k)
    have hbefore : max first (monthFirst k) < monthFirst (k + 1) := max_lt hin hmonth
    unfold monthShares
    dsimp only
    rw [hstart, hend, hdays, le_max_first hk]
    generalize max first (monthFirst k) = start at hfrom hbefore ⊢
    have hshare : (if start ≤ min (monthFirst (k + 1) - 1) last then
        ((min (monthFirst (k + 1) - 1) last - start + 1 : ℤ) : ℚ) / monthDays k else 0) =
        monthlyShare start (min (monthFirst (k + 1) - 1) last) := by
      split
      · next h => exact (monthlyShare_of_month (by omega) hfrom (by omega)).symm
      · next h => exact (monthlyShare_of_lt (not_le.1 h)).symm
    rw [hshare]
    by_cases hlast : last ≤ monthFirst (k + 1) - 1
    · rw [if_pos hlast, min_eq_right hlast]
    · have hlater := monthFirst_le_iff.1 (show monthFirst (k + 1) ≤ last by omega)
      have hnext := ih (k := k + 1) (by omega) (by push_cast at hfuel; omega) (by omega)
      rw [max_eq_right hin.le] at hnext
      have hturn : (if k % 12 = 11 then
          monthlyShare start (monthFirst (k + 1) - 1) + monthShares first last n (k / 12 + 1) 0
          else monthlyShare start (monthFirst (k + 1) - 1) +
            monthShares first last n (k / 12) (k % 12 + 1)) =
          monthlyShare start (monthFirst (k + 1) - 1) +
            monthShares first last n ((k + 1) / 12) ((k + 1) % 12) := by
        split
        · next h => rw [show (k + 1) / 12 = k / 12 + 1 by omega, show (k + 1) % 12 = 0 by omega]
        · next h => rw [show (k + 1) / 12 = k / 12 by omega, show (k + 1) % 12 = k % 12 + 1 by omega]
      have hsplit := monthlyShare_split (a := start) (b := last) (c := monthFirst (k + 1) - 1)
        (by omega) (by omega)
      rw [sub_add_cancel] at hsplit
      rw [if_neg hlast, min_eq_left (by omega), hturn, hnext, hsplit]

/-- Monthly pay is by the days in UTC half a day within the period. -/
theorem periodShare_monthly (start stop : ℤ) : periodShare start stop .monthly =
    monthlyShare ((start + 43200000) / 86400000) ((stop - 43200000) / 86400000) := by
  have hhalf : DAY_MS / 2 = 43200000 := rfl
  have hday : DAY_MS = 86400000 := rfl
  unfold periodShare
  dsimp only
  rw [hhalf, hday, utcMonth_eq, utcMonth_eq]
  dsimp only
  rw [monthShares_eq _ le_rfl (by omega) (by omega),
    max_eq_left (monthFirst_le_iff.2 le_rfl)]

/-! ## The period of two dates -/

/-- `range`: the midnight of the first day, and the instant before the midnight after the last. -/
def payRange (timeZone : Zone) (first last : DayText) : Result (Option ℤ × Option ℤ) :=
  match first, last with
  | some first, some last =>
    if last < first then .error (.badRequest "Período inválido")
    else if MAX_PERIOD_DAYS < last - first then
      .error (.badRequest s!"O período pode ter no máximo {MAX_PERIOD_DAYS} dias")
    else .ok (zonedTimeToUtc (civil first) 0 timeZone, do
      let next ← nextDateStr (civil last)
      let midnight ← zonedTimeToUtc next 0 timeZone
      timeClip (midnight - 1))
  | _, _ => .error (.badRequest "Período inválido")

/-- The share that the days of a calendar from `a` to `b` are. -/
def calendarShare (a b : ℤ) : PayPeriod → ℚ
  | .monthly => monthlyShare a b
  | .weekly => ((b - a + 1 : ℤ) : ℚ) / 7
  | .biweekly => ((b - a + 1 : ℤ) : ℚ) / 14

/-- The pay of a period is by its own days. -/
def SharesOwnDays (z : Zone) (a b : ℤ) (period : PayPeriod) : Prop :=
  ∃ start stop, payRange z (some a) (some b) = .ok (some start, some stop) ∧
    periodShare start stop period = calendarShare a b period

/-- How far local midnight is ahead of that in UTC. -/
def midnightOffset (z : Zone) (n : ℤ) : ℤ := z.offset (n * 86400000 - z.offset (n * 86400000))

/-- Midnights are near enough for the days to be found again: for months each within half a day of UTC,
or both so far ahead that all days are the day before, and the one gained has as long a month as the one
lost; for weeks within half a day of each other. -/
def MidnightsNear (z : Zone) (a b : ℤ) : PayPeriod → Prop
  | .monthly =>
    (-(12 * hour) < midnightOffset z a ∧ midnightOffset z a ≤ 12 * hour ∧
        midnightOffset z (b + 1) < 12 * hour) ∨
      (12 * hour < midnightOffset z a ∧ 12 * hour ≤ midnightOffset z (b + 1) ∧
        monthDays (monthIndex (a - 1)) = monthDays (monthIndex b))
  | .weekly | .biweekly =>
    -(12 * hour) < midnightOffset z a - midnightOffset z (b + 1) ∧
      midnightOffset z a - midnightOffset z (b + 1) ≤ 12 * hour

theorem instant_midnight (z : Zone) (n : ℤ) :
    z.instant (n * 86400000) = n * 86400000 - midnightOffset z n := rfl

variable {z : Zone} {a b : ℤ}

theorem payRange_eq (hsteps : z.StepsWithin 7200000) (hab : a ≤ b) (hspan : b ≤ a + 400)
    (hfirst : FIRST_DAY < a) (hlast : b < LAST_DAY) : payRange z (some a) (some b) =
      .ok (some (a * 86400000 - midnightOffset z a),
        some ((b + 1) * 86400000 - midnightOffset z (b + 1) - 1)) := by
  have hnear := z.instant_near ((b + 1) * 86400000)
  have hclip : timeClip (z.instant ((b + 1) * 86400000) - 1) =
      some (z.instant ((b + 1) * 86400000) - 1) := by
    rw [timeClip_eq_some]
    unfold FIRST_DAY LAST_DAY at *
    omega
  unfold payRange
  dsimp only
  rw [if_neg (not_lt.2 hab), if_neg (by unfold MAX_PERIOD_DAYS; omega),
    nextDateStr_civil (by omega), if_pos hlast]
  unfold LAST_DAY at hlast
  rw [zonedTimeToUtc_civil hsteps hfirst (by omega)]
  simp only [Option.bind_eq_bind, Option.bind_some]
  rw [zonedTimeToUtc_civil hsteps (by omega) (by omega)]
  simp only [Option.bind_some]
  rw [hclip, instant_midnight, instant_midnight]

theorem midnightOffset_near (hsteps : z.StepsWithin hour) :
    z.offset (a * 86400000) - 3600000 ≤ midnightOffset z a ∧
      midnightOffset z a ≤ z.offset (a * 86400000) + 3600000 := by
  have hbound := z.bounds (a * 86400000)
  exact Zone.offset_near hsteps (by omega) (by omega)

/-! ## Which days are counted -/

section Days

variable {o o' : ℤ}

theorem weeks_iff (hab : a ≤ b) (hday : a = b → -43200000 < o - o') :
    max 1 (roundHalfUp (((b + 1) * 86400000 - o' - 1 - DAY_MS / 2 -
        (a * 86400000 - o + DAY_MS / 2) : ℤ) / (DAY_MS : ℚ)) + 1) = b - a + 1 ↔
      -43200000 < o - o' ∧ o - o' ≤ 43200000 := by
  have hround : roundHalfUp (((b + 1) * 86400000 - o' - 1 - DAY_MS / 2 -
      (a * 86400000 - o + DAY_MS / 2) : ℤ) / (DAY_MS : ℚ)) =
      b - a + (o - o' + 43199999) / 86400000 := by
    have hhalf : (((b + 1) * 86400000 - o' - 1 - DAY_MS / 2 - (a * 86400000 - o + DAY_MS / 2) : ℤ) :
        ℚ) / (DAY_MS : ℚ) + 1 / 2 =
        (((b - a) * 86400000 + (o - o' + 43199999) : ℤ) : ℚ) / (86400000 : ℕ) := by
      have hday : DAY_MS = 86400000 := rfl
      rw [hday]
      push_cast
      ring
    rw [roundHalfUp, hhalf, Rat.floor_intCast_div_natCast]
    omega
  rw [hround]
  omega

theorem months_iff (hab : a ≤ b) (ho : -43200000 ≤ o) (ho' : -43200000 ≤ o') 
    (hi : o ≤ 50400000) (hi' : o' ≤ 50400000) :
    monthlyShare ((a * 86400000 - o + 43200000) / 86400000)
        (((b + 1) * 86400000 - o' - 1 - 43200000) / 86400000) = monthlyShare a b ↔
      (-43200000 < o ∧ o ≤ 43200000 ∧ o' < 43200000) ∨
        (43200000 < o ∧ 43200000 ≤ o' ∧
          monthDays (monthIndex (a - 1)) = monthDays (monthIndex b)) := by
  have hfirst := dayShare_pos a
  have hlast := dayShare_pos b
  have hbefore := dayShare_pos (a - 1)
  have hwhole := monthlyShare_first hab
  have hwhole' := monthlyShare_last hab
  have hearly := monthlyShare_first (a := a - 1) (b := b) (by omega)
  have hearly' := monthlyShare_last (a := a - 1) (b := b) (by omega)
  rw [sub_add_cancel] at hearly
  by_cases hback : 43200000 < o
  · have hstart : (a * 86400000 - o + 43200000) / 86400000 = a - 1 := by omega
    rw [hstart]
    by_cases hback' : 43200000 ≤ o'
    · have hstop : ((b + 1) * 86400000 - o' - 1 - 43200000) / 86400000 = b - 1 := by omega
      rw [hstop, ← dayShare_eq_iff]
      refine ⟨fun h => .inr ⟨hback, hback', by linarith⟩, ?_⟩
      rintro (h | ⟨-, -, h⟩)
      · omega
      · linarith
    · have hstop : ((b + 1) * 86400000 - o' - 1 - 43200000) / 86400000 = b := by omega
      rw [hstop]
      refine ⟨fun h => by linarith, ?_⟩
      rintro (h | h) <;> omega
  by_cases hforth : o = -43200000
  · have hstart : (a * 86400000 - o + 43200000) / 86400000 = a + 1 := by omega
    have hless : monthlyShare (a + 1) (((b + 1) * 86400000 - o' - 1 - 43200000) / 86400000) ≤
        monthlyShare (a + 1) b := monthlyShare_mono (by omega)
    rw [hstart]
    refine ⟨fun h => by linarith, ?_⟩
    rintro (h | h) <;> omega
  · have hstart : (a * 86400000 - o + 43200000) / 86400000 = a := by omega
    rw [hstart]
    by_cases hback' : 43200000 ≤ o'
    · have hstop : ((b + 1) * 86400000 - o' - 1 - 43200000) / 86400000 = b - 1 := by omega
      rw [hstop]
      refine ⟨fun h => by linarith, ?_⟩
      rintro (h | h) <;> omega
    · have hstop : ((b + 1) * 86400000 - o' - 1 - 43200000) / 86400000 = b := by omega
      rw [hstop]
      exact ⟨fun _ => .inl ⟨by omega, by omega, by omega⟩, fun _ => rfl⟩

end Days

theorem sharesOwnDays_iff (hsteps : z.StepsWithin 7200000) (hab : a ≤ b) (hspan : b ≤ a + 400)
    (hfirst : FIRST_DAY < a) {period : PayPeriod} : SharesOwnDays z a b period ↔ b < LAST_DAY ∧
      periodShare (a * 86400000 - midnightOffset z a)
        ((b + 1) * 86400000 - midnightOffset z (b + 1) - 1) period = calendarShare a b period := by
  constructor
  · rintro ⟨start, stop, hrange, hshare⟩
    have hlast : b < LAST_DAY := by
      by_contra hlate
      unfold payRange at hrange
      dsimp only at hrange
      rw [if_neg (not_lt.2 hab), if_neg (by unfold MAX_PERIOD_DAYS; omega),
        nextDateStr_civil (by omega), if_neg hlate, Except.ok.injEq, Prod.mk.injEq] at hrange
      cases hrange.2
    rw [payRange_eq hsteps hab hspan hfirst hlast, Except.ok.injEq, Prod.mk.injEq, Option.some.injEq,
      Option.some.injEq] at hrange
    obtain ⟨rfl, rfl⟩ := hrange
    exact ⟨hlast, hshare⟩
  · rintro ⟨hlast, hshare⟩
    exact ⟨_, _, payRange_eq hsteps hab hspan hfirst hlast, hshare⟩

/-- A period's pay is by its own days exactly when its midnights are near. -/
theorem shares_own_days_iff (z : Zone) (hbound : ∀ t, -(12 * hour) ≤ z.offset t)
    (hsteps : z.StepsWithin hour) (a b : ℤ) (hab : a ≤ b) (hspan : b ≤ a + 400)
    (hfirst : FIRST_DAY < a) (period : PayPeriod) :
    SharesOwnDays z a b period ↔ b < LAST_DAY ∧ MidnightsNear z a b period := by
  have hwide : z.StepsWithin 7200000 := by
    intro t
    have hstep := hsteps t
    unfold hour at hstep
    omega
  have hlow : -43200000 ≤ midnightOffset z a := hbound _
  have hlow' : -43200000 ≤ midnightOffset z (b + 1) := hbound _
  have hhigh : midnightOffset z a ≤ 50400000 := (z.bounds _).2
  have hhigh' : midnightOffset z (b + 1) ≤ 50400000 := (z.bounds _).2
  rw [sharesOwnDays_iff hwide hab hspan hfirst]
  refine and_congr_right fun _ => ?_
  -- a single day is not so long that its two midnights are not near
  have hday : a = b → -43200000 < midnightOffset z a - midnightOffset z (b + 1) := by
    rintro rfl
    have hnear := midnightOffset_near (a := a) hsteps
    have hnear' := midnightOffset_near (a := a + 1) hsteps
    have hoffset := Zone.offset_near hsteps (w := a * 86400000) (t := (a + 1) * 86400000) (by omega)
      (by omega)
    unfold hour at hoffset
    omega
  have hweeks := weeks_iff hab hday
  cases period with
  | monthly =>
    rw [periodShare_monthly]
    exact months_iff hab hlow hlow' hhigh hhigh'
  | biweekly =>
    unfold periodShare calendarShare
    dsimp only
    rw [div_left_inj' (by norm_num), Int.cast_inj]
    exact hweeks
  | weekly =>
    unfold periodShare calendarShare
    dsimp only
    rw [div_left_inj' (by norm_num), Int.cast_inj]
    exact hweeks

theorem september_threeBehind :
    SharesOwnDays threeBehind 20697 20726 .monthly ↔
      20726 < LAST_DAY ∧ MidnightsNear threeBehind 20697 20726 .monthly :=
  shares_own_days_iff threeBehind (fun _ => show -(12 * hour) ≤ -10800000 by decide)
    (Zone.constant_stepsWithin _ _ (by decide)) 20697 20726 (by decide) (by decide) (by decide)
    .monthly

/-- A zone twelve hours ahead of UTC. -/
def twelveAhead : Zone := .constant 43200000 (by decide) (by decide)

/-- March of 2026 is less than a month there, and even less in two parts. -/
theorem march_twelveAhead :
    civil 20513 = ⟨2026, 3, 1⟩ ∧ civil 20543 = ⟨2026, 3, 31⟩ ∧
    (∀ t, -(12 * hour) ≤ twelveAhead.offset t ∧ twelveAhead.offset t ≤ 14 * hour) ∧
    twelveAhead.StepsWithin hour ∧
    payRange twelveAhead (some 20513) (some 20543) = .ok (some 1772280000000, some 1774958399999) ∧
    periodShare 1772280000000 1774958399999 .monthly = 30 / 31 ∧
    calendarShare 20513 20543 .monthly = 1 ∧ ¬ SharesOwnDays twelveAhead 20513 20543 .monthly ∧
    payRange twelveAhead (some 20513) (some 20527) = .ok (some 1772280000000, some 1773575999999) ∧
    payRange twelveAhead (some 20528) (some 20543) = .ok (some 1773576000000, some 1774958399999) ∧
    periodShare 1772280000000 1773575999999 .monthly +
      periodShare 1773576000000 1774958399999 .monthly = 29 / 31 := by
  refine ⟨by decide +kernel, by decide +kernel,
    fun _ => show -(12 * hour) ≤ 43200000 ∧ 43200000 ≤ 14 * hour by decide,
    Zone.constant_stepsWithin _ _ (by decide), by decide +kernel, by decide +kernel, by decide +kernel,
    ?_, by decide +kernel, by decide +kernel, by decide +kernel⟩
  rintro ⟨start, stop, hrange, hshare⟩
  have hrange' : payRange twelveAhead (some 20513) (some 20543) =
      .ok (some 1772280000000, some 1774958399999) := by decide +kernel
  rw [hrange', Except.ok.injEq, Prod.mk.injEq, Option.some.injEq, Option.some.injEq] at hrange
  obtain ⟨rfl, rfl⟩ := hrange
  revert hshare
  decide +kernel

end Barbershop
