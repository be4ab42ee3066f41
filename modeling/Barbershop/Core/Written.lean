import Barbershop.Core.LocalDays

/-!
# A date and a time that are written

`zonedTimeToUtc` of a date of the calendar and a time of day that the zone shows gives an instant at
which the zone shows them, exactly when the years it meets on the way are read as they are
(`shown_as_written_iff`).
-/

namespace Barbershop

open Lib Calendar LocalTime

variable {z : Zone} {t w o b : ℤ}

/-! ## Offsets of other years -/

/-- A date lies in its year, or up to a year after when its day does. -/
theorem dayNumber_bounds {y m d : ℤ} (hm : 1 ≤ m) (hm' : m ≤ 12) (hd : 1 ≤ d) (hd' : d ≤ 366) :
    yearStart y ≤ dayNumber y m d ∧ dayNumber y m d ≤ yearStart y + 732 := by
  have hleap := leapDay_bounds y
  have hstart := monthStart_bounds hleap hm (by omega)
  rw [dayNumber_of_month hm hm']
  omega

/-- The year that `Date.UTC` is asked for by `offsetMs`. -/
def readYear (year : ℤ) : ℤ := fullYear (if year ≤ 0 then 1 - year else year)

/-- `offsetMs` is the start of the year it asks for, up to two years, less the instant. -/
theorem offsetMs_bounds (hlow : -b ≤ t) (hhigh : t ≤ b) (hb : b ≤ 2000000000000000) :
    ∃ o, offsetMs t z = some o ∧
      yearStart (readYear (civil (z.localDay t)).year) * 86400000 - t ≤ o ∧
      o ≤ (yearStart (readYear (civil (z.localDay t)).year) + 733) * 86400000 - t ∧
      yearStart (readYear (civil (z.localDay t)).year) * 86400000 ≤ b + 1000000000000 := by
  have hwall := z.wall_near t
  have hvalid := civil_valid (z.localDay t)
  have hspec := yearOf_spec (z.localDay t)
  have hday := localDay_eq_iff.1 (rfl : z.localDay t = z.localDay t)
  have hlength := monthLength_le (y := (civil (z.localDay t)).year) hvalid.month.1 hvalid.month.2
  have hnumber := dayNumber_bounds (y := readYear (civil (z.localDay t)).year) hvalid.month.1
    hvalid.month.2 hvalid.day.1 (by have := hvalid.day.2; omega)
  have hyear : 100 ≤ readYear (civil (z.localDay t)).year ∧
      yearStart (readYear (civil (z.localDay t)).year) * 86400000 ≤ b + 1000000000000 := by
    rw [← civil_year] at hspec
    unfold yearStart at hspec ⊢
    unfold readYear fullYear
    split <;> split <;> omega
  have hfirst := yearStart_le_of_le hyear.1
  have htime : 0 ≤ z.wall t % 86400000 ∧ z.wall t % 86400000 < 86400000 := by omega
  unfold offsetMs formatToParts dateUTC
  dsimp only
  rw [sub_add_cancel]
  change ∃ o, (timeClip (dayNumber (readYear _) _ _ * _ + _ + _ + _) >>= fun asUtc =>
    some (asUtc - _)) = some o ∧ _
  rw [timeClip, if_pos]
  · refine ⟨_, rfl, ?_, ?_, hyear.2⟩
    · omega
    · omega
  · rw [show yearStart 100 = -683003 by decide] at hfirst
    omega

theorem yearStart_readYear (year : ℤ) : -683003 ≤ yearStart (readYear year) := by
  have hyear : 100 ≤ readYear year := by
    unfold readYear fullYear
    split <;> split <;> omega
  exact yearStart_le_of_le hyear

/-- There is an instant for every date and time that can be written with four digits for the year and
two for the others. -/
theorem zonedTimeToUtc_isSome (z : Zone) {date : Date} {m : ℤ} (hy : 0 ≤ date.year)
    (hy' : date.year ≤ 9999) (hm : 0 ≤ date.month) (hm' : date.month ≤ 99) (hd : 0 ≤ date.day)
    (hd' : date.day ≤ 99) (ht : 0 ≤ m) (ht' : m ≤ 1440) :
    ∃ s, zonedTimeToUtc date m z = some s := by
  have hwall : -300000000000000 ≤ dayNumber (fullYear date.year) date.month date.day * 86400000 +
      m * 60000 ∧ dayNumber (fullYear date.year) date.month date.day * 86400000 + m * 60000 ≤
        300000000000000 := by
    have hfull : 100 ≤ fullYear date.year ∧ fullYear date.year ≤ 9999 := by
      unfold fullYear
      split <;> omega
    have hleap := leapDay_bounds (fullYear date.year + (date.month - 1) / 12)
    have hmonth := monthStart_bounds (m := (date.month - 1) % 12 + 1) hleap (by omega) (by omega)
    unfold dayNumber yearStart
    dsimp only
    omega
  have hutc : dateUTC date.year (date.month - 1) date.day 0 m 0 =
      some (dayNumber (fullYear date.year) date.month date.day * 86400000 + m * 60000) := by
    unfold dateUTC
    rw [sub_add_cancel, timeClip_eq_some]
    omega
  generalize dayNumber (fullYear date.year) date.month date.day * 86400000 + m * 60000 = w
    at hwall hutc
  obtain ⟨o, ho, hfrom, hto, hmax⟩ := offsetMs_bounds (z := z) hwall.1 hwall.2 (by omega)
  have hmin := yearStart_readYear (civil (z.localDay w)).year
  obtain ⟨o', ho', hfrom', hto', hmax'⟩ := offsetMs_bounds (z := z) (t := w - o)
    (b := 1300000000000000) (by omega) (by omega) (by omega)
  have hmin' := yearStart_readYear (civil (z.localDay (w - o))).year
  refine ⟨w - o', ?_⟩
  unfold zonedTimeToUtc
  rw [hutc]
  simp only [Option.bind_eq_bind, Option.bind_some]
  rw [ho]
  simp only [Option.bind_some]
  rw [timeClip, if_pos (by omega)]
  simp only [Option.bind_some]
  rw [ho']
  exact if_pos (by omega)

/-! ## When it is the one that is meant -/

/-- The wall time that is written, to the minute. -/
def writtenWall (date : Date) (minutes : ℤ) : ℤ :=
  dayNumber date.year date.month date.day * 86400000 + minutes * 60000

/-- The wall time and what the zone shows at the two guesses for it are of the year 100 or later. -/
def ReadAsWritten (z : Zone) (w : ℤ) : Prop :=
  YEAR_100 ≤ w ∧ YEAR_100 ≤ z.wall w ∧ YEAR_100 ≤ z.wall (w - z.offset w)

/-- The clocks show a date and a time of day. -/
def Shows (z : Zone) (s : ℤ) (date : Date) (minutes : ℤ) : Prop :=
  (toZonedParts s z).dateStr = date ∧ (toZonedParts s z).minutesOfDay = minutes

theorem zonedTimeToUtc_steps {date : Date} {m s : ℤ} (h : zonedTimeToUtc date m z = some s) :
    ∃ o o', offsetMs (dayNumber (fullYear date.year) date.month date.day * 86400000 + m * 60000) z =
        some o ∧
      offsetMs (dayNumber (fullYear date.year) date.month date.day * 86400000 + m * 60000 - o) z =
        some o' ∧
      s = dayNumber (fullYear date.year) date.month date.day * 86400000 + m * 60000 - o' := by
  obtain ⟨w, hw, h⟩ := Option.bind_eq_some_iff.1 h
  unfold dateUTC at hw
  obtain ⟨-, hw⟩ := timeClip_eq_some.1 hw
  rw [sub_add_cancel, zero_mul, add_zero, zero_mul, add_zero] at hw
  subst hw
  obtain ⟨o, ho, h⟩ := Option.bind_eq_some_iff.1 h
  obtain ⟨guess, hguess, h⟩ := Option.bind_eq_some_iff.1 h
  obtain ⟨-, rfl⟩ := timeClip_eq_some.1 hguess
  obtain ⟨o', ho', h⟩ := Option.bind_eq_some_iff.1 h
  exact ⟨o, o', ho, ho', (timeClip_eq_some.1 h).2.symm⟩

theorem le_civil_year {y n : ℤ} : y ≤ (civil n).year ↔ yearStart y ≤ n := le_yearOf

/-- An instant a thousand years before our era prints as one of a year after 1000. -/
theorem printed_year_of_early (h : z.wall t < -1084405 * 86400000) :
    1000 ≤ (toZonedParts t z).dateStr.year := by
  have hyear : ¬ -999 ≤ (civil (z.localDay t)).year := by
    rw [le_civil_year, show yearStart (-999) = -1084405 by decide]
    unfold Zone.localDay day
    omega
  show 1000 ≤ if (civil (z.localDay t)).year ≤ 0 then 1 - (civil (z.localDay t)).year
    else (civil (z.localDay t)).year
  rw [if_pos (by omega)]
  omega

theorem readYear_two_digits {y : ℤ} (hy : 1 ≤ y) (hy' : y < 100) : readYear y = 1900 + y := by
  unfold readYear fullYear
  split <;> split <;> omega

theorem readYear_early {y : ℤ} (hy : y ≤ -99) : readYear y = 1 - y := by
  unfold readYear fullYear
  split <;> split <;> omega

/-- The offset of an instant of the years 1 to 99 is taken 1900 years off. -/
theorem offsetMs_two_digits (hlow : -719162 * 86400000 ≤ z.wall t) (hhigh : z.wall t < YEAR_100)
    (ho : offsetMs t z = some o) :
    -25202 * 86400000 - t ≤ o ∧ o ≤ 11325 * 86400000 - t := by
  have hnear := z.wall_near t
  unfold YEAR_100 at hhigh
  obtain ⟨o', ho', hfrom, hto, -⟩ := offsetMs_bounds (z := z) (t := t) (b := 100000000000000)
    (by omega) (by omega) (by omega)
  obtain rfl := Option.some.inj (ho.symm.trans ho')
  have hyear : 1 ≤ (civil (z.localDay t)).year ∧ ¬ 100 ≤ (civil (z.localDay t)).year := by
    rw [le_civil_year, le_civil_year, show yearStart 1 = -719162 by decide,
      show yearStart 100 = -683003 by decide]
    unfold Zone.localDay day
    omega
  have hread := readYear_two_digits hyear.1 (not_le.1 hyear.2)
  have hstart := yearStart_le_of_le (show 1901 ≤ readYear (civil (z.localDay t)).year by omega)
  have hend := yearStart_le_of_le (show readYear (civil (z.localDay t)).year ≤ 1999 by omega)
  rw [show yearStart 1901 = -25202 by decide] at hstart
  rw [show yearStart 1999 = 10592 by decide] at hend
  omega

/-- The offset of an instant a thousand years before our era is taken in ours. -/
theorem offsetMs_early (hlow : -300000000000000 ≤ t) (hhigh : z.wall t < -1084405 * 86400000)
    (ho : offsetMs t z = some o) : -353920 * 86400000 - t ≤ o := by
  have hnear := z.wall_near t
  obtain ⟨o', ho', hfrom, -⟩ := offsetMs_bounds (z := z) (t := t) (b := 300000000000000)
    (by omega) (by omega) (by omega)
  obtain rfl := Option.some.inj (ho.symm.trans ho')
  have hyear : ¬ -999 ≤ (civil (z.localDay t)).year := by
    rw [le_civil_year, show yearStart (-999) = -1084405 by decide]
    unfold Zone.localDay day
    omega
  have hread := readYear_early (show (civil (z.localDay t)).year ≤ -99 by omega)
  have hstart := yearStart_le_of_le (show 1001 ≤ readYear (civil (z.localDay t)).year by omega)
  rw [show yearStart 1001 = -353920 by decide] at hstart
  omega

section Written

variable {date : Date} {m s : ℤ} (hdate : date.Valid) (hm : 0 ≤ m) (hm' : m < 1440)
include hdate hm hm'

omit hdate in
theorem writtenWall_day : writtenWall date m / 86400000 =
    dayNumber date.year date.month date.day := by
  unfold writtenWall
  omega

theorem civil_writtenWall : civil (writtenWall date m / 86400000) = date := by
  rw [writtenWall_day hm hm', civil_dayNumber hdate]

theorem shows_iff (hera : OfOurEra z s) :
    Shows z s date m ↔ z.wall s / 60000 = writtenWall date m / 60000 := by
  have hcivil := civil_writtenWall hdate hm hm'
  have hday := dateStr_eq_civil_iff (n := writtenWall date m / 86400000) hera
  rw [hcivil] at hday
  unfold Shows
  rw [hday, toZonedParts_minutesOfDay]
  unfold Zone.localDay day writtenWall
  omega

/-- A date of the years 0 to 99 is found 1900 years later. -/
theorem not_shows_of_two_digits (hs : zonedTimeToUtc date m z = some s) (hy : 0 ≤ date.year)
    (hy' : date.year < 100) : ¬ Shows z s date m := by
  have hfull : fullYear date.year = 1900 + date.year := if_pos ⟨hy, by omega⟩
  have hlength := monthLength_le (y := date.year) hdate.month.1 hdate.month.2
  have hnumber := dayNumber_bounds (y := 1900 + date.year) hdate.month.1 hdate.month.2
    hdate.day.1 (by have := hdate.day.2; omega)
  have hfirst := yearStart_le_of_le (show 1900 ≤ 1900 + date.year by omega)
  have hlast := yearStart_le_of_le (show 1900 + date.year ≤ 1999 by omega)
  rw [show yearStart 1900 = -25567 by decide] at hfirst
  rw [show yearStart 1999 = 10592 by decide] at hlast
  have hoff := z.bounds (dayNumber (1900 + date.year) date.month date.day * 86400000 + m * 60000)
  have hoff' := z.bounds (dayNumber (1900 + date.year) date.month date.day * 86400000 + m * 60000 -
    z.offset (dayNumber (1900 + date.year) date.month date.day * 86400000 + m * 60000))
  have hfound : zonedTimeToUtc date m z = some _ := zonedTimeToUtc_eq (by rw [hfull])
    (by unfold YEAR_100; omega) (by unfold Zone.wall YEAR_100; omega)
    (by unfold Zone.wall YEAR_100; omega) (by omega)
  have hs' := Option.some.inj (hs.symm.trans hfound)
  have hnear := z.instant_near
    (dayNumber (1900 + date.year) date.month date.day * 86400000 + m * 60000)
  have hwall := z.wall_near s
  rintro ⟨hshown, -⟩
  have hyear : 100 ≤ (civil (z.localDay s)).year := by
    rw [le_civil_year, show yearStart 100 = -683003 by decide]
    unfold Zone.localDay day
    omega
  have hprinted : (toZonedParts s z).dateStr.year = (civil (z.localDay s)).year :=
    if_neg (by omega)
  rw [hshown] at hprinted
  omega

theorem shown_as_written_iff (hs : zonedTimeToUtc date m z = some s) (hy : 0 ≤ date.year)
    (hy' : date.year ≤ 9999) (hshown : ∃ t, z.wall t = writtenWall date m) :
    Shows z s date m ↔ ReadAsWritten z (writtenWall date m) := by
  have hcivil := civil_writtenWall hdate hm hm'
  have hyear : YEAR_100 ≤ writtenWall date m ↔ 100 ≤ date.year := by
    rw [← year_100_le, hcivil]
  have hlast : writtenWall date m < 2932897 * 86400000 := by
    have : ¬ 10000 ≤ (civil (writtenWall date m / 86400000)).year := by
      rw [hcivil]
      omega
    rw [le_civil_year, show yearStart 10000 = 2932897 by decide] at this
    omega
  by_cases hcentury : date.year < 100
  · refine iff_of_false (not_shows_of_two_digits hdate hm hm' hs hy hcentury) ?_
    rintro ⟨hlow, -⟩
    have := hyear.1 hlow
    omega
  have hlow := hyear.2 (not_lt.1 hcentury)
  have hw : dayNumber (fullYear date.year) date.month date.day * 86400000 + m * 60000 =
      writtenWall date m := by
    rw [fullYear_of_le (not_lt.1 hcentury)]
    rfl
  constructor
  · intro hshown
    obtain ⟨o, o', ho, ho', rfl⟩ := zonedTimeToUtc_steps hs
    rw [hw] at ho ho' hshown
    have hnear := z.wall_near (writtenWall date m)
    have hlate : ∀ s, z.wall s < -1084405 * 86400000 → Shows z s date m →
        -681907 * 86400000 ≤ writtenWall date m := by
      intro s hearly hshown
      have hprinted := printed_year_of_early hearly
      rw [hshown.1, ← hcivil, le_civil_year, show yearStart 1000 = -354285 by decide] at hprinted
      omega
    unfold YEAR_100 at hlow
    by_contra hnot
    by_cases hfirst : YEAR_100 ≤ z.wall (writtenWall date m)
    · have hsecond : z.wall (writtenWall date m - z.offset (writtenWall date m)) < YEAR_100 := by
        by_contra hle
        exact hnot ⟨hlow, hfirst, not_lt.1 hle⟩
      obtain rfl := Option.some.inj (ho.symm.trans (offsetMs_eq hfirst (by omega)))
      have hoff := z.bounds (writtenWall date m)
      have hguess := z.wall_near (writtenWall date m - z.offset (writtenWall date m))
      obtain ⟨hfrom, -⟩ := offsetMs_two_digits (by omega) hsecond ho'
      have hwall := z.wall_near (writtenWall date m - o')
      unfold YEAR_100 at hsecond
      have := hlate _ (by omega) hshown
      omega
    · obtain ⟨hfrom, hto⟩ := offsetMs_two_digits (by omega) (not_le.1 hfirst) ho
      have hguess := z.wall_near (writtenWall date m - o)
      unfold YEAR_100 at hfirst
      have hfrom' := offsetMs_early (by omega) (by omega) ho'
      have hwall := z.wall_near (writtenWall date m - o')
      have := hlate _ (by omega) hshown
      omega
  · rintro ⟨-, hfirst, hsecond⟩
    have hfound := zonedTimeToUtc_eq hw hlow hfirst hsecond (by omega)
    obtain rfl := Option.some.inj (hs.symm.trans hfound)
    obtain ⟨t, ht⟩ := hshown
    have hwall := z.wall_instant t
    rw [ht] at hwall
    have hera : OfOurEra z (z.instant (writtenWall date m)) := by
      have : 100 ≤ (civil (z.localDay (z.instant (writtenWall date m)))).year :=
        year_100_le.2 (by rw [hwall]; exact hlow)
      unfold OfOurEra
      omega
    rw [shows_iff hdate hm hm' hera, hwall]

end Written

end Barbershop
