import Barbershop.Agenda.PublicSlots

/-!
# Dates on which the list and the checks agree

On a date whose offset is one, the slot list and the checks agree at every clock exactly when the offset
is whole minutes and no change of the clocks misleads the two guesses of `zonedTimeToUtc`: for a minute
of the date that is skipped, or for the midnight the date ends with (`list_and_checks_agree_iff`).
-/

namespace Barbershop

open Lib Calendar LocalTime

variable {z : Zone} {n o t now : ℤ}

/-- At every clock from 1970 on that lets the date be booked, the list and the checks agree. -/
def AlwaysAgree (z : Zone) (n : ℤ) : Prop :=
  ∀ (shop : PublicShop) (now : ℤ), shop.timeZone = z → 0 ≤ now →
    withinBookingWindow (civil n) now z = true → SlotsAgree shop (civil n) now

/-- A minute of the day before 23:59 that the clocks skip, and that is taken for another time of the
same day: as much later as they jump, or as much earlier with clocks behind UTC. -/
def Displaced (z : Zone) (n : ℤ) : Prop :=
  ∃ m c, 0 ≤ m ∧ m < 1439 ∧ c + z.offset (c - 1) ≤ n * day + m * 60000 ∧
    n * day + m * 60000 < c + z.offset c ∧
    (if c ≤ n * day + m * 60000 then n * day + m * 60000 + (z.offset c - z.offset (c - 1))
      else n * day + m * 60000 - (z.offset c - z.offset (c - 1))) / day = n

/-! ## Instants from 1970 on -/

theorem notBefore_without_lead (id : ℕ) (z : Zone) (now : ℤ) :
    PublicShop.notBefore { id := id, timeZone := z, minBookingLeadMinutes := none } now = now := by
  simp [PublicShop.notBefore]

theorem ofOurEra_of_nonneg (ht : 0 ≤ t) : OfOurEra z t := by
  have hnear := z.wall_near t
  have hyear : 100 ≤ (civil (z.localDay t)).year := year_100_le.2 (by unfold YEAR_100; omega)
  unfold OfOurEra
  omega

/-- The time of a day an instant shows. -/
theorem wall_of_shown (ht : 0 ≤ t) (hdate : (toZonedParts t z).dateStr = civil n) :
    z.localDay t = n ∧ n * 86400000 + (toZonedParts t z).minutesOfDay * 60000 ≤ z.wall t ∧
      z.wall t < n * 86400000 + (toZonedParts t z).minutesOfDay * 60000 + 60000 := by
  have hday := (dateStr_eq_civil_iff (ofOurEra_of_nonneg ht)).1 hdate
  rw [toZonedParts_minutesOfDay]
  refine ⟨hday, ?_⟩
  unfold Zone.localDay day at hday
  omega

theorem addDaysStr_civil {days : ℤ} (hn : FIRST_DAY ≤ n) (hfirst : FIRST_DAY ≤ n + days)
    (hlast : n + days ≤ LAST_DAY) : addDaysStr (civil n) days = some (civil (n + days)) := by
  have hyear := firstDay_le.1 hn
  unfold addDaysStr dateUTC
  rw [fullYear_of_le hyear, sub_add_cancel, dayNumber_add, dayNumber_civil]
  simp only [zero_mul, add_zero]
  have hbounds := hfirst
  have hbounds' := hlast
  unfold FIRST_DAY at hbounds
  unfold LAST_DAY at hbounds'
  rw [timeClip, if_pos (by omega)]
  exact isoDate_day hfirst hlast

/-- A clock ninety days before a date lets it be booked. -/
theorem withinBookingWindow_ninety (hnow : 0 ≤ now) (hday : z.localDay now = n - 90)
    (hn : 90 < n) (hlast : n ≤ LAST_DAY) : withinBookingWindow (civil n) now z = true := by
  unfold withinBookingWindow
  rw [toZonedParts_dateStr (ofOurEra_of_nonneg hnow), hday,
    show PUBLIC_BOOKING_WINDOW_DAYS = 90 from rfl,
    addDaysStr_civil (by unfold FIRST_DAY; omega) (by unfold FIRST_DAY; omega) (by omega)]
  simp [isAfter]

section Dates

variable (hz : z.StepsWithin 7200000)
include hz

section OneOffset

variable (ho : ∀ t, z.localDay t = n → z.offset t = o)
include ho

/-- The middle of a day of one offset is not skipped. -/
theorem wall_instant_of_midday {w : ℤ} (hfrom : n * 86400000 + 10800000 ≤ w)
    (hto : w ≤ n * 86400000 + 75600000) : z.wall (z.instant w) = w := by
  rcases z.shown_or_skipped w with hshown | ⟨c, hskip, hskip'⟩
  · exact hshown
  · have hstep := hz c
    have hbefore := ho (c - 1) (localDay_eq_iff.2 (by unfold Zone.wall; omega))
    have hafter := ho c (localDay_eq_iff.2 (by unfold Zone.wall; omega))
    omega

/-- A day that no minute of is displaced starts with its midnight. -/
theorem not_late_of_not_displaced (hplain : ¬ Displaced z n) : ¬ z.Late (n * 86400000) := by
  rintro ⟨c, hc, ⟨hback, hback'⟩ | ⟨hforth, hforth'⟩⟩
  · have hstep := hz c
    have hbefore := z.bounds (c - 1)
    have hafter := z.bounds c
    have hlast := ho (c - 1) (localDay_eq_iff.2 (by unfold Zone.wall; omega))
    have h := z.around_change (w := n * 86400000) (c := c) (by omega) (by omega) (by omega)
      (n * 86400000 - z.offset c) (by omega) (by omega)
    rw [if_neg (by omega)] at h
    have hfirst := ho (n * 86400000 - z.offset c) (localDay_eq_iff.2 (by unfold Zone.wall; omega))
    omega
  · have hstep := hz c
    refine hplain ⟨0, c, le_rfl, by decide, ?_, ?_, ?_⟩
    · unfold day
      omega
    · unfold day
      omega
    · unfold day
      rw [if_pos (by omega)]
      omega

theorem timesAgree_of_plain {cutoff : ℤ} (hn : FIRST_DAY < n) (hn' : n < LAST_DAY)
    (hcutoff : 0 ≤ cutoff) (hwhole : o % 60000 = 0) (hplain : ¬ Displaced z n)
    (hcut : ¬ z.CutShort 60000 ((n + 1) * 86400000)) : TimesAgree z (civil n) cutoff := by
  have hlast := hn'
  unfold LAST_DAY at hlast
  have hrange := dayRangeUtc_civil hz hn
  rw [if_pos hn'] at hrange
  have hminute : ∀ t, z.localDay t = n → t % 60000 = 0 → z.wall t % 60000 = 0 := by
    intro t hday ht
    have := ho t hday
    unfold Zone.wall
    omega
  refine ⟨?_, ?_⟩
  · intro t m hlate hdate hm hm'
    obtain ⟨hday, hfrom, hto⟩ := wall_of_shown (by omega) hdate
    rw [hrange, zonedTimeToUtc_civil_minute hz hn (by omega) hm (by omega)]
    constructor
    · rintro ⟨-, -, hinstant⟩
      have hinstant := Option.some.inj hinstant
      rcases z.shown_or_skipped (n * 86400000 + m * 60000) with hshown | ⟨c, hskip, hskip'⟩
      · rw [hinstant] at hshown
        have := ho t hday
        unfold Zone.wall at hshown hfrom hto
        omega
      · refine absurd ⟨m, c, hm, hm', hskip, hskip', ?_⟩ hplain
        rw [← z.wall_instant_of_skipped hskip hskip', hinstant]
        exact hday
    · rintro ⟨ht, rfl⟩
      have hwall := hminute t hday ht
      have hshown : z.wall t = n * 86400000 + (toZonedParts t z).minutesOfDay * 60000 := by omega
      have hback := z.wall_instant t
      have hday' : z.localDay (z.instant (z.wall t)) = n := by
        unfold Zone.localDay
        rw [hback]
        exact hday
      have hoffset := ho t hday
      have hoffset' := ho _ hday'
      rw [← hshown]
      refine ⟨_, rfl, congrArg some ?_⟩
      unfold Zone.wall at hback hoffset' ⊢
      omega
  · intro t hlate hdate ht hm'
    obtain ⟨hday, hfrom, hto⟩ := wall_of_shown (by omega) hdate
    have hwall := hminute t hday ht
    have hoffset := ho t hday
    have hstart := Zone.not_late_iff.1 (not_late_of_not_displaced hz ho hplain) t
      (localDay_eq_iff.1 hday).1
    have hend := (Zone.le_instant_iff hz (by decide) (by decide) (o := o)
      (fun u hu hu' => ho u (localDay_eq_iff.2 ⟨by omega, hu'⟩))).2 hcut
    refine ⟨_, hrange, hstart, ?_⟩
    unfold Zone.wall at hwall hfrom hto
    dsimp only
    omega

/-- A whole minute of UTC about noon, on the day. -/
theorem exists_midday : ∃ t, z.localDay t = n ∧ t % 60000 = 0 ∧
    n * 86400000 + 32400000 ≤ z.wall t ∧ z.wall t ≤ n * 86400000 + 50400000 := by
  have hnoon := wall_instant_of_midday hz ho (w := n * 86400000 + 43200000) (by omega) (by omega)
  have hnear := Zone.offset_near hz (w := z.instant (n * 86400000 + 43200000))
    (t := z.instant (n * 86400000 + 43200000) / 60000 * 60000) (by omega) (by omega)
  unfold Zone.wall at hnoon
  refine ⟨z.instant (n * 86400000 + 43200000) / 60000 * 60000, localDay_eq_iff.2 ?_, by omega, ?_⟩
  · unfold Zone.wall
    omega
  · unfold Zone.wall
    omega

theorem plain_of_timesAgree {cutoff : ℤ} (hn : FIRST_DAY < n) (hn' : n ≤ LAST_DAY)
    (hcutoff : 0 ≤ cutoff) (hearly : ∀ t, z.localDay t = n → cutoff < t)
    (h : TimesAgree z (civil n) cutoff) :
    n < LAST_DAY ∧ o % 60000 = 0 ∧ ¬ Displaced z n ∧ ¬ z.CutShort 60000 ((n + 1) * 86400000) := by
  have hlast := hn'
  unfold LAST_DAY at hlast
  have hdate : ∀ t, z.localDay t = n → (toZonedParts t z).dateStr = civil n := fun t hday =>
    (dateStr_eq_civil_iff (ofOurEra_of_nonneg (by have := hearly t hday; omega))).2 hday
  obtain ⟨t, hday, ht, hfrom, hto⟩ := exists_midday hz ho
  have hlate := hearly t hday
  obtain ⟨-, hshown, hshown'⟩ := wall_of_shown (by omega) (hdate t hday)
  obtain ⟨r, hr, -, hend⟩ := h.range t hlate (hdate t hday) ht (by omega)
  rw [dayRangeUtc_civil hz hn] at hr
  split at hr
  · next hbefore =>
    obtain rfl := Option.some.inj hr
    obtain ⟨r', hr', hinstant⟩ := (h.minutes t _ hlate (hdate t hday) (by omega) (by omega)).2
      ⟨ht, rfl⟩
    rw [zonedTimeToUtc_civil_minute hz hn (by omega) (by omega) (by omega)] at hinstant
    have hwall := wall_instant_of_midday hz ho
      (w := n * 86400000 + (toZonedParts t z).minutesOfDay * 60000) (by omega) (by omega)
    rw [Option.some.inj hinstant] at hwall
    have hoffset := ho t hday
    have hwhole : o % 60000 = 0 := by
      unfold Zone.wall at hwall
      omega
    refine ⟨hbefore, hwhole, ?_, ?_⟩
    · rintro ⟨m, c, hm, hm', hskip, hskip', hmoved⟩
      -- the instant of a skipped minute is of the day, and listed for a minute it does not show
      unfold day at hskip hskip' hmoved
      have hmoved' := z.wall_instant_of_skipped hskip hskip'
      have hday' : z.localDay (z.instant (n * 86400000 + m * 60000)) = n := by
        unfold Zone.localDay
        rw [hmoved']
        exact hmoved
      have hlate' := hearly _ hday'
      obtain ⟨ht', hminute⟩ := (h.minutes _ m hlate' (hdate _ hday') hm hm').1
        ⟨r', hr', zonedTimeToUtc_civil_minute hz hn (by omega) hm (by omega)⟩
      obtain ⟨-, hfrom', hto'⟩ := wall_of_shown (by omega) (hdate _ hday')
      have hoffset' := ho _ hday'
      rw [hminute] at hfrom' hto'
      unfold Zone.wall at hmoved' hfrom' hto'
      split at hmoved' <;> omega
    · rw [← Zone.le_instant_iff hz (by decide) (by decide) (o := o)
        (fun u hu hu' => ho u (localDay_eq_iff.2 ⟨by omega, hu'⟩))]
      unfold Zone.wall at hwall
      dsimp only at hend
      omega
  · cases hr

end OneOffset

end Dates

/-- A date of one offset: the list and the checks agree at every clock exactly when the offset is whole
minutes, no minute is displaced, the date does not end early, and another date follows it in print. -/
theorem list_and_checks_agree_iff (z : Zone) (hz : z.StepsWithin (2 * hour)) (n o : ℤ) (hn : 90 < n)
    (hn' : n ≤ LAST_DAY) (ho : ∀ t, z.localDay t = n → z.offset t = o) :
    AlwaysAgree z n ↔
      n < LAST_DAY ∧ o % 60000 = 0 ∧ ¬ Displaced z n ∧ ¬ z.CutShort 60000 ((n + 1) * day) := by
  have hfirst : FIRST_DAY < n := by
    unfold FIRST_DAY
    omega
  constructor
  · intro h
    obtain ⟨now, hnow⟩ := exists_localDay hz (n - 90)
    have hshown := localDay_eq_iff.1 hnow
    have hnear := z.wall_near now
    have hclock : 0 ≤ now := by omega
    have hwindow := withinBookingWindow_ninety hclock hnow hn hn'
    have htimes := (slots_agree_iff { id := 1, timeZone := z, minBookingLeadMinutes := none } _ now
      hwindow).1 (h _ now rfl hclock hwindow)
    have hlater : ∀ t, z.localDay t = n → now < t := by
      intro t hday
      have hlater := localDay_eq_iff.1 hday
      have hnear' := z.wall_near t
      omega
    rw [notBefore_without_lead] at htimes
    exact plain_of_timesAgree hz ho hfirst hn' hclock hlater htimes
  · rintro ⟨hlast, hwhole, hplain, hcut⟩ shop now rfl hclock hwindow
    refine (slots_agree_iff shop _ now hwindow).2
      (timesAgree_of_plain hz ho hfirst hlast ?_ hwhole hplain hcut)
    unfold PublicShop.notBefore
    omega

/-- São Paulo, 25 September 2026. -/
theorem agree_threeBehind : AlwaysAgree threeBehind 20721 := by
  refine (list_and_checks_agree_iff threeBehind ?_ 20721 (-10800000) (by decide) (by decide)
    (fun _ _ => rfl)).2 ⟨by decide, by decide, ?_, ?_⟩
  · intro t
    simp [threeBehind, Zone.constant]
  · rintro ⟨m, c, -, -, hskip, hskip', -⟩
    exact absurd (hskip.trans_lt hskip') (lt_irrefl _)
  · rintro ⟨c, hjump, -⟩
    exact absurd hjump (by simp [threeBehind, Zone.constant])

/-- The eve of a change at midnight, 3 November 2018 in São Paulo: the barber is off from 23:00 to
23:30, and half an hour at 23:00 is listed a day and a half before and refused. -/
theorem off_time_offered :
    (∀ t, midnightSkipped.localDay t = 17838 → midnightSkipped.offset t = -10800000) ∧
    withinBookingWindow (civil 17838) 1541160000000 midnightSkipped = true ∧
    (toZonedParts 1541296800000 midnightSkipped).dateStr = civil 17838 ∧
    ∃ a : Agenda, a.cat.barbers.get? 1 = some (soleBarber 1) ∧
      (∃ slots ∈ a.slotsForBarber 1 1 (soleBarber 1) 30 (civil 17838) midnightSkipped
        (some 1541160000000) none 1541160000000, 1541296800000 ∈ slots) ∧
      a.ensurePublicSlot
          { id := 1, timeZone := midnightSkipped, minBookingLeadMinutes := none } 1 30
          (some 1541296800000) 1541160000000 =
        .error (.badRequest "Profissional de folga nesse horário") := by
  refine ⟨?_, by decide +kernel, by decide +kernel,
    soleAgenda 1 (hoursBetween 540 1439) (1541296800000, 1541298600000)
      (hoursBetween_timed (by decide) (by decide)), rfl, ?_, ?_⟩
  · intro t hday
    have hwall := localDay_eq_iff.1 hday
    simp only [midnightSkipped, Zone.changing, Zone.wall] at hwall ⊢
    split at hwall <;> omega
  · have hlisted : ((soleAgenda 1 (hoursBetween 540 1439) (1541296800000, 1541298600000)
        (hoursBetween_timed (by decide) (by decide))).slotsForBarber 1 1 (soleBarber 1) 30
          (civil 17838) midnightSkipped (some 1541160000000) none 1541160000000).any
            (fun slots => decide (1541296800000 ∈ slots)) = true := by decide +kernel
    obtain ⟨slots, hslots, hmem⟩ := (Option.any_eq_true _ _).1 hlisted
    exact ⟨slots, hslots, of_decide_eq_true hmem⟩
  · decide +kernel

end Barbershop
