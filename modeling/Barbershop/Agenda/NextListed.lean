import Barbershop.Agenda.NextSlot

/-!
# The next slot is the first one listed

Both ways to ask for free slots read the same rows. Where the own days of the professionals are within
the hours of the unit, the search answers with the first slot of the first date whose list has one
(`next_slot_is_first_listed`).
-/

namespace Barbershop

open Lib Calendar LocalTime

variable {z : Zone} {n now : ℤ}

/-! ## Dates in order -/

theorem monthStart_le {leap m m' : ℤ} (hleap : 0 ≤ leap ∧ leap ≤ 1) (hm : 1 ≤ m) (h : m ≤ m') :
    monthStart leap m ≤ monthStart leap m' := by
  unfold monthStart
  split <;> split <;> omega

/-- A date that comes after another as a text is a later day. -/
theorem dayNumber_lt_of_isAfter {d e : Date} (hd : d.Valid) (he : e.Valid)
    (h : isAfter d e = true) :
    dayNumber e.year e.month e.day < dayNumber d.year d.month d.day := by
  obtain ⟨hm, hm'⟩ := hd.month
  obtain ⟨hk, hk'⟩ := hd.day
  obtain ⟨hf, hf'⟩ := he.month
  obtain ⟨hj, hj'⟩ := he.day
  have hleap := leapDay_bounds d.year
  have hleap' := leapDay_bounds e.year
  rw [dayNumber_of_month hm hm', dayNumber_of_month hf hf']
  have hstart := (monthStart_bounds hleap hm (by omega)).1
  have hend := (monthStart_bounds (m := e.month + 1) hleap' (by omega) (by omega)).2
  unfold monthLength at hj'
  unfold isAfter at h
  simp only [Bool.or_eq_true, Bool.and_eq_true, decide_eq_true_eq, beq_iff_eq] at h
  obtain hyear | ⟨hyear, hmonth | ⟨hmonth, hday⟩⟩ := h
  · have hnext := yearStart_succ e.year
    have hle := yearStart_le_of_le (show e.year + 1 ≤ d.year by omega)
    omega
  · rw [hyear] at hj' hleap' ⊢
    have hle := monthStart_le hleap (m := e.month + 1) (by omega) (show e.month + 1 ≤ d.month by omega)
    omega
  · rw [hyear, hmonth]
    omega

theorem isAfter_iff {d e : Date} (hd : d.Valid) (he : e.Valid) : isAfter d e = true ↔
    dayNumber e.year e.month e.day < dayNumber d.year d.month d.day := by
  constructor
  · exact dayNumber_lt_of_isAfter hd he
  · intro h
    by_contra hnot
    have hcases : isAfter e d = true ∨ e = d := by
      unfold isAfter at hnot ⊢
      simp only [Bool.or_eq_true, Bool.and_eq_true, decide_eq_true_eq, beq_iff_eq] at hnot ⊢
      rcases lt_trichotomy d.year e.year with hyear | hyear | hyear
      · exact .inl (.inl hyear)
      · rcases lt_trichotomy d.month e.month with hmonth | hmonth | hmonth
        · exact .inl (.inr ⟨hyear, .inl hmonth⟩)
        · rcases lt_trichotomy d.day e.day with hday | hday | hday
          · exact .inl (.inr ⟨hyear, .inr ⟨hmonth, hday⟩⟩)
          · cases d
            cases e
            cases hyear
            cases hmonth
            cases hday
            exact .inr rfl
          · exact absurd (.inr ⟨hyear.symm, .inr ⟨hmonth.symm, hday⟩⟩) hnot
        · exact absurd (.inr ⟨hyear.symm, .inl hmonth⟩) hnot
      · exact absurd (.inl hyear) hnot
    rcases hcases with hafter | rfl
    · have hlt := dayNumber_lt_of_isAfter he hd hafter
      omega
    · omega

theorem isAfter_civil {a b : ℤ} : isAfter (civil a) (civil b) = decide (b < a) := by
  rw [Bool.eq_iff_iff, isAfter_iff (civil_valid a) (civil_valid b), dayNumber_civil,
    dayNumber_civil, decide_eq_true_eq]

/-- Midnights are in the order of their days. -/
theorem midnight_le (hz : z.StepsWithin 7200000) {a b : ℤ} (h : a ≤ b) :
    z.instant (a * 86400000) ≤ z.instant (b * 86400000) := by
  induction b, h using Int.leInduction with
  | base => exact le_rfl
  | succ b _ ih =>
    refine ih.trans ?_
    have hbounds := z.bounds (b * 86400000)
    have hbounds' := z.bounds ((b + 1) * 86400000)
    have hnear := Zone.offset_near hz (w := b * 86400000)
      (t := b * 86400000 - z.offset (b * 86400000)) (by omega) (by omega)
    have hnear' := Zone.offset_near hz (w := (b + 1) * 86400000)
      (t := (b + 1) * 86400000 - z.offset ((b + 1) * 86400000)) (by omega) (by omega)
    have hnext := Zone.offset_near hz (w := b * 86400000) (t := (b + 1) * 86400000) (by omega)
      (by omega)
    unfold Zone.instant
    omega

/-- The clocks do not jump forward on a day: a later minute of it is no earlier instant. -/
def MinutesInOrder (z : Zone) (n : ℤ) : Prop :=
  ∀ m m', 0 ≤ m → m ≤ m' → m' < 1440 →
    z.instant (n * 86400000 + m * 60000) ≤ z.instant (n * 86400000 + m' * 60000)

/-! ## The loop of one day -/

/-- The loop that stops at its first slot finds the first of the list. -/
theorem head_slotLoop {turn : ℤ → Option (Option ℤ)} {last minutes : ℤ}
    (hturn : ∀ m, minutes ≤ m → m ≤ last → ∃ o, turn m = some o) :
    ∃ slots, slotLoop turn false last minutes = some slots ∧
      (slotLoop turn true last minutes).map List.head? = some slots.head? ∧
      ((∀ m m' s s', minutes ≤ m → m < m' → m' ≤ last → turn m = some (some s) →
        turn m' = some (some s') → s ≤ s') → slots.Pairwise (· ≤ ·)) := by
  induction hn : (last + 1 - minutes).toNat using Nat.strong_induction_on generalizing minutes with
  | _ k ih =>
    have hstep : SLOT_GRANULARITY_MIN = 15 := rfl
    rw [slotLoop.eq_def turn false last minutes, slotLoop.eq_def turn true last minutes]
    by_cases hle : minutes ≤ last
    · simp only [if_pos hle]
      have hrest : ∀ m, minutes + SLOT_GRANULARITY_MIN ≤ m → m ≤ last → ∃ o, turn m = some o :=
        fun m hm hm' => hturn m (by omega) hm'
      obtain ⟨slots, hslots, hfirst, hsorted⟩ := ih _ (by omega) hrest rfl
      obtain ⟨o, ho⟩ := hturn minutes le_rfl hle
      rw [ho]
      cases o with
      | none =>
        refine ⟨slots, hslots, hfirst, fun hmono => hsorted ?_⟩
        intro m m' s s' hm
        exact hmono m m' s s' (by omega)
      | some slot =>
        refine ⟨slot :: slots, by simp [hslots], by simp, fun hmono => ?_⟩
        refine List.pairwise_cons.2 ⟨fun s hs => ?_, hsorted ?_⟩
        · obtain ⟨slots', hslots', hmem⟩ := mem_slotLoop hrest
          obtain rfl := Option.some.inj (hslots.symm.trans hslots')
          obtain ⟨m, hm, hm', -, hslot⟩ := (hmem s).1 hs
          exact hmono minutes m slot s le_rfl (by omega) hm' ho hslot
        · intro m m' s s' hm
          exact hmono m m' s s' (by omega)
    · simp only [if_neg hle]
      exact ⟨[], rfl, rfl, fun _ => List.Pairwise.nil⟩

/-- Windows of the same minutes. -/
structure DayWindow.Same (w v : DayWindow) : Prop where
  start : minutesOfDay w.start = minutesOfDay v.start
  finish : minutesOfDay w.finish = minutesOfDay v.finish
  breakStart : w.breakStart = v.breakStart
  breakEnd : w.breakEnd = v.breakEnd

theorem DayWindow.Same.refl (w : DayWindow) : w.Same w := ⟨rfl, rfl, rfl, rfl⟩

theorem DayWindow.Same.slotAt_eq {w v : DayWindow} (h : w.Same v) {busy busy' : List (ℤ × ℤ)}
    (hbusy : ∀ r, r ∈ busy ↔ r ∈ busy') (barber : Barber) (duration cutoff : ℤ) (date : Date) :
    slotAt barber duration date z w busy cutoff = slotAt barber duration date z v busy' cutoff := by
  funext m
  have hpauses : w.pauses m (m + duration) = v.pauses m (m + duration) := by
    unfold DayWindow.pauses
    rw [h.breakStart, h.breakEnd]
  have hany : ∀ p : ℤ × ℤ → Bool, busy.any p = busy'.any p := by
    intro p
    rw [Bool.eq_iff_iff, List.any_eq_true, List.any_eq_true]
    simp only [hbusy]
  unfold slotAt
  simp only [hpauses, hany]

theorem DayWindow.Same.clip {w v : DayWindow} (h : w.Same v) (opening closing : ℕ) :
    Option.Rel DayWindow.Same (w.clip opening closing) (v.clip opening closing) := by
  unfold DayWindow.clip
  dsimp only
  rw [h.start, h.finish]
  split
  · exact .none
  · exact .some ⟨rfl, rfl, h.breakStart, h.breakEnd⟩

theorem mapM_eq_map {α β : Type} {f : α → Option β} {g : α → β} {l : List α}
    (h : ∀ a ∈ l, f a = some (g a)) : l.mapM f = some (l.map g) := by
  induction l with
  | nil => rfl
  | cons a l ih =>
    rw [List.mapM_cons, h a List.mem_cons_self, ih fun b hb => h b (List.mem_cons_of_mem a hb)]
    rfl

/-! ## What is loaded -/

namespace PublicPage

variable {p : PublicPage} {shop : PublicShop} {barbers : List (ℕ × Barber)} {barber : ℕ × Barber}
  {duration d : ℤ} {start finish date : Date} {rangeStart rangeEnd dayStart dayEnd : ℤ}

/-- An active day of a professional's own week is within the hours of the unit. -/
def OwnDaysFit (p : PublicPage) (barbershopId : ℕ) (barbers : List (ℕ × Barber)) : Prop :=
  ∀ k r, p.schedules.get? k = some r → r.isActive = true → (∃ barber ∈ barbers, barber.1 = r.barberId) →
    fitsShopHours r.startTime r.endTime (shopHoursOn (p.businessHours barbershopId) r.dayOfWeek) = true

theorem schedulesByBarber_find? (hbarber : barber ∈ barbers) :
    ((p.loadPeriod shop.id barbers start finish rangeStart rangeEnd).schedulesByBarber barber.1).find?
      (·.dayOfWeek == d) = p.ownDay barber.1 d := by
  have hmine : (barbers.map (·.1)).contains barber.1 = true :=
    List.contains_iff_mem.2 (List.mem_map_of_mem hbarber)
  unfold Period.schedulesByBarber loadPeriod Agenda.ownDay Table.filter Table.find?
  dsimp only
  rw [List.find?_filter, List.find?_map, List.find?_filter]
  congr 2
  funext r
  dsimp only [Function.comp]
  by_cases heq : r.2.barberId = barber.1
  · rw [← heq] at hmine
    rw [hmine, Bool.eq_iff_iff]
    simp
  · simp [heq]

theorem closureByDate_eq {a b : ℤ} (ha : a ≤ n) (hb : n < b) :
    (p.loadPeriod shop.id barbers (civil a) (civil b) rangeStart rangeEnd).closureByDate (civil n) =
      (p.closures.find? fun _ c => c.barbershopId == shop.id && c.date == civil n).map (·.2) := by
  have hmem : ∀ c, c ∈ (p.loadPeriod shop.id barbers (civil a) (civil b) rangeStart
      rangeEnd).closures.reverse ∧ (c.date == civil n) = true ↔
        ∃ k, p.closures.get? k = some c ∧ c.barbershopId = shop.id ∧ c.date = civil n := by
    intro c
    unfold loadPeriod
    dsimp only
    rw [List.mem_reverse, List.mem_map, beq_iff_eq]
    constructor
    · rintro ⟨⟨⟨k, c⟩, hc, rfl⟩, hdate⟩
      obtain ⟨hc, hcond⟩ := Table.mem_filter.1 hc
      simp only [Bool.and_eq_true, beq_iff_eq] at hcond
      exact ⟨k, hc, hcond.1.1, hdate⟩
    · rintro ⟨k, hc, hshop, hdate⟩
      refine ⟨⟨(k, c), Table.mem_filter.2 ⟨hc, ?_⟩, rfl⟩, hdate⟩
      rw [hshop, hdate, isAfter_civil, isAfter_civil]
      simp [ha, hb]
  unfold Period.closureByDate
  cases hfound : p.closures.find? fun _ c => c.barbershopId == shop.id && c.date == civil n with
  | none =>
    rw [Option.map_none, List.find?_eq_none]
    intro c hc hdate
    obtain ⟨k, hc, hshop, hdate⟩ := (hmem c).1 ⟨hc, hdate⟩
    have hnone := Table.find?_none.1 hfound k c hc
    simp [hshop, hdate] at hnone
  | some found =>
    obtain ⟨hc, hcond⟩ := Table.find?_some hfound
    simp only [Bool.and_eq_true, beq_iff_eq] at hcond
    cases hlast : (p.loadPeriod shop.id barbers (civil a) (civil b) rangeStart
        rangeEnd).closures.reverse.find? (·.date == civil n) with
    | none =>
      obtain ⟨hin, hdate⟩ := (hmem found.2).2 ⟨found.1, hc, hcond⟩
      exact absurd hdate (List.find?_eq_none.1 hlast found.2 hin)
    | some c =>
      obtain ⟨k, hk, hshop, hdate⟩ := (hmem c).1 ⟨List.mem_of_find?_eq_some hlast,
        List.find?_some (p := fun c : BarbershopClosure => c.date == civil n) hlast⟩
      obtain rfl := p.closureDates k found.1 c found.2 hk hc (hshop.trans hcond.1.symm)
        (hdate.trans hcond.2.symm)
      exact congrArg some (Option.some.inj (hk.symm.trans hc))

/-- Within the hours of the unit, clipping to them changes no minute. -/
theorem clipToShopHours_of_fits {hours : DayHours} {window : DayWindow}
    (hfits : fitsShopHours window.start window.finish hours = true)
    (hhours : ∀ h, hours = some h → minutesOfDay h.finish < 1440) :
    Option.Rel DayWindow.Same (some window) (clipToShopHours window hours) := by
  unfold fitsShopHours at hfits
  obtain ⟨h, rfl, hwithin⟩ := (Option.any_eq_true _ _).1 hfits
  simp only [Bool.and_eq_true, decide_eq_true_eq] at hwithin
  obtain ⟨⟨hlt, hopens⟩, hcloses⟩ := hwithin
  have hend := hhours h rfl
  unfold clipToShopHours DayWindow.clip
  simp only [Option.bind_some, max_eq_left hopens, min_eq_left hcloses, if_neg (not_le.2 hlt)]
  refine .some ⟨?_, ?_, rfl, rfl⟩
  · exact (minutesOfDay_hhmm (by omega)).symm
  · exact (minutesOfDay_hhmm (by omega)).symm

theorem writtenWindow_same (hfits : p.OwnDaysFit shop.id barbers) (hbarber : barber ∈ barbers) :
    Option.Rel DayWindow.Same
      (writtenWindow (p.ownDay barber.1 d) (shopHoursOn (p.businessHours shop.id) d))
      (p.getWorkingWindow shop.id barber.1 d) := by
  unfold writtenWindow Agenda.getWorkingWindow
  dsimp only
  cases hown : p.ownDay barber.1 d with
  | none =>
    cases shopHoursOn (p.businessHours shop.id) d with
    | none => exact .none
    | some hours => exact .some (DayWindow.Same.refl _)
  | some schedule =>
    by_cases hactive : schedule.isActive = true
    · simp only [if_pos hactive]
      obtain ⟨⟨k, r⟩, hrow, rfl⟩ := Option.map_eq_some_iff.1 hown
      obtain ⟨hrow, hcond⟩ := Table.find?_some hrow
      simp only [Bool.and_eq_true, beq_iff_eq] at hcond
      have hwithin := hfits k r hrow hactive ⟨barber, hbarber, hcond.1.symm⟩
      rw [hcond.2] at hwithin
      exact clipToShopHours_of_fits hwithin fun h hh => Agenda.shopHoursOn_timed hh
    · simp only [if_neg hactive]
      exact .none

/-- The two ways to a window are one, up to how its times are written. -/
theorem windowOnDate_same {schedules : List BarberSchedule} (date : Date) (hfits : p.OwnDaysFit shop.id barbers)
    (hbarber : barber ∈ barbers)
    (hown : ∀ d, schedules.find? (·.dayOfWeek == d) = p.ownDay barber.1 d) :
    Option.Rel DayWindow.Same
      (windowOnDate schedules ((p.businessHours shop.id).getD DEFAULT_WORKING_HOURS)
        ((p.closures.find? fun _ c => c.barbershopId == shop.id && c.date == date).map (·.2)) date)
      (p.getWorkingWindowOn shop.id barber.1 date) := by
  unfold windowOnDate Agenda.getWorkingWindowOn
  cases dayOfWeekOf date with
  | none => exact .none
  | some d =>
    simp only [Option.bind_eq_bind, Option.bind_some]
    have hsame := writtenWindow_same (d := d) hfits hbarber
    unfold shopHoursOn at hsame
    rw [hown]
    generalize writtenWindow _ _ = w at hsame ⊢
    generalize p.getWorkingWindow _ _ _ = v at hsame ⊢
    cases p.closures.find? fun _ c => c.barbershopId == shop.id && c.date == date with
    | none => exact hsame
    | some found =>
      simp only [Option.map_some]
      cases given found.2.openTime with
      | none => exact .none
      | some openTime =>
        cases given found.2.closeTime with
        | none => exact .none
        | some closeTime =>
          cases hsame with
          | none =>
            simp only [Option.bind_some]
            split
            · exact .none
            · exact .some (DayWindow.Same.refl _)
          | some hsame => exact hsame.clip _ _

theorem personIds_eq (hbarber : barber ∈ barbers) :
    personIds (p.personLinks barbers) barber =
      samePersonBarberIds p.cat barber.1 (some barber.2) := by
  unfold personIds samePersonBarberIds personLinks Table.filter
  rw [Option.bind_some, Option.bind_some]
  cases hprofessional : barber.2.professionalId with
  | some professional =>
    have hknown : (barbers.filterMap (·.2.professionalId)).contains professional = true :=
      List.contains_iff_mem.2 (List.mem_filterMap.2 ⟨barber, hbarber, hprofessional⟩)
    simp only [List.filter_filter]
    congr 3
    apply List.filter_congr
    intro r _
    cases hrow : r.2.professionalId == some professional with
    | false => rfl
    | true =>
      rw [beq_iff_eq.1 hrow, Option.any_some, hknown]
      rfl
  | none =>
    cases huser : barber.2.userId with
    | none => rfl
    | some user =>
      have hknown : ((barbers.filter (·.2.professionalId.isNone)).filterMap
          (·.2.userId)).contains user = true := by
        refine List.contains_iff_mem.2 (List.mem_filterMap.2 ⟨barber, ?_, huser⟩)
        exact List.mem_filter.2 ⟨hbarber, by rw [hprofessional]; rfl⟩
      simp only [List.filter_filter]
      congr 3
      apply List.filter_congr
      intro r _
      cases hrow : r.2.userId == some user with
      | false => rfl
      | true =>
        rw [beq_iff_eq.1 hrow, Option.any_some, hknown]
        simp

theorem held_iff_exists {barberIds : List ℕ} {r : ℤ × ℤ} :
    p.Held barberIds none r ↔ ∃ id ∈ barberIds, p.Held [id] none r := by
  constructor
  · intro h
    cases h with
    | appointment h hperson hother hoccupies =>
      exact ⟨_, hperson, .appointment h (List.mem_singleton_self _) hother hoccupies⟩
    | timeOff h hperson => exact ⟨_, hperson, .timeOff h (List.mem_singleton_self _)⟩
  · rintro ⟨id, hid, h⟩
    cases h with
    | appointment h hperson hother hoccupies =>
      exact .appointment h (List.mem_singleton.1 hperson ▸ hid) hother hoccupies
    | timeOff h hperson => exact .timeOff h (List.mem_singleton.1 hperson ▸ hid)

theorem mem_busyRows {barberIds : List ℕ} {startAt endAt : ℤ} {id : ℕ} {r : ℤ × ℤ} :
    (id, r) ∈ p.busyRows barberIds startAt endAt ↔
      id ∈ barberIds ∧ p.Held [id] none r ∧ r.1 < endAt ∧ startAt < r.2 := by
  unfold busyRows
  rw [List.mem_append, List.mem_map, List.mem_map]
  constructor
  · rintro (⟨⟨k, x⟩, hx, heq⟩ | ⟨⟨k, x⟩, hx, heq⟩)
    · cases heq
      obtain ⟨hx, hcross⟩ := Table.mem_filter.1 hx
      simp only [Appointment.takes, Bool.and_eq_true, List.contains_iff_mem,
        decide_eq_true_eq] at hcross
      obtain ⟨hperson, ⟨hoccupies, hstart⟩, hend⟩ := hcross
      exact ⟨hperson, .appointment hx (List.mem_singleton_self _) (Option.some_ne_none k).symm hoccupies,
        hstart, hend⟩
    · cases heq
      obtain ⟨hx, hcross⟩ := Table.mem_filter.1 hx
      simp only [BarberTimeOff.takes, Bool.and_eq_true, List.contains_iff_mem,
        decide_eq_true_eq] at hcross
      exact ⟨hcross.1, .timeOff hx (List.mem_singleton_self _), hcross.2⟩
  · rintro ⟨hid, hheld, hstart, hend⟩
    cases hheld with
    | @appointment k x hx hperson hother hoccupies =>
      obtain rfl := List.mem_singleton.1 hperson
      refine .inl ⟨(k, x), Table.mem_filter.2 ⟨hx, ?_⟩, rfl⟩
      simp [Appointment.takes, *]
    | @timeOff k x hx hperson =>
      obtain rfl := List.mem_singleton.1 hperson
      refine .inr ⟨(k, x), Table.mem_filter.2 ⟨hx, ?_⟩, rfl⟩
      simp [BarberTimeOff.takes, *]

/-- What was loaded for the period and crosses a day of it is what crosses the day. -/
theorem mem_busyOn (hbarber : barber ∈ barbers) (hstart : rangeStart ≤ dayStart)
    (hend : dayEnd ≤ rangeEnd) {r : ℤ × ℤ} :
    r ∈ (p.loadPeriod shop.id barbers start finish rangeStart rangeEnd).busyOn barber dayStart dayEnd ↔
      r ∈ p.busyRanges (samePersonBarberIds p.cat barber.1 (some barber.2)) none dayStart dayEnd := by
  have hall : ∀ id ∈ samePersonBarberIds p.cat barber.1 (some barber.2),
      id ∈ (barbers.flatMap (personIds (p.personLinks barbers))).eraseDups := by
    intro id hid
    rw [List.mem_eraseDups, List.mem_flatMap]
    exact ⟨barber, hbarber, (personIds_eq hbarber).symm ▸ hid⟩
  rw [Agenda.mem_busyRanges, held_iff_exists]
  unfold Period.busyOn Period.busyByBarber loadPeriod
  dsimp only
  rw [personIds_eq hbarber, List.mem_flatMap]
  simp only [List.mem_filter, List.mem_map, Bool.and_eq_true, decide_eq_true_eq, beq_iff_eq]
  constructor
  · rintro ⟨id, hid, ⟨⟨⟨i, r⟩, ⟨hrow, rfl⟩, rfl⟩, hcross⟩⟩
    obtain ⟨-, hheld, -⟩ := mem_busyRows.1 hrow
    exact ⟨⟨i, hid, hheld⟩, hcross⟩
  · rintro ⟨⟨id, hid, hheld⟩, hlt, hlt'⟩
    refine ⟨id, hid, ⟨(id, r), ⟨mem_busyRows.2 ?_, rfl⟩, rfl⟩, hlt, hlt'⟩
    exact ⟨hall id hid, hheld, by omega, by omega⟩

/-! ## One day -/

section Day

variable {a b : ℤ} (duration : ℕ) (notBefore now : ℤ) (hz : shop.timeZone.StepsWithin 7200000)
  (hfirst : FIRST_DAY < n) (hlast : n < LAST_DAY) (ha : a ≤ n) (hb : n < b)
  (hfits : p.OwnDaysFit shop.id barbers)
include hz hfirst hlast ha hb hfits

/-- The first slot of a professional is the first of the list. -/
theorem firstSlot_eq (hbarber : barber ∈ barbers) :
    ∃ slots, p.slotsForBarber shop.id barber.1 barber.2 duration (civil n) shop.timeZone
        (some notBefore) none now = some slots ∧
      (p.loadPeriod shop.id barbers (civil a) (civil b) (shop.timeZone.instant (a * 86400000))
          (shop.timeZone.instant (b * 86400000))).firstSlot duration (civil n) shop.timeZone notBefore
        now (shop.timeZone.instant (n * 86400000)) (shop.timeZone.instant ((n + 1) * 86400000))
        barber = some slots.head? ∧
      (MinutesInOrder shop.timeZone n → slots.Pairwise (· ≤ ·)) := by
  have hbound := hlast
  unfold LAST_DAY at hbound
  generalize hperiod : p.loadPeriod shop.id barbers (civil a) (civil b)
    (shop.timeZone.instant (a * 86400000)) (shop.timeZone.instant (b * 86400000)) = period
  have hown : ∀ d, (period.schedulesByBarber barber.1).find? (·.dayOfWeek == d) =
      p.ownDay barber.1 d := by
    intro d
    rw [← hperiod]
    exact schedulesByBarber_find? hbarber
  have hclosure : period.closureByDate (civil n) = (p.closures.find? fun _ c =>
      c.barbershopId == shop.id && c.date == civil n).map (·.2) := by
    rw [← hperiod]
    exact closureByDate_eq ha hb
  have hbusy : ∀ r, r ∈ period.busyOn barber (shop.timeZone.instant (n * 86400000))
      (shop.timeZone.instant ((n + 1) * 86400000)) ↔
        r ∈ p.busyRanges (samePersonBarberIds p.cat barber.1 (some barber.2)) none
          (shop.timeZone.instant (n * 86400000)) (shop.timeZone.instant ((n + 1) * 86400000)) := by
    intro r
    rw [← hperiod]
    exact mem_busyOn hbarber (midnight_le hz ha) (midnight_le hz hb)
  have hweek : period.week = (p.businessHours shop.id).getD DEFAULT_WORKING_HOURS := by
    rw [← hperiod]
    rfl
  have hsame := windowOnDate_same (civil n) hfits hbarber hown
  have hdays := dayRangeUtc_civil hz hfirst
  rw [if_pos hlast] at hdays
  unfold Agenda.slotsForBarber Period.firstSlot
  rw [hdays, hweek, hclosure]
  generalize hwindow : p.getWorkingWindowOn shop.id barber.1 (civil n) = v at hsame ⊢
  generalize windowOnDate _ _ _ _ = w at hsame ⊢
  cases hsame with
  | none => exact ⟨[], rfl, rfl, fun _ => List.Pairwise.nil⟩
  | @some w v hsame =>
    have htimed : minutesOfDay v.finish < 1440 := Agenda.getWorkingWindowOn_timed hwindow
    have hminute : ∀ m, (minutesOfDay v.start : ℤ) ≤ m →
        m ≤ (minutesOfDay v.finish : ℤ) - duration →
          zonedTimeToUtc (civil n) m shop.timeZone =
            some (shop.timeZone.instant (n * 86400000 + m * 60000)) := fun m hm hm' =>
      zonedTimeToUtc_civil_minute hz hfirst (by omega) (by omega) (by omega)
    simp only [Option.bind_eq_bind, Option.bind_some]
    generalize p.busyRanges _ _ _ _ = ranges at hbusy ⊢
    have hturn : ∀ m, (minutesOfDay v.start : ℤ) ≤ m → m ≤ (minutesOfDay v.finish : ℤ) - duration →
        ∃ o, slotAt barber.2 duration (civil n) shop.timeZone v ranges notBefore m = some o :=
      fun m hm hm' => slotAt_isSome (hminute m hm hm')
    obtain ⟨slots, hslots, hhead, hsorted⟩ := head_slotLoop hturn
    refine ⟨slots, hslots, ?_, fun horder => hsorted ?_⟩
    · unfold computeSlots
      dsimp only
      rw [hsame.slotAt_eq hbusy, hsame.start, hsame.finish]
      rw [Option.map_eq_some_iff] at hhead
      obtain ⟨firsts, hloop, hhead⟩ := hhead
      rw [Option.getD_some, hloop, ← hhead]
      rfl
    · intro m m' s s' hm hlt hm' hs hs'
      have ht := (slotAt_eq_some.1 hs).2.1
      have ht' := (slotAt_eq_some.1 hs').2.1
      rw [hminute m hm (by omega)] at ht
      rw [hminute m' (by omega) hm'] at ht'
      rw [← Option.some.inj ht, ← Option.some.inj ht']
      exact horder m m' (by omega) (by omega) (by omega)

omit notBefore in
/-- The day of the search finds the first slot of the list of the day. -/
theorem earliestOn_eq {barbershopId : ℕ} {barberId : Option ℕ} {serviceIds : List ℕ}
    {services : List PublicService}
    (hservices : p.publicServices barbershopId serviceIds = .ok (services, duration))
    (hshop : p.shops barbershopId = some shop)
    (hchosen : p.chosenBarbers barbershopId barberId = .ok barbers)
    (hwithin : withinBookingWindow (civil n) now shop.timeZone = true)
    (horder : barberId = none → MinutesInOrder shop.timeZone n) (hlow : FIRST_DAY ≤ a) :
    ∃ slots, p.getPublicAvailableSlots barbershopId barberId serviceIds (some (civil n)) now =
        .ok (some slots) ∧
      (p.loadPeriod shop.id barbers (civil a) (civil b) (shop.timeZone.instant (a * 86400000))
          (shop.timeZone.instant (b * 86400000))).earliestOn barbers duration (civil a) shop.timeZone
        (shop.notBefore now) now (n - a) = some (slots.head?.map fun t => (civil n, t)) := by
  obtain rfl := p.shopIds barbershopId shop hshop
  have hdate : addDaysStr (civil a) (n - a) = some (civil (a + (n - a))) :=
    addDaysStr_civil hlow (by omega) (by omega)
  rw [add_sub_cancel] at hdate
  have hdays := dayRangeUtc_civil hz hfirst
  rw [if_pos hlast] at hdays
  generalize hperiod : p.loadPeriod shop.id barbers (civil a) (civil b)
    (shop.timeZone.instant (a * 86400000)) (shop.timeZone.instant (b * 86400000)) = period
  let list (barber : ℕ × Barber) := (p.slotsForBarber shop.id barber.1 barber.2 duration (civil n)
    shop.timeZone (some (shop.notBefore now)) none now).getD []
  have hlist : ∀ barber ∈ barbers, p.slotsForBarber shop.id barber.1 barber.2 duration (civil n)
        shop.timeZone (some (shop.notBefore now)) none now = some (list barber) ∧
      period.firstSlot duration (civil n) shop.timeZone (shop.notBefore now) now
        (shop.timeZone.instant (n * 86400000)) (shop.timeZone.instant ((n + 1) * 86400000)) barber =
          some (list barber).head? ∧
      (MinutesInOrder shop.timeZone n → (list barber).Pairwise (· ≤ ·)) := by
    intro barber hbarber
    obtain ⟨slots, hslots, hfirst, hsorted⟩ :=
      firstSlot_eq duration (shop.notBefore now) now hz hfirst hlast ha hb hfits hbarber
    have heq : list barber = slots := by
      dsimp only [list]
      rw [hslots, Option.getD_some]
    rw [heq, ← hperiod]
    exact ⟨hslots, hfirst, hsorted⟩
  have hfirsts := mapM_eq_map fun barber hbarber => (hlist barber hbarber).2.1
  unfold getPublicAvailableSlots Period.earliestOn
  rw [hservices, hdate]
  simp only [Option.bind_eq_bind, Option.bind_some, hdays, hfirsts]
  simp only [orRefuse, Option.elim_some, bind, Except.bind, hshop, if_pos hwithin]
  cases barberId with
  | some id =>
    unfold chosenBarbers at hchosen
    simp only [bind_eq_ok, pure_eq_ok] at hchosen
    obtain ⟨barber, hbarber, rfl⟩ := hchosen
    obtain ⟨hslots, -⟩ := hlist barber List.mem_cons_self
    refine ⟨list barber, ?_, ?_⟩
    · dsimp only
      rw [hbarber, ← hslots]
      rfl
    · rw [List.map_singleton, List.foldl_cons, List.foldl_nil, none_sooner]
      rfl
  | none =>
    cases hchosen
    have hlists := mapM_eq_map fun barber hbarber => (hlist barber hbarber).1
    refine ⟨((p.publicBarbers shop.id).map list).flatten.eraseDups.insertionSort (· ≤ ·), ?_, ?_⟩
    · dsimp only
      rw [hlists]
      rfl
    · rw [← foldl_sooner_eq, List.map_map]
      · rfl
      · intro l hl
        obtain ⟨barber, hbarber, rfl⟩ := List.mem_map.1 hl
        exact (hlist barber hbarber).2.2 (horder rfl)

end Day

/-! ## The days -/

/-- The loop stops at the first day that has a slot. -/
theorem searchDays_spec {α : Type} {f : ℤ → Option (Option α)} {o : ℤ → Option α} {days : ℕ}
    {i : ℤ} (h : ∀ j, i ≤ j → j < i + days → f j = some (o j)) :
    ∃ slot, searchDays f days i = some slot ∧
      (slot = none → ∀ j, i ≤ j → j < i + days → o j = none) ∧
      ∀ s ∈ slot, ∃ j, i ≤ j ∧ j < i + days ∧ o j = some s ∧ ∀ k, i ≤ k → k < j → o k = none := by
  induction days generalizing i with
  | zero => exact ⟨none, rfl, fun _ j hj hj' => by omega, fun s hs => by cases hs⟩
  | succ days ih =>
    have hnow := h i le_rfl (by omega)
    unfold searchDays
    rw [hnow]
    cases ho : o i with
    | some s =>
      refine ⟨some s, rfl, nofun, fun s' hs' => ?_⟩
      cases hs'
      exact ⟨i, le_rfl, by omega, ho, fun k hk hk' => by omega⟩
    | none =>
      obtain ⟨slot, hslot, hnone, hsome⟩ := ih (i := i + 1) fun j hj hj' =>
        h j (by omega) (by omega)
      refine ⟨slot, hslot, ?_, ?_⟩
      · intro heq j hj hj'
        by_cases hij : j = i
        · rw [hij, ho]
        · exact hnone heq j (by omega) (by omega)
      · intro s hs
        obtain ⟨j, hj, hj', hoj, hbefore⟩ := hsome s hs
        refine ⟨j, by omega, by omega, hoj, fun k hk hkj => ?_⟩
        by_cases hik : k = i
        · rw [hik, ho]
        · exact hbefore k (by omega) hkj

/-- Of lists of days from one on, the slot is the first of the first list that has one; `none`: all are
empty. -/
def FirstListed (lists : ℤ → Result (Option (List ℤ))) (first last : ℤ) :
    Option (Date × ℤ) → Prop
  | none => ∀ n, first ≤ n → n ≤ last → lists n = .ok (some [])
  | some (date, t) => ∃ n, first ≤ n ∧ n ≤ last ∧ date = civil n ∧
      (∃ later, lists n = .ok (some (t :: later))) ∧
      ∀ m, first ≤ m → m < n → lists m = .ok (some [])

/-- The day a search starts with: a date in the past counts as today. -/
def firstSearched (today : ℤ) (fromDate : Option Date) : ℤ :=
  fromDate.elim today fun d => max today (dayNumber d.year d.month d.day)

/-- The last day of a search, within what may be booked. -/
def lastSearched (today first maxDays : ℤ) : ℤ :=
  min (first + maxDays - 1) (today + PUBLIC_BOOKING_WINDOW_DAYS)

section Search

variable {barbershopId : ℕ} {barberId : Option ℕ} {serviceIds : List ℕ}
  {services : List PublicService × ℕ} {fromDate : Option Date} {maxDays : ℤ}

theorem start_eq {t : ℤ} (hfrom : ∀ d ∈ fromDate, d.Valid) :
    ((fromDate.filter (isAfter · (civil t))).getD (civil t)) = civil (firstSearched t fromDate) := by
  cases fromDate with
  | none => rfl
  | some d =>
    have hafter := isAfter_iff (hfrom d rfl) (civil_valid t)
    rw [dayNumber_civil] at hafter
    unfold firstSearched
    rw [Option.filter_some, Option.elim_some]
    by_cases h : isAfter d (civil t) = true
    · rw [if_pos h, max_eq_right (hafter.1 h).le, civil_dayNumber (hfrom d rfl), Option.getD_some]
    · rw [if_neg h, max_eq_left (not_lt.1 fun hlt => h (hafter.2 hlt)), Option.getD_none]

/-- The last day that may be booked, and what lies before it. -/
theorem lastDay_eq (hnow : 0 ≤ now) (hlast : z.localDay now + 91 < LAST_DAY) :
    FIRST_DAY < z.localDay now ∧
      addDaysStr (toZonedParts now z).dateStr PUBLIC_BOOKING_WINDOW_DAYS =
        some (civil (z.localDay now + 90)) ∧
      ∀ n ≤ z.localDay now + 90, withinBookingWindow (civil n) now z = true := by
  have hnear := z.wall_near now
  have hfirst : FIRST_DAY < z.localDay now := by
    unfold FIRST_DAY Zone.localDay day
    omega
  have hlastDay : addDaysStr (toZonedParts now z).dateStr PUBLIC_BOOKING_WINDOW_DAYS =
      some (civil (z.localDay now + 90)) := by
    rw [toZonedParts_dateStr (ofOurEra_of_nonneg hnow),
      show PUBLIC_BOOKING_WINDOW_DAYS = 90 from rfl]
    exact addDaysStr_civil (by omega) (by omega) (by omega)
  refine ⟨hfirst, hlastDay, fun n hn => ?_⟩
  unfold withinBookingWindow
  rw [hlastDay, Option.any_some, isAfter_civil]
  simpa using hn

variable (hz : shop.timeZone.StepsWithin 7200000) (hshop : p.shops barbershopId = some shop)
  (hservices : p.publicServices barbershopId serviceIds = .ok services)
  (hchosen : p.chosenBarbers barbershopId barberId = .ok barbers)
  (hfits : p.OwnDaysFit barbershopId barbers) (hnow : 0 ≤ now)
  (hlast : shop.timeZone.localDay now + 91 < LAST_DAY)
  (horder : barberId = none → ∀ n, shop.timeZone.localDay now ≤ n →
    n ≤ shop.timeZone.localDay now + 90 → MinutesInOrder shop.timeZone n)
include hz hshop hservices hchosen hfits hnow hlast horder

/-- From a day that may be booked on. -/
theorem searchFrom_spec {first : ℤ} (hfirst : shop.timeZone.localDay now ≤ first)
    (hwithin : first ≤ shop.timeZone.localDay now + 90) (hmaxDays : 0 ≤ maxDays) :
    ∃ slot, p.searchFrom shop barbers services.2 (civil first)
        (civil (shop.timeZone.localDay now + 90)) maxDays now = some slot ∧
      FirstListed (fun n => p.getPublicAvailableSlots barbershopId barberId serviceIds
        (some (civil n)) now) first (lastSearched (shop.timeZone.localDay now) first maxDays) slot := by
  obtain rfl := p.shopIds barbershopId shop hshop
  obtain ⟨hera, -, hwindow⟩ := lastDay_eq hnow hlast
  have hbound := hlast
  unfold LAST_DAY at hbound
  have hlastSearched : lastSearched (shop.timeZone.localDay now) first maxDays =
      first + min maxDays (shop.timeZone.localDay now + 90 - first + 1) - 1 := by
    unfold lastSearched PUBLIC_BOOKING_WINDOW_DAYS
    omega
  rw [hlastSearched]
  unfold searchFrom
  rw [dayNumber_civil, dayNumber_civil]
  generalize hdays : min maxDays (shop.timeZone.localDay now + 90 - first + 1) = days
  have hdays' : 0 ≤ days ∧ days ≤ shop.timeZone.localDay now + 90 - first + 1 := by omega
  have hfinish : addDaysStr (civil first) days = some (civil (first + days)) :=
    addDaysStr_civil (by omega) (by omega) (by omega)
  have hstart := zonedTimeToUtc_civil hz (n := first) (by omega) (by omega)
  have hend := zonedTimeToUtc_civil hz (n := first + days) (by omega) (by omega)
  simp only [hdays, hfinish, hstart, hend, Option.bind_eq_bind, Option.bind_some]
  generalize hperiod : p.loadPeriod shop.id barbers (civil first) (civil (first + days))
    (shop.timeZone.instant (first * 86400000)) (shop.timeZone.instant ((first + days) * 86400000)) =
      period
  have hturn : ∀ j, 0 ≤ j → j < 0 + (days.toNat : ℤ) → ∃ slots,
      p.getPublicAvailableSlots shop.id barberId serviceIds (some (civil (first + j))) now =
        .ok (some slots) ∧
      period.earliestOn barbers services.2 (civil first) shop.timeZone (shop.notBefore now) now j =
        some (slots.head?.map fun t => (civil (first + j), t)) := by
    intro j hj hj'
    obtain ⟨slots, hslots, hday⟩ := earliestOn_eq (n := first + j) (a := first) (b := first + days)
      services.2 now hz (by omega) (by omega) (by omega) (by omega) hfits hservices hshop hchosen
      (hwindow _ (by omega)) (fun hnone => horder hnone _ (by omega) (by omega)) (by omega)
    rw [add_sub_cancel_left, hperiod] at hday
    exact ⟨slots, hslots, hday⟩
  generalize period.earliestOn barbers services.2 (civil first) shop.timeZone (shop.notBefore now)
    now = turn at hturn ⊢
  obtain ⟨slot, hslot, hnone, hsome⟩ := searchDays_spec (i := 0) (f := turn)
    (o := fun j => (turn j).getD none) fun j hj hj' => by
      obtain ⟨slots, -, hday⟩ := hturn j hj hj'
      rw [hday, Option.getD_some]
  have hempty : ∀ j, 0 ≤ j → j < 0 + (days.toNat : ℤ) →
      (turn j).getD none = none →
      p.getPublicAvailableSlots shop.id barberId serviceIds (some (civil (first + j))) now =
        .ok (some []) := by
    intro j hj hj' ho
    obtain ⟨slots, hslots, hday⟩ := hturn j hj hj'
    rw [hday, Option.getD_some, Option.map_eq_none_iff, List.head?_eq_none_iff] at ho
    rw [hslots, ho]
  refine ⟨slot, hslot, ?_⟩
  cases slot with
  | none =>
    intro n hn hn'
    have hlist := hempty (n - first) (by omega) (by omega) (hnone rfl _ (by omega) (by omega))
    rwa [add_sub_cancel] at hlist
  | some s =>
    obtain ⟨j, hj, hj', hoj, hbefore⟩ := hsome s rfl
    obtain ⟨slots, hslots, hday⟩ := hturn j hj hj'
    rw [hday, Option.getD_some, Option.map_eq_some_iff] at hoj
    obtain ⟨t, ht, rfl⟩ := hoj
    obtain ⟨later, rfl⟩ := List.head?_eq_some_iff.1 ht
    refine ⟨first + j, by omega, by omega, rfl, ⟨later, hslots⟩, fun m hm hm' => ?_⟩
    have hlist := hempty (m - first) (by omega) (by omega) (hbefore _ (by omega) (by omega))
    rwa [add_sub_cancel] at hlist

end Search

end PublicPage

theorem noHours_timed : ∀ shop : ℕ, ∀ week ∈ (fun _ => none : ℕ → Option Week) shop,
    ∀ hours, some hours ∈ week → isTime hours.start = true ∧ isTime hours.finish = true :=
  fun _ _ h => absurd h (Option.some_ne_none _).symm

theorem noClosures_timed : ∀ k c, (Table.empty : Table BarbershopClosure).get? k = some c →
    (∀ time ∈ c.openTime, isTime time = true) ∧ ∀ time ∈ c.closeTime, isTime time = true :=
  fun _ _ h => absurd h (Option.some_ne_none _).symm

/-- A unit three hours behind UTC with one service and one professional, whose Thursdays are from an hour
of their own to 16:00. -/
def thursdayPage (opening : String) : PublicPage where
  cat :=
    { services := fun _ => none
      products := fun _ => none
      serviceHistories := fun _ => none
      barbers := Table.empty.insert (soleBarber 1) }
  db := .empty
  businessHours _ := none
  schedules := Table.empty.insert
    { barberId := 1
      dayOfWeek := 4
      startTime := opening.toList
      endTime := "16:00".toList
      breakStart := none
      breakEnd := none
      isActive := true
      shopWindow := none }
  closures := .empty
  timeOffs := .empty
  hoursTimed := noHours_timed
  closuresTimed := noClosures_timed
  shops shop := if shop = 1 then
    some { id := 1, timeZone := threeBehind, minBookingLeadMinutes := none } else none
  services := Table.empty.insert { barbershopId := 1, isActive := true, durationMinutes := 30 }
  shopIds k shop h := by
    split at h
    · next hk =>
      cases h
      exact hk.symm
    · cases h
  closureDates _ _ _ _ h := absurd h (by simp)

/-- Of a day that starts before the unit opens, the search offers the hour before, which the list does not
have: the search does not keep own days within the hours of the unit. -/
theorem next_slot_before_opening :
    ((thursdayPage "08:00").getPublicNextAvailableSlot 1 (some 1) [1] (some ⟨1970, 1, 15⟩)
        NEXT_AVAILABLE_DAYS 1000000000).toOption = some (some (some (⟨1970, 1, 15⟩, 1249200000))) ∧
      ((((thursdayPage "08:00").getPublicAvailableSlots 1 (some 1) [1] (some ⟨1970, 1, 15⟩)
        1000000000).toOption.bind id).bind List.head?) = some 1252800000 := by
  decide +kernel

end Barbershop
