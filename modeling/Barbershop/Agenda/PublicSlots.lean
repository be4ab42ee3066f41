import Barbershop.Agenda.WorkingWindow
import Barbershop.Core.Written

/-!
# The slot list and the check of a slot

The public page lists the free slots of a date (`slotsForBarber`): minutes of the working window, turned
into instants. A booking is checked again from the instant it sends (`ensurePublicSlot`,
`ensureBarberAvailable`), which is turned back into a date and a minute. The two agree on an instant
exactly when the zone turns minutes and instants of the date into each other and the midnights of the
date lie around them (`slots_agree_iff`).
-/

namespace Barbershop

open Lib Calendar LocalTime

def PUBLIC_BOOKING_WINDOW_DAYS : ℤ := 90

def SLOT_GRANULARITY_MIN : ℤ := 15

/-! ## The two sides -/

/-- What a unit's page goes by; `minBookingLeadMinutes` is one of `BOOKING_LEAD_MINUTES`. -/
structure PublicShop where
  id : ℕ
  timeZone : Zone
  minBookingLeadMinutes : Option ℕ

/-- The callers of `slotsForBarber` list from here. -/
def PublicShop.notBefore (shop : PublicShop) (now : ℤ) : ℤ :=
  now + shop.minBookingLeadMinutes.getD 0 * 60000

def PublicShop.leadMs (shop : PublicShop) : ℤ := max 0 (shop.minBookingLeadMinutes.getD 0) * 60000

/-- `dateStr > other`: texts with years of four digits compare as the dates do. -/
def isAfter (dateStr other : Date) : Bool :=
  decide (other.year < dateStr.year) || (other.year == dateStr.year &&
    (decide (other.month < dateStr.month) || (other.month == dateStr.month &&
      decide (other.day < dateStr.day))))

/-- A date may be booked. The text of a last day after the year 9999 starts with a sign, and all dates
come after it. -/
def withinBookingWindow (dateStr : Date) (now : ℤ) (timeZone : Zone) : Bool :=
  (addDaysStr (toZonedParts now timeZone).dateStr PUBLIC_BOOKING_WINDOW_DAYS).any fun lastDay =>
    !isAfter dateStr lastDay

/-- The minutes cross the break. -/
def DayWindow.pauses (window : DayWindow) (startMin endMin : ℤ) : Bool :=
  match given window.breakStart, given window.breakEnd with
  | some breakStart, some breakEnd =>
    decide (startMin < minutesOfDay breakEnd) && decide ((minutesOfDay breakStart : ℤ) < endMin)
  | _, _ => false

def BarberTimeOff.takes (off : BarberTimeOff) (startAt endAt : ℤ) : Bool :=
  decide (off.startAt < endAt) && decide (startAt < off.endAt)

/-- A turn of the loop of `computeSlots`: the slot at a minute if it is offered. An `Invalid Date` cannot
be printed. -/
def slotAt (barber : Barber) (duration : ℤ) (dateStr : Date) (timeZone : Zone) (window : DayWindow)
    (busyRanges : List (ℤ × ℤ)) (cutoff minutes : ℤ) : Option (Option ℤ) :=
  if window.pauses minutes (minutes + duration) then some none
  else do
    let slotStart ← zonedTimeToUtc dateStr minutes timeZone
    let slotEnd := slotStart + duration * 60000
    if slotStart ≤ cutoff then return none
    if !barber.withinEngagement slotStart then return none
    if busyRanges.any fun r => decide (slotStart < r.2) && decide (r.1 < slotEnd) then return none
    return some slotStart

/-- The loop of `computeSlots`, up to the last minute at which a slot fits. -/
def slotLoop (turn : ℤ → Option (Option ℤ)) (firstOnly : Bool) (last minutes : ℤ) :
    Option (List ℤ) :=
  if minutes ≤ last then do
    match ← turn minutes with
    | none => slotLoop turn firstOnly last (minutes + SLOT_GRANULARITY_MIN)
    | some slot =>
      if firstOnly then return [slot]
      else return slot :: (← slotLoop turn firstOnly last (minutes + SLOT_GRANULARITY_MIN))
  else some []
termination_by (last + 1 - minutes).toNat
decreasing_by all_goals unfold SLOT_GRANULARITY_MIN; omega

def computeSlots (barber : Barber) (duration : ℤ) (dateStr : Date) (timeZone : Zone)
    (window : Option DayWindow) (busyRanges : List (ℤ × ℤ)) (firstOnly : Bool)
    (notBefore : Option ℤ) (now : ℤ) : Option (List ℤ) :=
  match window with
  | none => some []
  | some window =>
    slotLoop (slotAt barber duration dateStr timeZone window busyRanges (notBefore.getD now))
      firstOnly (minutesOfDay window.finish - duration) (minutesOfDay window.start)

namespace Agenda

variable (a : Agenda)

/-- The appointments and the time off of a person that cross a range. -/
def busyRanges (barberIds : List ℕ) (exclude : Option ℕ) (startAt endAt : ℤ) : List (ℤ × ℤ) :=
  (a.db.appointments.filter fun id r =>
      barberIds.contains r.barberId && exclude != some id && r.takes startAt endAt).map
    (fun r => (r.2.startAt, r.2.endAt)) ++
  (a.timeOffs.filter fun _ r => barberIds.contains r.barberId && r.takes startAt endAt).map
    (fun r => (r.2.startAt, r.2.endAt))

/-- A list is `none` when a date of its queries cannot be told. -/
def slotsForBarber (barbershopId barberId : ℕ) (barber : Barber) (duration : ℤ) (dateStr : Date)
    (timeZone : Zone) (notBefore : Option ℤ) (exclude : Option ℕ) (now : ℤ) : Option (List ℤ) :=
  match a.getWorkingWindowOn barbershopId barberId dateStr with
  | none => some []
  | some window => do
    let barberIds := samePersonBarberIds a.cat barberId (some barber)
    let (dayStart, dayEnd) ← dayRangeUtc dateStr timeZone
    computeSlots barber duration dateStr timeZone (some window)
      (a.busyRanges barberIds exclude dayStart dayEnd) false notBefore now

/-- The input is the text of an instant, `none` for one that is not a date. -/
def ensurePublicSlot (barbershop : PublicShop) (barberId : ℕ) (durationMinutes : ℤ)
    (startAtInput : Option ℤ) (now : ℤ) : Result (ℤ × ℤ) := do
  let leadMs := barbershop.leadMs
  let startAt ← orRefuse (startAtInput.filter fun t => decide (now + leadMs < t))
    (.badRequest (if 0 < leadMs ∧ startAtInput.any (decide <| now < ·) then
      "Esse horário precisa de mais antecedência" else "Horário inválido"))
  let parts := toZonedParts startAt barbershop.timeZone
  refuseIf (withinBookingWindow parts.dateStr now barbershop.timeZone = false)
    (.badRequest "Esse dia ainda não está aberto para agendamento online")
  let endAt := startAt + durationMinutes * 60000
  let window ← orRefuse (a.getWorkingWindowOn barbershop.id barberId parts.dateStr)
    (.badRequest "Profissional não atende nesse dia")
  let startMin := parts.minutesOfDay
  refuseIf (startAt / 1000 % 60 ≠ 0 ∨ startAt % 1000 ≠ 0 ∨
      (startMin - minutesOfDay window.start) % SLOT_GRANULARITY_MIN ≠ 0)
    (.badRequest "Escolha um dos horários da lista")
  let endMin := startMin + durationMinutes
  refuseIf (startMin < minutesOfDay window.start ∨ minutesOfDay window.finish < endMin)
    (.badRequest "Horário fora do expediente do profissional")
  refuseIf (window.pauses startMin endMin = true)
    (.badRequest "Horário cai no intervalo do profissional")
  let person := a.cat.barbers.get? barberId
  let barberIds := samePersonBarberIds a.cat barberId person
  refuseIf (a.timeOffs.any (fun _ r => barberIds.contains r.barberId && r.takes startAt endAt) = true)
    (.badRequest "Profissional de folga nesse horário")
  return (startAt, endAt)

end Agenda

/-! ## Agreement -/

/-- For every agenda, barber, duration and instant of the date, the list has the instant exactly when the
checks accept it. -/
def SlotsAgree (shop : PublicShop) (date : Date) (now : ℤ) : Prop :=
  ∀ (a : Agenda) (barberId : ℕ) (barber : Barber) (duration : ℤ) (exclude : Option ℕ) (t : ℤ),
    a.cat.barbers.get? barberId = some barber → barber.barbershopId = shop.id → 1 ≤ duration →
    (toZonedParts t shop.timeZone).dateStr = date →
    ((∃ slots ∈ a.slotsForBarber shop.id barberId barber duration date shop.timeZone
        (some (shop.notBefore now)) exclude now, t ∈ slots) ↔
      ∃ slot, a.ensurePublicSlot shop barberId duration (some t) now = .ok slot ∧
        ensureBarberAvailable a.cat shop.id barberId slot.1 slot.2 exclude a.db = .ok ())

/-- From an instant on, the zone turns the minutes of a date before 23:59 and the whole minutes of UTC
into each other, and the midnights of the date are not after such an instant, nor before 23:59 as
counted from it. -/
structure TimesAgree (z : Zone) (date : Date) (cutoff : ℤ) : Prop where
  minutes : ∀ t m, cutoff < t → (toZonedParts t z).dateStr = date → 0 ≤ m → m < 1439 →
    ((∃ r, dayRangeUtc date z = some r ∧ zonedTimeToUtc date m z = some t) ↔
      t % 60000 = 0 ∧ (toZonedParts t z).minutesOfDay = m)
  range : ∀ t, cutoff < t → (toZonedParts t z).dateStr = date → t % 60000 = 0 →
    (toZonedParts t z).minutesOfDay < 1439 →
    ∃ r, dayRangeUtc date z = some r ∧ r.1 ≤ t ∧
      t + (1439 - (toZonedParts t z).minutesOfDay) * 60000 ≤ r.2

/-! ## What is listed -/

theorem mem_slotLoop {turn : ℤ → Option (Option ℤ)} {last minutes : ℤ}
    (hturn : ∀ m, minutes ≤ m → m ≤ last → ∃ o, turn m = some o) :
    ∃ slots, slotLoop turn false last minutes = some slots ∧ ∀ t, t ∈ slots ↔
      ∃ m, minutes ≤ m ∧ m ≤ last ∧ (m - minutes) % SLOT_GRANULARITY_MIN = 0 ∧
        turn m = some (some t) := by
  induction hn : (last + 1 - minutes).toNat using Nat.strong_induction_on generalizing minutes with
  | _ n ih =>
    unfold SLOT_GRANULARITY_MIN at ih ⊢
    rw [slotLoop]
    split
    · next hle =>
      have hrest : ∀ m, minutes + 15 ≤ m → m ≤ last → ∃ o, turn m = some o :=
        fun m hm hm' => hturn m (by omega) hm'
      obtain ⟨slots, hslots, hmem⟩ := ih _ (by omega) hrest rfl
      obtain ⟨o, ho⟩ := hturn minutes le_rfl hle
      have hfirst : ∀ t, (∃ m, minutes ≤ m ∧ m ≤ last ∧ (m - minutes) % 15 = 0 ∧
          turn m = some (some t)) ↔ o = some t ∨ t ∈ slots := by
        intro t
        rw [hmem]
        constructor
        · rintro ⟨m, hm, hm', hgrid, hslot⟩
          by_cases hnow : m = minutes
          · subst hnow
            exact .inl (Option.some.inj (ho.symm.trans hslot))
          · exact .inr ⟨m, by omega, hm', by omega, hslot⟩
        · rintro (rfl | ⟨m, hm, hm', hgrid, hslot⟩)
          · exact ⟨minutes, le_rfl, hle, by omega, ho⟩
          · exact ⟨m, by omega, hm', by omega, hslot⟩
      cases o with
      | none =>
        refine ⟨slots, ?_, fun t => ?_⟩
        · rw [ho]
          exact hslots
        · rw [hfirst]
          simp
      | some slot =>
        refine ⟨slot :: slots, ?_, fun t => ?_⟩
        · rw [ho]
          simp [SLOT_GRANULARITY_MIN, hslots]
        · rw [hfirst, List.mem_cons, Option.some.injEq, eq_comm]
    · next hle =>
      refine ⟨[], rfl, fun t => ⟨fun h => absurd h (by simp), ?_⟩⟩
      rintro ⟨m, hm, hm', -⟩
      omega

/-- A slot of a length at a minute is on the grid, in the window and off the break. -/
structure DayWindow.Fits (window : DayWindow) (duration minutes : ℤ) : Prop where
  start : minutesOfDay window.start ≤ minutes
  finish : minutes + duration ≤ minutesOfDay window.finish
  grid : (minutes - minutesOfDay window.start) % SLOT_GRANULARITY_MIN = 0
  working : window.pauses minutes (minutes + duration) = false

theorem DayWindow.Fits.lt {window : DayWindow} {duration minutes : ℤ}
    (h : window.Fits duration minutes) (hwindow : window.Timed) (hduration : 1 ≤ duration) :
    0 ≤ minutes ∧ minutes < 1439 ∧ minutes + duration ≤ 1439 := by
  have hstart := h.start
  have hfinish := h.finish
  unfold Timed at hwindow
  omega

theorem slotAt_eq_some {barber : Barber} {duration cutoff m t : ℤ} {date : Date} {z : Zone}
    {window : DayWindow} {busyRanges : List (ℤ × ℤ)} :
    slotAt barber duration date z window busyRanges cutoff m = some (some t) ↔
      window.pauses m (m + duration) = false ∧ zonedTimeToUtc date m z = some t ∧ cutoff < t ∧
        barber.withinEngagement t = true ∧
        ∀ r ∈ busyRanges, ¬ (t < r.2 ∧ r.1 < t + duration * 60000) := by
  unfold slotAt
  split
  · next h => simp [h]
  · next h =>
    rw [Bool.not_eq_true] at h
    rw [and_iff_right h]
    cases zonedTimeToUtc date m z with
    | none => simp
    | some s =>
      simp only [Option.bind_eq_bind, Option.bind_some]
      split
      · next hearly =>
        simp only [Option.pure_def, Option.some.injEq, reduceCtorEq, false_iff]
        rintro ⟨rfl, hlate, -⟩
        omega
      · next hlate =>
        split
        · next hout =>
          simp only [Option.pure_def, Option.some.injEq, reduceCtorEq, false_iff]
          rintro ⟨rfl, -, hin, -⟩
          simp [hin] at hout
        · next hin =>
          split
          · next hbusy =>
            simp only [Option.pure_def, Option.some.injEq, reduceCtorEq, false_iff]
            rintro ⟨rfl, -, -, hfree⟩
            obtain ⟨r, hr, hcross⟩ := List.any_eq_true.1 hbusy
            simp only [Bool.and_eq_true, decide_eq_true_eq] at hcross
            exact hfree r hr hcross
          · next hfree =>
            simp only [Option.pure_def, Option.some.injEq]
            constructor
            · rintro rfl
              refine ⟨rfl, by omega, by simpa using hin, ?_⟩
              intro r hr hcross
              exact hfree (List.any_eq_true.2 ⟨r, hr, by simpa using hcross⟩)
            · rintro ⟨rfl, -⟩
              rfl

theorem slotAt_isSome {barber : Barber} {duration cutoff m s : ℤ} {date : Date} {z : Zone}
    {window : DayWindow} {busyRanges : List (ℤ × ℤ)} (h : zonedTimeToUtc date m z = some s) :
    ∃ o, slotAt barber duration date z window busyRanges cutoff m = some o := by
  unfold slotAt
  rw [h]
  simp only [Option.bind_eq_bind, Option.bind_some]
  repeat' split
  all_goals exact ⟨_, rfl⟩

/-! ## What takes a person's time -/

namespace Agenda

variable {a : Agenda}

/-- An appointment that takes its slot, or a time off, of one of the rows of a person. -/
inductive Held (a : Agenda) (barberIds : List ℕ) (exclude : Option ℕ) : ℤ × ℤ → Prop where
  | appointment {k : ℕ} {r : Appointment} (h : a.db.appointments.get? k = some r)
      (hperson : r.barberId ∈ barberIds) (hother : exclude ≠ some k)
      (hoccupies : r.status.occupies = true) : Held a barberIds exclude (r.startAt, r.endAt)
  | timeOff {k : ℕ} {r : BarberTimeOff} (h : a.timeOffs.get? k = some r)
      (hperson : r.barberId ∈ barberIds) : Held a barberIds exclude (r.startAt, r.endAt)

theorem mem_busyRanges {barberIds : List ℕ} {exclude : Option ℕ} {startAt endAt : ℤ} {r : ℤ × ℤ} :
    r ∈ a.busyRanges barberIds exclude startAt endAt ↔
      a.Held barberIds exclude r ∧ r.1 < endAt ∧ startAt < r.2 := by
  unfold busyRanges
  rw [List.mem_append, List.mem_map, List.mem_map]
  constructor
  · rintro (⟨⟨k, x⟩, hx, rfl⟩ | ⟨⟨k, x⟩, hx, rfl⟩)
    · obtain ⟨hx, hcross⟩ := Table.mem_filter.1 hx
      simp only [Appointment.takes, Bool.and_eq_true, List.contains_iff_mem, bne_iff_ne,
        decide_eq_true_eq] at hcross
      obtain ⟨⟨hperson, hother⟩, ⟨hoccupies, hstart⟩, hend⟩ := hcross
      exact ⟨.appointment hx hperson hother hoccupies, hstart, hend⟩
    · obtain ⟨hx, hcross⟩ := Table.mem_filter.1 hx
      simp only [BarberTimeOff.takes, Bool.and_eq_true, List.contains_iff_mem,
        decide_eq_true_eq] at hcross
      exact ⟨.timeOff hx hcross.1, hcross.2⟩
  · rintro ⟨hheld, hstart, hend⟩
    cases hheld with
    | @appointment k x hx hperson hother hoccupies =>
      refine .inl ⟨(k, x), Table.mem_filter.2 ⟨hx, ?_⟩, rfl⟩
      simp [Appointment.takes, *]
    | @timeOff k x hx hperson =>
      refine .inr ⟨(k, x), Table.mem_filter.2 ⟨hx, ?_⟩, rfl⟩
      simp [BarberTimeOff.takes, *]

/-- Nothing takes a part of a slot. -/
def Free (a : Agenda) (barberIds : List ℕ) (exclude : Option ℕ) (startAt endAt : ℤ) : Prop :=
  ∀ r, a.Held barberIds exclude r → ¬ (startAt < r.2 ∧ r.1 < endAt)

/-- The two queries of the checks. -/
theorem free_iff {barberIds : List ℕ} {exclude : Option ℕ} {startAt endAt : ℤ} :
    a.Free barberIds exclude startAt endAt ↔
      (a.timeOffs.any fun _ r => barberIds.contains r.barberId && r.takes startAt endAt) = false ∧
      (a.db.appointments.find? fun id r => barberIds.contains r.barberId && exclude != some id &&
        r.takes startAt endAt) = none := by
  rw [Table.any_eq_false, Table.find?_none]
  constructor
  · intro hfree
    refine ⟨fun k x hx => ?_, fun k x hx => ?_⟩
    · by_contra hcross
      simp only [BarberTimeOff.takes, Bool.not_eq_false, Bool.and_eq_true, List.contains_iff_mem,
        decide_eq_true_eq] at hcross
      exact hfree _ (.timeOff hx hcross.1) ⟨hcross.2.2, hcross.2.1⟩
    · by_contra hcross
      simp only [Appointment.takes, Bool.not_eq_false, Bool.and_eq_true, List.contains_iff_mem,
        bne_iff_ne, decide_eq_true_eq] at hcross
      obtain ⟨⟨hperson, hother⟩, ⟨hoccupies, hstart⟩, hend⟩ := hcross
      exact hfree _ (.appointment hx hperson hother hoccupies) ⟨hend, hstart⟩
  · rintro ⟨hoff, hbooked⟩ r hheld ⟨hend, hstart⟩
    cases hheld with
    | @appointment k x hx hperson hother hoccupies =>
      have hcross := hbooked k x hx
      simp [Appointment.takes, *] at hcross
    | @timeOff k x hx hperson =>
      have hcross := hoff k x hx
      simp [BarberTimeOff.takes, *] at hcross

/-! ## Both sides in the same terms -/

section Sides

variable {shop : PublicShop} {barberId : ℕ} {barber : Barber} {duration now t : ℤ} {date : Date}
  {exclude : Option ℕ} {window : DayWindow}

/-- The slots of a date whose minutes all have instants. -/
theorem offered_iff {range : ℤ × ℤ}
    (hwindow : a.getWorkingWindowOn shop.id barberId date = some window)
    (hrange : dayRangeUtc date shop.timeZone = some range) (hduration : 1 ≤ duration)
    (hinstants : ∀ m, 0 ≤ m → m < 1440 → ∃ s, zonedTimeToUtc date m shop.timeZone = some s) :
    (∃ slots ∈ a.slotsForBarber shop.id barberId barber duration date shop.timeZone
        (some (shop.notBefore now)) exclude now, t ∈ slots) ↔
      ∃ m, window.Fits duration m ∧ zonedTimeToUtc date m shop.timeZone = some t ∧
        shop.notBefore now < t ∧ barber.withinEngagement t = true ∧
        ∀ r, a.Held (samePersonBarberIds a.cat barberId (some barber)) exclude r →
          r.1 < range.2 → range.1 < r.2 → ¬ (t < r.2 ∧ r.1 < t + duration * 60000) := by
  have htimed : minutesOfDay window.finish < 1440 := getWorkingWindowOn_timed hwindow
  unfold slotsForBarber
  rw [hwindow, hrange]
  simp only [Option.bind_eq_bind, Option.bind_some, computeSlots, Option.getD_some]
  have hturn : ∀ m : ℤ, minutesOfDay window.start ≤ m → m ≤ minutesOfDay window.finish - duration →
      ∃ o, slotAt barber duration date shop.timeZone window (a.busyRanges
        (samePersonBarberIds a.cat barberId (some barber)) exclude range.1 range.2)
        (shop.notBefore now) m = some o := by
    intro m hm hm'
    obtain ⟨s, hs⟩ := hinstants m (by omega) (by omega)
    exact slotAt_isSome hs
  obtain ⟨slots, hslots, hmem⟩ := mem_slotLoop hturn
  rw [hslots]
  simp only [Option.mem_some_iff, exists_eq_left', hmem, slotAt_eq_some, mem_busyRanges, and_imp]
  constructor
  · rintro ⟨m, hstart, hfinish, hgrid, hworking, hinstant, hlate, hin, hfree⟩
    exact ⟨m, ⟨hstart, by omega, hgrid, hworking⟩, hinstant, hlate, hin, fun r hheld h h' =>
      hfree r hheld h h'⟩
  · rintro ⟨m, hfits, hinstant, hlate, hin, hfree⟩
    exact ⟨m, hfits.start, by have := hfits.finish; omega, hfits.grid, hfits.working, hinstant,
      hlate, hin, fun r hheld h h' => hfree r hheld h h'⟩

theorem ensurePublicSlot_eq_ok {slot : ℤ × ℤ} :
    a.ensurePublicSlot shop barberId duration (some t) now = .ok slot ↔
      shop.notBefore now < t ∧
      withinBookingWindow (toZonedParts t shop.timeZone).dateStr now shop.timeZone = true ∧
      ∃ window, a.getWorkingWindowOn shop.id barberId (toZonedParts t shop.timeZone).dateStr =
          some window ∧
        t % 60000 = 0 ∧ window.Fits duration (toZonedParts t shop.timeZone).minutesOfDay ∧
        (a.timeOffs.any fun _ r =>
          (samePersonBarberIds a.cat barberId (a.cat.barbers.get? barberId)).contains r.barberId &&
            r.takes t (t + duration * 60000)) = false ∧
        slot = (t, t + duration * 60000) := by
  have hlead : now + shop.leadMs = shop.notBefore now := by
    unfold PublicShop.leadMs PublicShop.notBefore
    omega
  unfold ensurePublicSlot
  simp only [bind_eq_ok, exists_punit, refuseIf_eq_ok, orRefuse_eq_ok, pure_eq_ok, hlead,
    Option.filter_eq_some_iff, Option.some.injEq, decide_eq_true_eq, Bool.not_eq_false,
    Bool.not_eq_true, not_or, not_not, not_lt]
  constructor
  · rintro ⟨_, ⟨rfl, hlate⟩, hopen, window, hwindow, ⟨hs, hms, hgrid⟩, ⟨hstart, hfinish⟩, hworking,
      hoff, rfl⟩
    exact ⟨hlate, hopen, window, hwindow, by omega, ⟨hstart, hfinish, hgrid, hworking⟩, hoff, rfl⟩
  · rintro ⟨hlate, hopen, window, hwindow, hwhole, hfits, hoff, rfl⟩
    exact ⟨t, ⟨rfl, hlate⟩, hopen, window, hwindow, ⟨by omega, by omega, hfits.grid⟩,
      ⟨hfits.start, hfits.finish⟩, hfits.working, hoff, rfl⟩

theorem ensureBarberAvailable_eq_ok {startAt endAt : ℤ}
    (hbarber : a.cat.barbers.get? barberId = some barber)
    (hshop : barber.barbershopId = shop.id) :
    ensureBarberAvailable a.cat shop.id barberId startAt endAt exclude a.db = .ok () ↔
      barber.withinEngagement startAt = true ∧
      (a.db.appointments.find? fun id r =>
        (samePersonBarberIds a.cat barberId (some barber)).contains r.barberId &&
          exclude != some id && r.takes startAt endAt) = none := by
  have hrow : (a.cat.barbers.get? barberId).filter (·.barbershopId == shop.id) = some barber := by
    rw [hbarber]
    simp [hshop]
  unfold ensureBarberAvailable
  rw [hrow]
  simp only [bind_eq_ok, exists_punit, refuseIf_eq_ok, Option.mem_some_iff, exists_eq_left',
    Bool.not_eq_false]
  refine and_congr_right fun _ => ?_
  split
  · next hnone => exact iff_of_true rfl hnone
  · next hsome =>
    refine iff_of_false (by simp) ?_
    rw [hsome]
    simp

/-- What the checks ask of an instant. -/
theorem accepted_iff (hbarber : a.cat.barbers.get? barberId = some barber)
    (hshop : barber.barbershopId = shop.id) :
    (∃ slot, a.ensurePublicSlot shop barberId duration (some t) now = .ok slot ∧
        ensureBarberAvailable a.cat shop.id barberId slot.1 slot.2 exclude a.db = .ok ()) ↔
      shop.notBefore now < t ∧
      withinBookingWindow (toZonedParts t shop.timeZone).dateStr now shop.timeZone = true ∧
      ∃ window, a.getWorkingWindowOn shop.id barberId (toZonedParts t shop.timeZone).dateStr =
          some window ∧
        t % 60000 = 0 ∧ window.Fits duration (toZonedParts t shop.timeZone).minutesOfDay ∧
        barber.withinEngagement t = true ∧
        a.Free (samePersonBarberIds a.cat barberId (some barber)) exclude t
          (t + duration * 60000) := by
  simp only [ensurePublicSlot_eq_ok, ensureBarberAvailable_eq_ok hbarber hshop, hbarber, free_iff]
  constructor
  · rintro ⟨slot, ⟨hlate, hopen, window, hwindow, hwhole, hfits, hoff, rfl⟩, hin, hbooked⟩
    exact ⟨hlate, hopen, window, hwindow, hwhole, hfits, hin, hoff, hbooked⟩
  · rintro ⟨hlate, hopen, window, hwindow, hwhole, hfits, hin, hoff, hbooked⟩
    exact ⟨_, ⟨hlate, hopen, window, hwindow, hwhole, hfits, hoff, rfl⟩, hin, hbooked⟩

end Sides

end Agenda

/-! ## Dates of the booking window -/

section Dates

variable {shop : PublicShop} {date : Date} {now t : ℤ}

theorem isoDate_year (h : isoDate t = some date) : date.year ≤ 9999 := by
  unfold isoDate at h
  dsimp only at h
  split at h
  · cases h
  · split at h
    · obtain rfl := Option.some.inj h
      show (0 : ℤ) ≤ 9999
      decide
    · obtain rfl := Option.some.inj h
      omega

theorem year_of_withinBookingWindow {z : Zone} (h : withinBookingWindow date now z = true) :
    date.year ≤ 9999 := by
  obtain ⟨lastDay, hlast, hle⟩ := (Option.any_eq_true _ _).1 h
  obtain ⟨u, -, hiso⟩ := Option.bind_eq_some_iff.1 hlast
  have hyear := isoDate_year hiso
  simp only [isAfter, Bool.not_eq_true', Bool.or_eq_false_iff, decide_eq_false_iff_not] at hle
  omega

/-- All minutes of a date that is shown and may be booked have instants. -/
theorem instants_of_shown {z : Zone} (hwindow : withinBookingWindow date now z = true)
    (hdate : (toZonedParts t z).dateStr = date) {m : ℤ} (hm : 0 ≤ m) (hm' : m < 1440) :
    ∃ s, zonedTimeToUtc date m z = some s := by
  obtain ⟨⟨hmonth, hmonth'⟩, hday, hday'⟩ := civil_valid (z.localDay t)
  have hlength := monthLength_le (y := (civil (z.localDay t)).year) hmonth hmonth'
  have hyear := year_of_withinBookingWindow hwindow
  subst hdate
  unfold toZonedParts formatToParts at hyear ⊢
  refine zonedTimeToUtc_isSome z ?_ hyear ?_ ?_ ?_ ?_ hm hm'.le
  · dsimp only
    split <;> omega
  · dsimp only
    omega
  · dsimp only
    omega
  · dsimp only
    omega
  · dsimp only
    omega

theorem dayOfWeekOf_of_instant {z : Zone} {s : ℤ} (h : zonedTimeToUtc date 0 z = some s) :
    ∃ d, dayOfWeekOf date = some d ∧ 0 ≤ d ∧ d < 7 := by
  obtain ⟨w, hw, -⟩ := Option.bind_eq_some_iff.1 h
  refine ⟨(w / 86400000 + 4) % 7, ?_, by omega, by omega⟩
  unfold dayOfWeekOf
  rw [hw]
  rfl

theorem minutesOfDay_bounds (z : Zone) (t : ℤ) :
    0 ≤ (toZonedParts t z).minutesOfDay ∧ (toZonedParts t z).minutesOfDay < 1440 := by
  rw [toZonedParts_minutesOfDay]
  omega

end Dates

/-! ## An agenda with one barber -/

section Sole

variable {shop : PublicShop} {date : Date} {now t : ℤ} {opening closing : ℕ} {off : ℤ × ℤ}

/-- A barber without an account and without a term. -/
def soleBarber (shop : ℕ) : Barber :=
  { barbershopId := shop
    userId := none
    professionalId := none
    bookable := true
    isActive := true
    accessStartsAt := none
    accessEndsAt := none }

/-- One barber, the same hours every day and one time off. -/
def soleAgenda (shop : ℕ) (hours : Hours) (off : ℤ × ℤ)
    (htimed : isTime hours.start = true ∧ isTime hours.finish = true) : Agenda where
  cat :=
    { services := fun _ => none
      products := fun _ => none
      serviceHistories := fun _ => none
      barbers := Table.empty.insert (soleBarber shop) }
  db := .empty
  businessHours _ := some (List.replicate 7 (some hours))
  schedules := .empty
  closures := .empty
  timeOffs := Table.empty.insert { barberId := 1, startAt := off.1, endAt := off.2 }
  hoursTimed := by
    rintro _ week hweek hours' hmem
    obtain rfl := Option.some.inj hweek
    obtain rfl := Option.some.inj (List.eq_of_mem_replicate hmem)
    exact htimed
  closuresTimed _ _ h := absurd h (by simp)

/-- Hours in minutes. -/
def hoursBetween (opening closing : ℕ) : Hours := { start := hhmm opening, finish := hhmm closing }

theorem hoursBetween_timed (h : opening < closing) (hclosing : closing < 1440) :
    isTime (hoursBetween opening closing).start = true ∧
      isTime (hoursBetween opening closing).finish = true :=
  ⟨isTime_hhmm (h.trans hclosing), isTime_hhmm hclosing⟩

/-- A slot as long as the hours starts with them. -/
theorem fits_hoursBetween (h : opening < closing) (hclosing : closing < 1440) {m : ℤ} :
    (hoursBetween opening closing).window.Fits (closing - opening) m ↔ m = opening := by
  have hstart := minutesOfDay_hhmm (h.trans hclosing)
  have hfinish := minutesOfDay_hhmm hclosing
  constructor
  · rintro ⟨hlow, hhigh, -, -⟩
    simp only [Hours.window, hoursBetween, hstart, hfinish] at hlow hhigh
    omega
  · rintro rfl
    refine ⟨?_, ?_, ?_, rfl⟩
    · simp only [Hours.window, hoursBetween, hstart]
      omega
    · simp only [Hours.window, hoursBetween, hfinish]
      omega
    · simp only [Hours.window, hoursBetween, hstart, SLOT_GRANULARITY_MIN]
      omega

theorem soleAgenda_window (shop : ℕ) (off : ℤ × ℤ) {hours : Hours} (htimed) {d : ℤ}
    (hday : dayOfWeekOf date = some d) (hd : 0 ≤ d ∧ d < 7) :
    (soleAgenda shop hours off htimed).getWorkingWindowOn shop 1 date = some hours.window := by
  have hhours : shopHoursOn (some (List.replicate 7 (some hours))) d = some hours := by
    unfold shopHoursOn
    rw [Option.getD_some, List.getD_eq_getElem?_getD, List.getElem?_replicate, if_pos (by omega)]
    rfl
  have hweekday : (soleAgenda shop hours off htimed).getWorkingWindow shop 1 d =
      some hours.window := by
    show (shopHoursOn (some (List.replicate 7 (some hours))) d).map Hours.window = _
    rw [hhours]
    rfl
  unfold Agenda.getWorkingWindowOn
  rw [hday]
  exact hweekday

theorem held_soleAgenda {shop : ℕ} {hours : Hours} (htimed) {r : ℤ × ℤ} :
    (soleAgenda shop hours off htimed).Held [1] none r ↔ r = off := by
  constructor
  · intro h
    cases h with
    | appointment h => exact absurd h (by simp [soleAgenda, Db.empty])
    | timeOff h =>
      rcases Table.get?_insert_cases h with ⟨-, rfl⟩ | h
      · rfl
      · exact absurd h (by simp)
  · rintro rfl
    exact .timeOff (k := 1) (r := { barberId := 1, startAt := r.1, endAt := r.2 }) rfl (by simp)

/-- What agreement says of slots as long as the hours, beside a time off. -/
theorem SlotsAgree.beside_off (h : SlotsAgree shop date now)
    (hwindow : withinBookingWindow date now shop.timeZone = true) (hlate : shop.notBefore now < t)
    (hdate : (toZonedParts t shop.timeZone).dateStr = date) (opening closing : ℕ)
    (hhours : opening < closing) (hclosing : closing < 1440) (off : ℤ × ℤ) :
    (∃ r, dayRangeUtc date shop.timeZone = some r ∧
        zonedTimeToUtc date opening shop.timeZone = some t ∧
        (off.1 < r.2 → r.1 < off.2 → ¬ (t < off.2 ∧ off.1 < t + (closing - opening) * 60000))) ↔
      t % 60000 = 0 ∧ (toZonedParts t shop.timeZone).minutesOfDay = opening ∧
        ¬ (t < off.2 ∧ off.1 < t + (closing - opening) * 60000) := by
  have htimed := hoursBetween_timed hhours hclosing
  have hinstants : ∀ m, 0 ≤ m → m < 1440 → ∃ s, zonedTimeToUtc date m shop.timeZone = some s :=
    fun m hm hm' => instants_of_shown hwindow hdate hm hm'
  obtain ⟨s, hs⟩ := hinstants 0 le_rfl (by decide)
  obtain ⟨d, hday, hd⟩ := dayOfWeekOf_of_instant hs
  have hshown := soleAgenda_window shop.id off htimed hday hd
  have hagree := h (soleAgenda shop.id (hoursBetween opening closing) off htimed) 1
    (soleBarber shop.id) (closing - opening) none t rfl rfl (by omega) hdate
  refine Iff.trans ?_ (hagree.trans ?_)
  · cases hrange : dayRangeUtc date shop.timeZone with
    | none =>
      unfold Agenda.slotsForBarber
      rw [hshown, hrange]
      simp
    | some r =>
      rw [Agenda.offered_iff hshown hrange (by omega) hinstants]
      constructor
      · rintro ⟨_, hr, hinstant, hfree⟩
        obtain rfl := Option.some.inj hr
        refine ⟨opening, (fits_hoursBetween hhours hclosing).2 rfl, hinstant, hlate, rfl, ?_⟩
        intro r' hheld
        obtain rfl := (held_soleAgenda htimed).1 hheld
        exact hfree
      · rintro ⟨m, hfits, hinstant, -, -, hfree⟩
        obtain rfl := (fits_hoursBetween hhours hclosing).1 hfits
        exact ⟨r, rfl, hinstant, hfree off ((held_soleAgenda htimed).2 rfl)⟩
  · rw [Agenda.accepted_iff rfl rfl]
    constructor
    · rintro ⟨-, -, window, hthere, hwhole, hfits, -, hfree⟩
      rw [hdate, hshown] at hthere
      obtain rfl := Option.some.inj hthere
      exact ⟨hwhole, (fits_hoursBetween hhours hclosing).1 hfits,
        hfree off ((held_soleAgenda htimed).2 rfl)⟩
    · rintro ⟨hwhole, hminute, hfree⟩
      refine ⟨hlate, by rw [hdate]; exact hwindow, (hoursBetween opening closing).window,
        by rw [hdate]; exact hshown, hwhole, (fits_hoursBetween hhours hclosing).2 hminute, rfl, ?_⟩
      intro r hheld
      obtain rfl := (held_soleAgenda htimed).1 hheld
      exact hfree

end Sole

/-! ## When the two sides agree -/

section Agree

variable {shop : PublicShop} {date : Date} {now : ℤ}

theorem slotsAgree_of_timesAgree
    (hwindow : withinBookingWindow date now shop.timeZone = true)
    (h : TimesAgree shop.timeZone date (shop.notBefore now)) : SlotsAgree shop date now := by
  intro a barberId barber duration exclude t hbarber hshop hduration hdate
  rw [Agenda.accepted_iff hbarber hshop, hdate]
  cases hthere : a.getWorkingWindowOn shop.id barberId date with
  | none =>
    unfold Agenda.slotsForBarber
    rw [hthere]
    simp
  | some window =>
    have htimed := Agenda.getWorkingWindowOn_timed hthere
    have hinstants : ∀ m, 0 ≤ m → m < 1440 → ∃ s, zonedTimeToUtc date m shop.timeZone = some s :=
      fun m hm hm' => instants_of_shown hwindow hdate hm hm'
    constructor
    · intro hlisted
      cases hrange : dayRangeUtc date shop.timeZone with
      | none =>
        unfold Agenda.slotsForBarber at hlisted
        rw [hthere, hrange] at hlisted
        simp at hlisted
      | some range =>
        obtain ⟨m, hfits, hinstant, hlate, hin, hfree⟩ :=
          (Agenda.offered_iff hthere hrange hduration hinstants).1 hlisted
        obtain ⟨hm, hm', hend⟩ := hfits.lt htimed hduration
        obtain ⟨hwhole, rfl⟩ := (h.minutes t m hlate hdate hm hm').1 ⟨range, hrange, hinstant⟩
        obtain ⟨_, hr, hfrom, hto⟩ := h.range t hlate hdate hwhole hm'
        obtain rfl := Option.some.inj (hrange.symm.trans hr)
        refine ⟨hlate, hwindow, window, rfl, hwhole, hfits, hin, fun r hheld hcross => ?_⟩
        -- what crosses the slot crosses the range of the date
        exact hfree r hheld (by omega) (by omega) hcross
    · rintro ⟨hlate, -, _, hwindow', hwhole, hfits, hin, hfree⟩
      obtain rfl := Option.some.inj hwindow'
      obtain ⟨hm, hm', -⟩ := hfits.lt htimed hduration
      obtain ⟨range, hrange, hinstant⟩ := (h.minutes t _ hlate hdate hm hm').2 ⟨hwhole, rfl⟩
      exact (Agenda.offered_iff hthere hrange hduration hinstants).2
        ⟨_, hfits, hinstant, hlate, hin, fun r hheld _ _ => hfree r hheld⟩

theorem timesAgree_of_slotsAgree
    (hwindow : withinBookingWindow date now shop.timeZone = true) (h : SlotsAgree shop date now) :
    TimesAgree shop.timeZone date (shop.notBefore now) := by
  have hminutes : ∀ t m, shop.notBefore now < t → (toZonedParts t shop.timeZone).dateStr = date →
      0 ≤ m → m < 1439 →
      ((∃ r, dayRangeUtc date shop.timeZone = some r ∧
          zonedTimeToUtc date m shop.timeZone = some t) ↔
        t % 60000 = 0 ∧ (toZonedParts t shop.timeZone).minutesOfDay = m) := by
    intro t m hlate hdate hm hm'
    obtain ⟨m, rfl⟩ := Int.eq_ofNat_of_zero_le hm
    have hbeside := h.beside_off hwindow hlate hdate m (m + 1) (by omega)
      (by omega) (t, t)
    simpa using hbeside
  refine ⟨hminutes, ?_⟩
  intro t hlate hdate hwhole hm'
  have hm := (minutesOfDay_bounds shop.timeZone t).1
  generalize hminute : (toZonedParts t shop.timeZone).minutesOfDay = m at hm hm' ⊢
  obtain ⟨m, rfl⟩ := Int.eq_ofNat_of_zero_le hm
  obtain ⟨r, hr, hinstant⟩ := (hminutes t m hlate hdate hm hm').2 ⟨hwhole, hminute⟩
  refine ⟨r, hr, ?_, ?_⟩
  · -- a time off up to the midnight is not looked at
    by_contra hfrom
    have hbeside := h.beside_off hwindow hlate hdate m (m + 1) (by omega)
      (by omega) (t, t + 1)
    have := (hbeside.1 ⟨r, hr, hinstant, by intros; omega⟩).2.2
    dsimp only at this
    omega
  · by_contra hto
    have hbeside := h.beside_off hwindow hlate hdate m 1439 (by omega)
      (by omega) (t + (1439 - m) * 60000 - 1, t + (1439 - m) * 60000)
    have := (hbeside.1 ⟨r, hr, hinstant, by intros; omega⟩).2.2
    dsimp only at this
    omega

/-- The list and the checks of a date agree exactly when its minutes and its instants do. -/
theorem slots_agree_iff (shop : PublicShop) (date : Date) (now : ℤ)
    (hwindow : withinBookingWindow date now shop.timeZone = true) :
    SlotsAgree shop date now ↔ TimesAgree shop.timeZone date (shop.notBefore now) :=
  ⟨timesAgree_of_slotsAgree hwindow, slotsAgree_of_timesAgree hwindow⟩

end Agree

end Barbershop
