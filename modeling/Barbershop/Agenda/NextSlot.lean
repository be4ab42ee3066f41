import Barbershop.Agenda.SlotDates
import Barbershop.Lib.Earliest

/-!
# The next free slot

The public page asks for the free slots of one date (`getPublicAvailableSlots`) or for the next one from
a date on (`getPublicNextAvailableSlot`), which loads the weeks, closures and times of the whole period
at once and goes day by day through them.
-/

namespace Barbershop

open Lib Calendar LocalTime

def NEXT_AVAILABLE_DAYS : ℤ := 60

/-! ## The public page -/

structure PublicService where
  barbershopId : ℕ
  isActive : Bool
  durationMinutes : ℕ

/-- What the page of every unit is made of. -/
structure PublicPage extends Agenda where
  /-- Units that are active, with an owner who is (`ownerAcceptsPublic`). -/
  shops : ℕ → Option PublicShop
  services : Table PublicService
  shopIds : ∀ k shop, shops k = some shop → shop.id = k
  /-- Unique on unit and date. -/
  closureDates : ∀ j k c c', closures.get? j = some c → closures.get? k = some c' →
    c.barbershopId = c'.barbershopId → c.date = c'.date → j = k

namespace PublicPage

variable (p : PublicPage)

def publicServices (barbershopId : ℕ) (serviceIds : List ℕ) : Result (List PublicService × ℕ) := do
  let ids := serviceIds.eraseDups
  refuseIf (ids.length = 0) (.badRequest "Escolha pelo menos um serviço")
  refuseIf (5 < ids.length) (.badRequest "No máximo 5 serviços por agendamento")
  let found := p.services.filter fun id s =>
    ids.contains id && s.barbershopId == barbershopId && s.isActive
  refuseIf (found.length ≠ ids.length) (.notFound "Serviço não encontrado")
  let services := ids.filterMap fun id => found.lookup id
  return (services, (services.map (·.durationMinutes)).sum)

def publicBarbers (barbershopId : ℕ) : List (ℕ × Barber) :=
  p.cat.barbers.filter fun _ b => b.barbershopId == barbershopId && b.isActive && b.bookable

/-- The one professional asked for. -/
def publicBarber (barbershopId barberId : ℕ) : Result (ℕ × Barber) := do
  let barber ← orRefuse
    ((p.cat.barbers.get? barberId).filter fun b =>
      b.barbershopId == barbershopId && b.isActive && b.bookable)
    (.notFound "Profissional não encontrado")
  return (barberId, barber)

/-- As in `slotsForBarber`, a list is `none` when a date of its queries cannot be told. -/
def getPublicAvailableSlots (barbershopId : ℕ) (barberId : Option ℕ) (serviceIds : List ℕ)
    (dateStr : Option Date) (now : ℤ) : Result (Option (List ℤ)) := do
  let services ← p.publicServices barbershopId serviceIds
  let dateStr ← orRefuse dateStr (.badRequest "Data inválida")
  match p.shops barbershopId with
  | none => return some []
  | some shop =>
    if withinBookingWindow dateStr now shop.timeZone then
      let slots (barber : ℕ × Barber) :=
        p.slotsForBarber barbershopId barber.1 barber.2 services.2 dateStr shop.timeZone
          (some (shop.notBefore now)) none now
      match barberId with
      | some id =>
        let barber ← p.publicBarber barbershopId id
        return slots barber
      | none =>
        return ((p.publicBarbers barbershopId).mapM slots).map fun all =>
          all.flatten.eraseDups.insertionSort (· ≤ ·)
    else return some []

/-! ## The search -/

/-- What is loaded for the whole period. -/
structure Period where
  week : Week
  schedules : List BarberSchedule
  closures : List BarbershopClosure
  /-- All rows of the persons, in all units. -/
  links : List (ℕ × Barber)
  /-- Barber, start and end of the appointments and the time off of the rows. -/
  busy : List (ℕ × ℤ × ℤ)

/-- The rows of a person among the links: `personIds`. -/
def personIds (links : List (ℕ × Barber)) (barber : ℕ × Barber) : List ℕ :=
  match barber.2.professionalId, barber.2.userId with
  | some p, _ => (barber.1 :: (links.filter (·.2.professionalId == some p)).map (·.1)).eraseDups
  | none, some u => (barber.1 :: (links.filter (·.2.userId == some u)).map (·.1)).eraseDups
  | none, none => [barber.1]

/-- The links of the professionals, and of the accounts of those who have no professional. -/
def personLinks (barbers : List (ℕ × Barber)) : List (ℕ × Barber) :=
  let professionalIds := barbers.filterMap (·.2.professionalId)
  let userIds := (barbers.filter (·.2.professionalId.isNone)).filterMap (·.2.userId)
  p.cat.barbers.filter fun _ b =>
    b.professionalId.any professionalIds.contains || b.userId.any userIds.contains

/-- The times of barbers that cross a range. -/
def busyRows (barberIds : List ℕ) (startAt endAt : ℤ) : List (ℕ × ℤ × ℤ) :=
  (p.db.appointments.filter fun _ r => barberIds.contains r.barberId && r.takes startAt endAt).map
    (fun r => (r.2.barberId, r.2.startAt, r.2.endAt)) ++
  (p.timeOffs.filter fun _ r => barberIds.contains r.barberId && r.takes startAt endAt).map
    (fun r => (r.2.barberId, r.2.startAt, r.2.endAt))

def loadPeriod (barbershopId : ℕ) (barbers : List (ℕ × Barber)) (start finish : Date)
    (rangeStart rangeEnd : ℤ) : Period :=
  let barberIds := barbers.map (·.1)
  let links := p.personLinks barbers
  let allBarberIds := (barbers.flatMap (personIds links)).eraseDups
  { week := (p.businessHours barbershopId).getD DEFAULT_WORKING_HOURS
    schedules := (p.schedules.filter fun _ r => barberIds.contains r.barberId).map (·.2)
    closures := (p.closures.filter fun _ c =>
      c.barbershopId == barbershopId && !isAfter start c.date && isAfter finish c.date).map (·.2)
    links := links
    busy := p.busyRows allBarberIds rangeStart rangeEnd }

/-- The `window` of `windowOnDate` before closures: an own day as it is written, unlike
`getWorkingWindow`, which keeps it within the hours of the unit. -/
def writtenWindow (schedule : Option BarberSchedule) (dayHours : DayHours) : Option DayWindow :=
  match schedule with
  | some schedule =>
    if schedule.isActive then
      some
        { start := schedule.startTime
          finish := schedule.endTime
          breakStart := schedule.breakStart
          breakEnd := schedule.breakEnd }
    else none
  | none => dayHours.map Hours.window

/-- The window of a date from rows already loaded. -/
def windowOnDate (schedules : List BarberSchedule) (week : Week) (closure : Option BarbershopClosure)
    (dateStr : Date) : Option DayWindow := do
  let dayOfWeek ← dayOfWeekOf dateStr
  let schedule := schedules.find? (·.dayOfWeek == dayOfWeek)
  let window := writtenWindow schedule (week.getD dayOfWeek.toNat none)
  match closure with
  | none => window
  | some closure =>
    let openTime ← given closure.openTime
    let closeTime ← given closure.closeTime
    match window with
    | some window => window.clip (minutesOfDay openTime) (minutesOfDay closeTime)
    | none =>
      if schedule.isSome then none
      else some (Hours.window { start := openTime, finish := closeTime })

namespace Period

variable (period : Period)

/-- A later row of a `Map` takes the place of an earlier one. -/
def closureByDate (date : Date) : Option BarbershopClosure :=
  period.closures.reverse.find? (·.date == date)

def schedulesByBarber (barberId : ℕ) : List BarberSchedule :=
  period.schedules.filter (·.barberId == barberId)

def busyByBarber (barberId : ℕ) : List (ℤ × ℤ) :=
  (period.busy.filter (·.1 == barberId)).map (·.2)

/-- What takes a person's time on a day. -/
def busyOn (barber : ℕ × Barber) (dayStart dayEnd : ℤ) : List (ℤ × ℤ) :=
  (personIds period.links barber).flatMap fun id => (period.busyByBarber id).filter fun range =>
    decide (range.1 < dayEnd) && decide (dayStart < range.2)

/-- The first slot of a barber on a date. -/
def firstSlot (duration : ℤ) (date : Date) (timeZone : Zone) (notBefore now dayStart dayEnd : ℤ)
    (barber : ℕ × Barber) : Option (Option ℤ) := do
  let window := windowOnDate (period.schedulesByBarber barber.1) period.week
    (period.closureByDate date) date
  let slots ← computeSlots barber.2 duration date timeZone window
    (period.busyOn barber dayStart dayEnd) true (some notBefore) now
  return slots.head?

/-- A turn of the loop over the days. -/
def earliestOn (barbers : List (ℕ × Barber)) (duration : ℤ) (start : Date) (timeZone : Zone)
    (notBefore now i : ℤ) : Option (Option (Date × ℤ)) := do
  let date ← addDaysStr start i
  let (dayStart, dayEnd) ← dayRangeUtc date timeZone
  let firsts ← barbers.mapM (period.firstSlot duration date timeZone notBefore now dayStart dayEnd)
  return (firsts.foldl sooner none).map fun earliest => (date, earliest)

end Period

/-- The loop over the days, from a day on. -/
def searchDays {α : Type} (turn : ℤ → Option (Option α)) : ℕ → ℤ → Option (Option α)
  | 0, _ => some none
  | days + 1, i => do
    match ← turn i with
    | some slot => return some slot
    | none => searchDays turn days (i + 1)

/-- Who is searched: the professional asked for, or all. -/
def chosenBarbers (barbershopId : ℕ) (barberId : Option ℕ) : Result (List (ℕ × Barber)) :=
  match barberId with
  | some id => do
    let barber ← p.publicBarber barbershopId id
    return [barber]
  | none => .ok (p.publicBarbers barbershopId)

/-- The search from a first date on. -/
def searchFrom (shop : PublicShop) (barbers : List (ℕ × Barber)) (duration : ℤ) (start lastDay : Date)
    (maxDays now : ℤ) : Option (Option (Date × ℤ)) := do
  let daysLeft := dayNumber lastDay.year lastDay.month lastDay.day -
    dayNumber start.year start.month start.day + 1
  let maxDays := min maxDays daysLeft
  let finish ← addDaysStr start maxDays
  let rangeStart ← zonedTimeToUtc start 0 shop.timeZone
  let rangeEnd ← zonedTimeToUtc finish 0 shop.timeZone
  let period := p.loadPeriod shop.id barbers start finish rangeStart rangeEnd
  searchDays (period.earliestOn barbers duration start shop.timeZone (shop.notBefore now) now)
    maxDays.toNat 0

/-- `fromDate` is `none` also when its text is no date. -/
def getPublicNextAvailableSlot (barbershopId : ℕ) (barberId : Option ℕ) (serviceIds : List ℕ)
    (fromDate : Option Date) (maxDays now : ℤ) : Result (Option (Option (Date × ℤ))) := do
  let services ← p.publicServices barbershopId serviceIds
  match p.shops barbershopId with
  | none => return some none
  | some shop =>
    let barbers ← p.chosenBarbers barbershopId barberId
    if barbers.isEmpty then return some none
    else
      let today := (toZonedParts now shop.timeZone).dateStr
      return do
        let lastDay ← addDaysStr today PUBLIC_BOOKING_WINDOW_DAYS
        if fromDate.any (isAfter · lastDay) then return none
        else
          let start := (fromDate.filter (isAfter · today)).getD today
          p.searchFrom shop barbers services.2 start lastDay maxDays now

end PublicPage

end Barbershop
