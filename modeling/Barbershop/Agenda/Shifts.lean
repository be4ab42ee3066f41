import Barbershop.Agenda.Hours
import Barbershop.Agenda.Slot
import Barbershop.Lib.Machine

/-!
# One person, one shift

A person may be on the team of several units, as one barber record in each: the records share the
account, or the professional that stands for it. A week that is set checks each shift against the
person's own shifts elsewhere. Two old records become those of one person at work when an invite is
accepted with an account that has others, when a barber is active again and when an engagement
begins; none of these looks at the shifts.

The requests run one after the other. Who may send them, what an account must have to accept an
invite and the seats of a plan only refuse more of them and are left out.
-/

namespace Barbershop

open Lib

/-! ## Rows -/

/-- A day of a barber's own week; `shopWindow` keeps the hours that the unit had when the row was
written. -/
structure BarberSchedule where
  barberId : ℕ
  dayOfWeek : ℤ
  startTime : TimeText
  endTime : TimeText
  breakStart : Option TimeText
  breakEnd : Option TimeText
  isActive : Bool
  shopWindow : DayHours

inductive EmployeeInviteStatus where
  | pending | accepted | cancelled
  deriving DecidableEq

structure EmployeeInvite where
  barbershopId : ℕ
  barberId : ℕ
  status : EmployeeInviteStatus
  expiresAt : ℤ

/-- `accounts` is the next account's key; a professional is the account it stands for, and a unit
its hours. -/
structure Rota where
  now : ℤ
  accounts : ℕ
  shops : Table (Option Week)
  cat : Catalog
  professionals : Table ℕ
  schedules : Table BarberSchedule
  invites : Table EmployeeInvite

/-- `currentEngagement` -/
def Barber.engaged (b : Barber) (now : ℤ) : Bool := b.isActive && b.withinEngagement now

/-- SHOP: the hours of the unit; CUSTOM: one's own; OFF: no work. -/
inductive ScheduleMode where
  | SHOP | CUSTOM | OFF
  deriving DecidableEq

structure ScheduleDayInput where
  dayOfWeek : ℤ
  mode : ScheduleMode
  startTime : Option TimeText
  endTime : Option TimeText
  breakStart : Option TimeText
  breakEnd : Option TimeText

structure BusinessDayInput where
  dayOfWeek : ℤ
  isOpen : Bool
  start : Option TimeText
  finish : Option TimeText

/-! ## Checks -/

def SCHEDULE_OUTSIDE_SHOP_MESSAGE : String :=
  "O horário do profissional precisa ficar dentro do expediente da unidade."

/-- A text that is there. -/
def given (text : Option TimeText) : Option TimeText := text.filter fun t => !t.isEmpty

def checkWeeklyDay (d : ScheduleDayInput) : Result Unit :=
  if d.mode = .CUSTOM then do
    let label := weekdayKey d.dayOfWeek
    let work ← checkRange d.startTime d.endTime label
    refuseIf ((given d.breakStart).isSome ≠ (given d.breakEnd).isSome)
      (.badRequest (label ++ ": informe o início e o fim do intervalo"))
    if (given d.breakStart).isSome then
      let pause ← checkRange d.breakStart d.breakEnd (label ++ " (intervalo)")
      refuseIf (¬ work.start < pause.start ∨ ¬ pause.finish < work.finish)
        (.badRequest (label ++ ": o intervalo precisa ficar dentro do expediente"))
  else return ()

def checkWeeklyDays (days : List ScheduleDayInput) : Result Unit := do
  checkDays [] (days.map (·.dayOfWeek))
  eachDay checkWeeklyDay days

/-- `parseBusinessDays` -/
def parseBusinessDays (days : List BusinessDayInput) : Result Week := do
  checkDays [] (days.map (·.dayOfWeek))
  refuseIf (days.length ≠ 7) (.badRequest "Informe os 7 dias da semana")
  eachDay (fun d => if d.isOpen then
    (fun _ => ()) <$> checkRange d.start d.finish (weekdayKey d.dayOfWeek) else return ()) days
  return [0, 1, 2, 3, 4, 5, 6].map fun dayOfWeek : ℤ =>
    (days.find? fun d => d.dayOfWeek == dayOfWeek && d.isOpen).map fun d =>
      { start := d.start.getD [], finish := d.finish.getD [] }

/-- `normalizeBusinessHours` -/
def normalizeBusinessHours (week : Week) : Result Week := do
  refuseIf (week.length ≠ 7) (.badRequest "Informe os 7 dias da semana")
  week.zipIdx.mapM fun (day, dayOfWeek) =>
    ifGiven day fun hours =>
      checkRange (some hours.start) (some hours.finish) (weekdayKey dayOfWeek)

/-- `parseEngagementPeriod` -/
def parseEngagementPeriod (accessStartsAt accessEndsAt : Option ℤ) : Result Unit :=
  refuseIf (∃ starts ∈ accessStartsAt, ∃ ends ∈ accessEndsAt, ends < starts)
    (.badRequest "O fim do vínculo não pode ser antes do início")

namespace Rota

variable (s : Rota)

/-- A shift would cross one of the person's own, elsewhere. -/
def shiftTaken (barberId : ℕ) (dayOfWeek : ℤ) (start finish : TimeText) : Bool :=
  let ids := samePersonBarberIds s.cat barberId (s.cat.barbers.get? barberId)
  s.schedules.any fun _ r => r.barberId != barberId && ids.contains r.barberId &&
    r.dayOfWeek == dayOfWeek && r.isActive &&
    (s.cat.barbers.get? r.barberId).any (·.engaged s.now) &&
    shiftsOverlap start finish r.startTime r.endTime

def ensureShiftFreeAcrossShops (barberId : ℕ) (dayOfWeek : ℤ) (start finish : TimeText) :
    Result Unit :=
  refuseIf (s.shiftTaken barberId dayOfWeek start finish = true)
    (.badRequest "Este profissional já tem escala nesse horário em outra unidade")

def hoursOn (barbershopId : ℕ) (dayOfWeek : ℤ) : DayHours :=
  shopHoursOn (s.shops.get? barbershopId).join dayOfWeek

/-- The check of a day of `setWeeklySchedule`. -/
def checkScheduleDay (barberId barbershopId : ℕ) (d : ScheduleDayInput) : Result Unit :=
  let shopWindow := s.hoursOn barbershopId d.dayOfWeek
  match d.mode with
  | .OFF => return ()
  | .CUSTOM => do
    let start := d.startTime.getD []
    let finish := d.endTime.getD []
    refuseIf (fitsShopHours start finish shopWindow = false)
      (.badRequest SCHEDULE_OUTSIDE_SHOP_MESSAGE)
    s.ensureShiftFreeAcrossShops barberId d.dayOfWeek start finish
  | .SHOP =>
    match shopWindow with
    | none => return ()
    | some hours => s.ensureShiftFreeAcrossShops barberId d.dayOfWeek hours.start hours.finish

end Rota

/-! ## Writes -/

/-- Unique on barber and weekday. -/
def upsertSchedule (row : BarberSchedule) (t : Table BarberSchedule) : Table BarberSchedule :=
  match t.find? fun _ r => r.barberId == row.barberId && r.dayOfWeek == row.dayOfWeek with
  | some (id, _) => t.modify id fun _ => row
  | none => t.insert row

/-- The write of a day; the transaction writes them in order. -/
def writeScheduleDay (barberId : ℕ) (hours : ℤ → DayHours) (t : Table BarberSchedule)
    (d : ScheduleDayInput) : Table BarberSchedule :=
  match d.mode with
  | .SHOP => t.eraseAll fun _ r => r.barberId == barberId && r.dayOfWeek == d.dayOfWeek
  | .OFF => upsertSchedule {
      barberId := barberId
      dayOfWeek := d.dayOfWeek
      startTime := "00:00".toList
      endTime := "00:00".toList
      breakStart := none
      breakEnd := none
      isActive := false
      shopWindow := hours d.dayOfWeek } t
  | .CUSTOM => upsertSchedule {
      barberId := barberId
      dayOfWeek := d.dayOfWeek
      startTime := d.startTime.getD []
      endTime := d.endTime.getD []
      breakStart := given d.breakStart
      breakEnd := given d.breakEnd
      isActive := true
      shopWindow := hours d.dayOfWeek } t

namespace Rota

variable (s : Rota)

def setWeeklySchedule (barberId : ℕ) (days : List ScheduleDayInput) : Result Rota := do
  let barber ← orRefuse (s.cat.barbers.get? barberId) (.notFound "Profissional não encontrado")
  checkWeeklyDays days
  eachDay (s.checkScheduleDay barberId barber.barbershopId) days
  return { s with
    schedules := days.foldl (writeScheduleDay barberId (s.hoursOn barber.barbershopId)) s.schedules }

/-- Whoever follows the hours of the unit on a day has no shift elsewhere that crosses them. -/
def checkFollowers (barberId : ℕ) (week : Week) : Result Unit :=
  eachDay (fun dayOfWeek : ℤ =>
    match week.getD dayOfWeek.toNat none with
    | none => return ()
    | some hours =>
      if s.schedules.any fun _ r => r.barberId == barberId && r.dayOfWeek == dayOfWeek then return ()
      else s.ensureShiftFreeAcrossShops barberId dayOfWeek hours.start hours.finish)
    [0, 1, 2, 3, 4, 5, 6]

def setBusinessHours (barbershopId : ℕ) (days : List BusinessDayInput) : Result Rota := do
  let week ← parseBusinessDays days
  let team := s.cat.barbers.filter fun _ b => b.barbershopId == barbershopId && b.engaged s.now
  eachDay (fun row => s.checkFollowers row.1 week) team
  return { s with shops := s.shops.modify barbershopId fun _ => some week }

/-- `ensureProfessional` -/
def ensureProfessional (userId : ℕ) : Rota × ℕ :=
  match s.professionals.find? fun _ u => u == userId with
  | some (id, _) => (s, id)
  | none => ({ s with professionals := s.professionals.insert userId }, s.professionals.next)

def setBarbers (barbers : Table Barber) : Rota := { s with cat := { s.cat with barbers := barbers } }

def linkBarberToProfessional (barberId userId : ℕ) : Rota :=
  let r := s.ensureProfessional userId
  let barbers := r.1.cat.barbers.modifyAll fun _ b =>
    if b.userId = some userId ∧ b.professionalId = none then { b with professionalId := some r.2 }
    else b
  r.1.setBarbers (barbers.modify barberId fun b => { b with
    userId := some userId
    professionalId := some r.2 })

/-- A barber that takes appointments. -/
def newBarber (barbershopId : ℕ) (userId : Option ℕ) (accessStartsAt accessEndsAt : Option ℤ) :
    Barber where
  barbershopId := barbershopId
  userId := userId
  professionalId := none
  bookable := true
  isActive := true
  accessStartsAt := accessStartsAt
  accessEndsAt := accessEndsAt

/-- A unit, with its owner on the team. -/
def createBarbershop (userId : ℕ) (businessHours : Option Week) : Result Rota := do
  refuseIf (s.accounts ≤ userId) (.notFound "Usuário não encontrado")
  let hours ← ifGiven businessHours normalizeBusinessHours
  let otherShop := s.cat.barbers.find? fun _ b => b.userId == some userId && b.engaged s.now
  eachDay (fun (row : ℕ × Barber) => eachDay (fun week => eachDay (fun dayOfWeek : ℤ =>
      match week.getD dayOfWeek.toNat none with
      | none => return ()
      | some h => s.ensureShiftFreeAcrossShops row.1 dayOfWeek h.start h.finish)
    [0, 1, 2, 3, 4, 5, 6]) hours.toList) otherShop.toList
  let opened := { s with shops := s.shops.insert hours }
  let hired := opened.setBarbers
    (s.cat.barbers.insert (newBarber s.shops.next (some userId) none none))
  return hired.linkBarberToProfessional s.cat.barbers.next userId

/-- Thirty days, from now. -/
def EMPLOYEE_INVITE_MS : ℤ := 30 * 86400000

def createInvite (barbershopId : ℕ) (accessStartsAt accessEndsAt : Option ℤ) : Result Rota := do
  parseEngagementPeriod accessStartsAt accessEndsAt
  let hired := s.setBarbers
    (s.cat.barbers.insert (newBarber barbershopId none accessStartsAt accessEndsAt))
  return { hired with
    invites := s.invites.insert {
      barbershopId := barbershopId
      barberId := s.cat.barbers.next
      status := .pending
      expiresAt := s.now + EMPLOYEE_INVITE_MS } }

/-- The invite, if it can be accepted. -/
def openInvite (inviteId : ℕ) : Result EmployeeInvite := do
  let invite ← orRefuse (s.invites.get? inviteId) (.notFound "Convite não encontrado")
  refuseIf (invite.status ≠ .pending) (.badRequest "Este convite já foi utilizado")
  refuseIf (invite.expiresAt < s.now) (.badRequest "Este convite expirou")
  refuseIf (((s.cat.barbers.get? invite.barberId).any (·.isActive)) = false)
    (.badRequest "Este convite não está mais disponível")
  return invite

def settleInvite (inviteId : ℕ) : Rota :=
  { s with invites := s.invites.modify inviteId fun x => { x with status := .accepted } }

/-- With an account that is made for it. -/
def acceptInvite (inviteId : ℕ) : Result Rota := do
  let invite ← s.openInvite inviteId
  let signedUp := { s with accounts := s.accounts + 1 }
  return (signedUp.linkBarberToProfessional invite.barberId s.accounts).settleInvite inviteId

/-- Who has left the unit keeps an old record there, which is nobody's from now on. -/
def unlinkOld (invite : EmployeeInvite) (userId : ℕ) : Rota :=
  s.setBarbers (s.cat.barbers.modifyAll fun id b =>
    if b.barbershopId = invite.barbershopId ∧ b.userId = some userId ∧ id ≠ invite.barberId ∧
      b.isActive = false then { b with
        userId := none
        professionalId := none }
    else b)

/-- With an account that is there. -/
def acceptInviteAsUser (inviteId userId : ℕ) : Result Rota := do
  let invite ← s.openInvite inviteId
  refuseIf (s.accounts ≤ userId) (.badRequest
    "Este convite foi enviado para outro e-mail. Entre com a conta desse e-mail para aceitar.")
  let t := s.unlinkOld invite userId
  refuseIf (t.cat.barbers.any (fun _ b => b.barbershopId == invite.barbershopId &&
    b.userId == some userId && b.isActive) = true)
    (.badRequest "Você já está na equipe desta unidade")
  return (t.linkBarberToProfessional invite.barberId userId).settleInvite inviteId

def barberOf (barbershopId barberId : ℕ) : Result Barber :=
  orRefuse ((s.cat.barbers.get? barberId).filter (·.barbershopId == barbershopId))
    (.notFound "Profissional não encontrado")

def cancelInvites (barberId : ℕ) : Rota :=
  { s with invites := s.invites.modifyAll fun _ x =>
      if x.barberId = barberId ∧ x.status = .pending then { x with status := .cancelled } else x }

def setBarber (barberId : ℕ) (f : Barber → Barber) : Rota :=
  s.setBarbers (s.cat.barbers.modify barberId f)

def deleteBarber (barbershopId barberId : ℕ) : Result Rota := do
  let _ ← s.barberOf barbershopId barberId
  return (s.setBarber barberId fun b => { b with isActive := false }).cancelInvites barberId

def reactivateBarber (barbershopId barberId : ℕ) : Result Rota := do
  let _ ← s.barberOf barbershopId barberId
  return s.setBarber barberId fun b => { b with isActive := true }

/-- What `updateBarber` leaves of a row; `none` leaves a column as it is. -/
def edited (isActive : Option Bool) (accessStartsAt accessEndsAt : Option (Option ℤ)) (b : Barber) :
    Barber :=
  { b with
    isActive := isActive.getD b.isActive
    accessStartsAt := accessStartsAt.getD b.accessStartsAt
    accessEndsAt := accessEndsAt.getD b.accessEndsAt }

def updateBarber (barbershopId barberId : ℕ) (isActive : Option Bool)
    (accessStartsAt accessEndsAt : Option (Option ℤ)) : Result Rota := do
  let barber ← s.barberOf barbershopId barberId
  let row := edited isActive accessStartsAt accessEndsAt barber
  parseEngagementPeriod row.accessStartsAt row.accessEndsAt
  let t := s.setBarber barberId (edited isActive accessStartsAt accessEndsAt)
  return if barber.isActive ∧ isActive = some false then t.cancelInvites barberId else t

end Rota

inductive RotaEvent where
  | signUp
  | createBarbershop (userId : ℕ) (businessHours : Option Week)
  | setBusinessHours (barbershopId : ℕ) (days : List BusinessDayInput)
  | setWeeklySchedule (barberId : ℕ) (days : List ScheduleDayInput)
  | createInvite (barbershopId : ℕ) (accessStartsAt accessEndsAt : Option ℤ)
  | acceptInvite (inviteId : ℕ)
  | acceptInviteAsUser (inviteId userId : ℕ)
  | deleteBarber (barbershopId barberId : ℕ)
  | reactivateBarber (barbershopId barberId : ℕ)
  | updateBarber (barbershopId barberId : ℕ) (isActive : Option Bool)
      (accessStartsAt accessEndsAt : Option (Option ℤ))
  | pass (time : ℕ)

def RotaEvent.exec (e : RotaEvent) (s : Rota) : Result Rota :=
  match e with
  | signUp => return { s with accounts := s.accounts + 1 }
  | createBarbershop userId businessHours => s.createBarbershop userId businessHours
  | setBusinessHours barbershopId days => s.setBusinessHours barbershopId days
  | setWeeklySchedule barberId days => s.setWeeklySchedule barberId days
  | createInvite barbershopId startsAt endsAt => s.createInvite barbershopId startsAt endsAt
  | acceptInvite inviteId => s.acceptInvite inviteId
  | acceptInviteAsUser inviteId userId => s.acceptInviteAsUser inviteId userId
  | deleteBarber barbershopId barberId => s.deleteBarber barbershopId barberId
  | reactivateBarber barbershopId barberId => s.reactivateBarber barbershopId barberId
  | updateBarber barbershopId barberId isActive startsAt endsAt =>
    s.updateBarber barbershopId barberId isActive startsAt endsAt
  | pass time => return { s with now := s.now + time }

def rota : Machine Rota RotaEvent where
  step s e := (e.exec s).toOption

/-! ## The law -/

/-- Two records of one person: one account, or one professional. -/
def Barber.SamePerson (b c : Barber) : Prop :=
  (∃ u, b.userId = some u ∧ c.userId = some u) ∨
    ∃ p, b.professionalId = some p ∧ c.professionalId = some p

structure Rota.ShiftLaw (s : Rota) : Prop where
  /-- At two units a person who is engaged at both has no own shifts that cross. -/
  apart : ∀ {i j b c k l r q}, s.cat.barbers.get? i = some b → s.cat.barbers.get? j = some c →
    b.barbershopId ≠ c.barbershopId → b.engaged s.now = true → c.engaged s.now = true →
      b.SamePerson c → s.schedules.get? k = some r → s.schedules.get? l = some q →
        r.barberId = i → q.barberId = j → r.isActive = true → q.isActive = true →
          r.dayOfWeek = q.dayOfWeek →
            shiftsOverlap r.startTime r.endTime q.startTime q.endTime = false
  /-- An own shift fits the hours that its unit had when it was written. -/
  fits : ∀ {k r}, s.schedules.get? k = some r → r.isActive = true →
    fitsShopHours r.startTime r.endTime r.shopWindow = true

/-! ## When it holds -/

namespace Rota

/-- Two barbers have own shifts that cross. -/
def shiftsClash (s : Rota) (i j : ℕ) : Bool :=
  s.schedules.any fun _ r => r.barberId == i && r.isActive && s.schedules.any fun _ q =>
    q.barberId == j && q.isActive && q.dayOfWeek == r.dayOfWeek &&
      shiftsOverlap r.startTime r.endTime q.startTime q.endTime

/-- The own shifts of a barber cross those of no other barber of a kind who is engaged then. -/
def clearOf (s : Rota) (time : ℤ) (i : ℕ) (others : ℕ → Barber → Bool) : Bool :=
  !s.cat.barbers.any fun j c => j != i && others j c && c.engaged time && s.shiftsClash i j

/-- The barbers that are of the same person as one, as the check finds them. -/
def samePerson (s : Rota) (i j : ℕ) : Bool :=
  (samePersonBarberIds s.cat i (s.cat.barbers.get? i)).contains j

end Rota

/-- Whoever comes to be at work elsewhere brings no shift that crosses. -/
def RotaEvent.bringsNoClash (e : RotaEvent) (s : Rota) : Bool :=
  match e with
  | acceptInviteAsUser inviteId userId => (s.invites.get? inviteId).all fun x =>
    !(s.cat.barbers.get? x.barberId).any (·.engaged s.now) ||
      s.clearOf s.now x.barberId fun _ c => c.userId == some userId
  | reactivateBarber _ i => (s.cat.barbers.get? i).all fun b =>
    !b.withinEngagement s.now || s.clearOf s.now i fun j _ => s.samePerson i j
  | updateBarber _ i isActive startsAt endsAt => (s.cat.barbers.get? i).all fun b =>
    !(Rota.edited isActive startsAt endsAt b).engaged s.now ||
      s.clearOf s.now i fun j _ => s.samePerson i j
  | pass time => !s.cat.barbers.any fun i b => !b.engaged s.now && b.engaged (s.now + time) &&
    !s.clearOf (s.now + time) i fun j _ => s.samePerson i j
  | _ => true

/-! ## Shifts that cross -/

section Shifts

variable {s s' : Rota} {i : ℕ}

theorem Rota.shiftsClash_eq_false {i j : ℕ} : s.shiftsClash i j = false ↔
    ∀ {k l r q}, s.schedules.get? k = some r → s.schedules.get? l = some q → r.barberId = i →
      q.barberId = j → r.isActive = true → q.isActive = true → r.dayOfWeek = q.dayOfWeek →
        shiftsOverlap r.startTime r.endTime q.startTime q.endTime = false := by
  constructor
  · intro h k l r q hr hq hri hqj hractive hqactive hday
    have hrow := Table.any_eq_false.1 h k r hr
    simp only [hri, hractive, beq_self_eq_true, Bool.true_and] at hrow
    have hcross := Table.any_eq_false.1 hrow l q hq
    simpa [hqj, hqactive, hday] using hcross
  · intro h
    refine Table.any_eq_false.2 fun k r hr => ?_
    rw [Bool.and_eq_false_iff, or_iff_not_imp_left, Bool.not_eq_false]
    intro hmine
    simp only [Bool.and_eq_true, beq_iff_eq] at hmine
    refine Table.any_eq_false.2 fun l q hq => ?_
    rw [Bool.and_eq_false_iff, or_iff_not_imp_left, Bool.not_eq_false]
    intro hother
    simp only [Bool.and_eq_true, beq_iff_eq] at hother
    exact h hr hq hmine.1 hother.1.1 hmine.2 hother.1.2 hother.2.symm

theorem Rota.shiftsClash_comm (s : Rota) (i j : ℕ) : s.shiftsClash i j = s.shiftsClash j i := by
  rw [Bool.eq_iff_iff, ← not_iff_not, Bool.not_eq_true, Bool.not_eq_true, shiftsClash_eq_false,
    shiftsClash_eq_false]
  constructor
  · intro h k l r q hr hq hri hqj hractive hqactive hday
    rw [shiftsOverlap_comm]
    exact h hq hr hqj hri hqactive hractive hday.symm
  · intro h k l r q hr hq hri hqj hractive hqactive hday
    rw [shiftsOverlap_comm]
    exact h hq hr hqj hri hqactive hractive hday.symm

theorem Rota.shiftsClash_congr (h : s'.schedules = s.schedules) (i j : ℕ) :
    s'.shiftsClash i j = s.shiftsClash i j := by
  unfold shiftsClash
  rw [h]

theorem Rota.clearOf_eq_true {time : ℤ} {i : ℕ} {others : ℕ → Barber → Bool} :
    s.clearOf time i others = true ↔ ∀ {j c}, s.cat.barbers.get? j = some c → j ≠ i →
      others j c = true → c.engaged time = true → s.shiftsClash i j = false := by
  unfold clearOf
  rw [Bool.not_eq_true', Table.any_eq_false]
  constructor
  · intro h j c hc hne hother hengaged
    have hrow := h j c hc
    simpa [hne, hother, hengaged] using hrow
  · intro h j c hc
    rw [Bool.and_eq_false_iff, or_iff_not_imp_left, Bool.not_eq_false]
    intro hmine
    simp only [Bool.and_eq_true, bne_iff_ne, ne_eq] at hmine
    exact h hc hmine.1.1 hmine.1.2 hmine.2

/-! ## Who is who -/

/-- A professional stands for one account, and every record of an account, `fresh` apart, has its
professional. -/
structure Rota.People (s : Rota) (fresh : Option ℕ) : Prop where
  accounts : ∀ {i b u}, s.cat.barbers.get? i = some b → b.userId = some u → u < s.accounts
  professional : ∀ {i b p}, s.cat.barbers.get? i = some b → b.professionalId = some p →
    ∃ u, b.userId = some u ∧ s.professionals.get? p = some u
  linked : ∀ {i b u}, s.cat.barbers.get? i = some b → some i ≠ fresh → b.userId = some u →
    ∃ p, b.professionalId = some p
  one : ∀ {p p' u}, s.professionals.get? p = some u → s.professionals.get? p' = some u → p = p'

theorem Rota.People.weaken (h : s.People none) (fresh : Option ℕ) : s.People fresh where
  accounts := h.accounts
  professional := h.professional
  linked hb _ := h.linked hb (by simp)
  one := h.one

/-- Records stay who they are, or are nobody's. -/
theorem Rota.People.rows (h : s.People none) (haccounts : s.accounts ≤ s'.accounts)
    (hprofessionals : s'.professionals = s.professionals)
    (hrows : ∀ {i b'}, s'.cat.barbers.get? i = some b' →
      b'.userId = none ∧ b'.professionalId = none ∨ ∃ b, s.cat.barbers.get? i = some b ∧
        b'.userId = b.userId ∧ b'.professionalId = b.professionalId) : s'.People none where
  accounts hb' hu := by
    rcases hrows hb' with ⟨hnone, -⟩ | ⟨b, hb, huser, -⟩
    · rw [hnone] at hu
      cases hu
    · exact (h.accounts hb (huser.symm.trans hu)).trans_le haccounts
  professional hb' hp := by
    rw [hprofessionals]
    rcases hrows hb' with ⟨-, hnone⟩ | ⟨b, hb, huser, hsame⟩
    · rw [hnone] at hp
      cases hp
    · obtain ⟨u, hu, hprofessional⟩ := h.professional hb (hsame.symm.trans hp)
      exact ⟨u, huser.trans hu, hprofessional⟩
  linked hb' _ hu := by
    rcases hrows hb' with ⟨hnone, -⟩ | ⟨b, hb, huser, hsame⟩
    · rw [hnone] at hu
      cases hu
    · obtain ⟨p, hp⟩ := h.linked hb (by simp) (huser.symm.trans hu)
      exact ⟨p, hsame.trans hp⟩
  one := by
    rw [hprofessionals]
    exact h.one

/-- Two records are of one person exactly when they have one account. -/
theorem Rota.People.same {i j : ℕ} {b c : Barber} (h : s.People none)
    (hb : s.cat.barbers.get? i = some b) (hc : s.cat.barbers.get? j = some c) :
    b.SamePerson c ↔ ∃ u, b.userId = some u ∧ c.userId = some u := by
  refine ⟨fun hsame => ?_, .inl⟩
  rcases hsame with hsame | ⟨p, hbp, hcp⟩
  · exact hsame
  · obtain ⟨u, hu, hpu⟩ := h.professional hb hbp
    obtain ⟨v, hv, hpv⟩ := h.professional hc hcp
    rw [hpu] at hpv
    obtain rfl := Option.some.inj hpv
    exact ⟨u, hu, hv⟩

/-- The check finds the other records of the account. -/
theorem Rota.People.found {i j u : ℕ} {b c : Barber} (h : s.People none)
    (hb : s.cat.barbers.get? i = some b) (hc : s.cat.barbers.get? j = some c)
    (hu : b.userId = some u) (hv : c.userId = some u) : s.samePerson i j = true := by
  obtain ⟨p, hp⟩ := h.linked hb (by simp) hu
  obtain ⟨p', hp'⟩ := h.linked hc (by simp) hv
  obtain ⟨v, huv, hprofessional⟩ := h.professional hb hp
  obtain ⟨w, hw, hprofessional'⟩ := h.professional hc hp'
  rw [hu] at huv
  rw [hv] at hw
  obtain rfl := Option.some.inj huv
  obtain rfl := Option.some.inj hw
  obtain rfl := h.one hprofessional hprofessional'
  simp only [samePerson, samePersonBarberIds, hb, Option.bind_some, hp, List.contains_eq_mem,
    List.mem_eraseDups, decide_eq_true_eq]
  refine List.mem_cons_of_mem _ (List.mem_map.2 ⟨(j, c), Table.mem_filter.2 ⟨hc, ?_⟩, rfl⟩)
  simp [hp']

/-! ## The invariant -/

/-- Two records of one person, engaged at both. -/
def Rota.Together (s : Rota) (i j : ℕ) : Prop :=
  i ≠ j ∧ ∃ b c u, s.cat.barbers.get? i = some b ∧ s.cat.barbers.get? j = some c ∧
    b.engaged s.now = true ∧ c.engaged s.now = true ∧ b.userId = some u ∧ c.userId = some u

theorem Rota.Together.symm {i j : ℕ} (h : s.Together i j) : s.Together j i := by
  obtain ⟨hne, b, c, u, hb, hc, hengaged, hengaged', hu, hv⟩ := h
  exact ⟨hne.symm, c, b, u, hc, hb, hengaged', hengaged, hv, hu⟩

structure Rota.Sound (s : Rota) (fresh : Option ℕ) : Prop where
  people : s.People fresh
  owned : ∀ {k r}, s.schedules.get? k = some r → ∃ b, s.cat.barbers.get? r.barberId = some b
  apart : ∀ {i j}, s.Together i j → s.shiftsClash i j = false
  fits : ∀ {k r}, s.schedules.get? k = some r → r.isActive = true →
    fitsShopHours r.startTime r.endTime r.shopWindow = true

namespace Rota.Sound

variable {fresh fresh' : Option ℕ}

theorem law (h : s.Sound none) : s.ShiftLaw where
  apart := by
    intro i j b c k l r q hb hc hshop hengaged hengaged' hsame hr hq hri hqj
    have hne : i ≠ j := by
      rintro rfl
      rw [hb] at hc
      exact hshop (by rw [Option.some.inj hc])
    obtain ⟨u, hu, hv⟩ := (h.people.same hb hc).1 hsame
    have htogether : s.Together i j := ⟨hne, b, c, u, hb, hc, hengaged, hengaged', hu, hv⟩
    exact shiftsClash_eq_false.1 (h.apart htogether) hr hq hri hqj
  fits := h.fits

/-- No shift is written, and whoever comes together has none that cross. -/
theorem keep (h : s.Sound fresh) (hpeople : s'.People fresh')
    (hschedules : s'.schedules = s.schedules)
    (hrows : ∀ {i b}, s.cat.barbers.get? i = some b → ∃ b', s'.cat.barbers.get? i = some b')
    (hapart : ∀ {i j}, s'.Together i j → s.Together i j ∨ s.shiftsClash i j = false) :
    s'.Sound fresh' where
  people := hpeople
  owned hr := by
    rw [hschedules] at hr
    obtain ⟨b, hb⟩ := h.owned hr
    exact hrows hb
  apart htogether := by
    rw [shiftsClash_congr hschedules]
    exact (hapart htogether).elim h.apart id
  fits hr := by
    rw [hschedules] at hr
    exact h.fits hr

/-- One record changes; the others are of no other account and at work no more than before. -/
theorem change (i : ℕ) (h : s.Sound fresh) (hpeople : s'.People fresh')
    (hschedules : s'.schedules = s.schedules)
    (hrows : ∀ {j b}, s.cat.barbers.get? j = some b → ∃ b', s'.cat.barbers.get? j = some b')
    (hothers : ∀ {j c'}, j ≠ i → s'.cat.barbers.get? j = some c' →
      ∃ c, s.cat.barbers.get? j = some c ∧ (c'.engaged s'.now = true → c.engaged s.now = true) ∧
        ∀ u, c'.userId = some u → c.userId = some u)
    (hmine : ∀ {j}, s'.Together i j → s.Together i j ∨ s.shiftsClash i j = false) :
    s'.Sound fresh' := by
  refine h.keep hpeople hschedules hrows fun {j k} htogether => ?_
  by_cases hj : j = i
  · subst hj
    exact hmine htogether
  by_cases hk : k = i
  · subst hk
    rw [shiftsClash_comm]
    exact (hmine htogether.symm).imp Together.symm id
  · obtain ⟨hne, b', c', u, hb', hc', hengaged, hengaged', hu, hv⟩ := htogether
    obtain ⟨b, hb, hbe, hbu⟩ := hothers hj hb'
    obtain ⟨c, hc, hce, hcu⟩ := hothers hk hc'
    exact .inl ⟨hne, b, c, u, hb, hc, hbe hengaged, hce hengaged', hbu u hu, hcu u hv⟩

/-- Who is at work, and as who, stays. -/
theorem same (h : s.Sound none) (haccounts : s.accounts ≤ s'.accounts)
    (hprofessionals : s'.professionals = s.professionals)
    (hschedules : s'.schedules = s.schedules) (hnow : s'.now = s.now)
    (hbarbers : s'.cat.barbers = s.cat.barbers) : s'.Sound none := by
  have hrows : ∀ {i b}, s'.cat.barbers.get? i = some b → s.cat.barbers.get? i = some b := by
    intro i b hb
    rwa [hbarbers] at hb
  refine h.keep (h.people.rows haccounts hprofessionals fun hb =>
    .inr ⟨_, hrows hb, rfl, rfl⟩) hschedules (fun {i b} hb => ⟨b, ?_⟩) fun htogether => ?_
  · rwa [hbarbers]
  · unfold Together at htogether ⊢
    rw [hbarbers, hnow] at htogether
    exact .inl htogether

/-- Who is not on the team has no shifts. -/
theorem none_clash {i : ℕ} (h : s.Sound fresh) (hi : s.cat.barbers.get? i = none) (j : ℕ) :
    s.shiftsClash i j = false := by
  rw [shiftsClash_eq_false]
  intro k l r q hr hq hri
  obtain ⟨b, hb⟩ := h.owned hr
  rw [hri, hi] at hb
  cases hb

/-- A record of the team is edited; it stays who it is. -/
theorem setBarber {i : ℕ} {f : Barber → Barber} (h : s.Sound none)
    (hf : ∀ b, (f b).userId = b.userId ∧ (f b).professionalId = b.professionalId)
    (hclear : ∀ {b}, s.cat.barbers.get? i = some b → (f b).engaged s.now = true →
      b.engaged s.now = true ∨ s.clearOf s.now i (fun j _ => s.samePerson i j) = true) :
    (s.setBarber i f).Sound none := by
  have hrow : ∀ {j b'}, (s.setBarber i f).cat.barbers.get? j = some b' →
      ∃ b, s.cat.barbers.get? j = some b ∧ (j = i ∧ b' = f b ∨ j ≠ i ∧ b' = b) := by
    intro j b' hb'
    simp only [Rota.setBarber, setBarbers] at hb'
    rw [Table.get?_modify] at hb'
    split at hb'
    · next hj =>
      obtain ⟨b, hb, rfl⟩ := Option.map_eq_some_iff.1 hb'
      exact ⟨b, hb, .inl ⟨hj, rfl⟩⟩
    · next hj => exact ⟨b', hb', .inr ⟨hj, rfl⟩⟩
  have hpeople : (s.setBarber i f).People none := by
    refine h.people.rows le_rfl rfl fun hb' => .inr ?_
    obtain ⟨b, hb, ⟨-, rfl⟩ | ⟨-, rfl⟩⟩ := hrow hb'
    · exact ⟨b, hb, (hf b).1, (hf b).2⟩
    · exact ⟨_, hb, rfl, rfl⟩
  refine h.change i hpeople rfl (fun {j b} hb => ?_) (fun {j c'} hj hc' => ?_) fun {j} htogether => ?_
  · simp only [Rota.setBarber, setBarbers]
    rw [Table.get?_modify]
    split
    · exact ⟨f b, by rw [hb, Option.map_some]⟩
    · exact ⟨b, hb⟩
  · obtain ⟨c, hc, ⟨hji, -⟩ | ⟨-, rfl⟩⟩ := hrow hc'
    · exact absurd hji hj
    · exact ⟨_, hc, id, fun _ => id⟩
  · obtain ⟨hne, b', c', u, hb', hc', hengaged, hengaged', hu, hv⟩ := htogether
    obtain ⟨b, hb, ⟨-, rfl⟩ | ⟨hii, -⟩⟩ := hrow hb'
    · obtain ⟨c, hc, ⟨hji, -⟩ | ⟨-, rfl⟩⟩ := hrow hc'
      · exact absurd hji.symm hne
      · rw [(hf b).1] at hu
        rcases hclear hb hengaged with hbefore | hclear
        · exact .inl ⟨hne, b, _, u, hb, hc, hbefore, hengaged', hu, hv⟩
        · exact .inr (clearOf_eq_true.1 hclear hc hne.symm (h.people.found hb hc hu hv) hengaged')
    · exact absurd rfl hii

end Rota.Sound

/-! ## A link -/

/-- The professional of an account, made if it is not there. -/
theorem Rota.ensureProfessional_spec (h : s.People (some i)) (userId : ℕ) :
    ∃ professionals p, s.ensureProfessional userId = ({ s with professionals := professionals }, p) ∧
      professionals.get? p = some userId ∧
      (∀ {q u}, s.professionals.get? q = some u → professionals.get? q = some u) ∧
      ∀ {q q' u}, professionals.get? q = some u → professionals.get? q' = some u → q = q' := by
  unfold ensureProfessional
  cases hfind : s.professionals.find? fun _ u => u == userId with
  | some row =>
    obtain ⟨p, u⟩ := row
    obtain ⟨hp, hu⟩ := Table.find?_some hfind
    exact ⟨s.professionals, p, rfl, by rw [hp, beq_iff_eq.1 hu], id, h.one⟩
  | none =>
    have hnone := Table.find?_none.1 hfind
    have hnew : ∀ {q v}, (s.professionals.insert userId).get? q = some v →
        q = s.professionals.next ∧ v = userId ∨ s.professionals.get? q = some v ∧ v ≠ userId := by
      intro q v hq
      rw [Table.get?_insert] at hq
      split at hq
      · next hnext => exact .inl ⟨hnext, (Option.some.inj hq).symm⟩
      · refine .inr ⟨hq, fun heq => ?_⟩
        have hother := hnone q v hq
        simp [heq] at hother
    refine ⟨_, _, rfl, ?_, fun hq => Table.get?_insert_of_some _ hq, fun hq hq' => ?_⟩
    · rw [Table.get?_insert, if_pos rfl]
    · rcases hnew hq with ⟨rfl, rfl⟩ | ⟨hold, hne⟩
      · rcases hnew hq' with ⟨rfl, -⟩ | ⟨-, hne⟩
        · rfl
        · exact absurd rfl hne
      · rcases hnew hq' with ⟨-, rfl⟩ | ⟨hold', -⟩
        · exact absurd rfl hne
        · exact h.one hold hold'

/-- A record is linked to an account that has no other at work whose shifts cross. -/
theorem Rota.Sound.link {i userId : ℕ} (h : s.Sound (some i)) (huser : userId < s.accounts)
    (hclear : ∀ {j b c}, s.cat.barbers.get? i = some b → b.engaged s.now = true →
      s.cat.barbers.get? j = some c → j ≠ i → c.userId = some userId → c.engaged s.now = true →
        s.shiftsClash i j = false) : (s.linkBarberToProfessional i userId).Sound none := by
  obtain ⟨professionals, p, hensure, hp, hkeeps, hone⟩ := ensureProfessional_spec h.people userId
  have hrow : ∀ {j b'}, (s.linkBarberToProfessional i userId).cat.barbers.get? j = some b' →
      ∃ b, s.cat.barbers.get? j = some b ∧ (∀ now, b'.engaged now = b.engaged now) ∧
        (j = i ∧ b'.userId = some userId ∧ b'.professionalId = some p ∨
          j ≠ i ∧ b'.userId = b.userId ∧ (b'.professionalId = b.professionalId ∨
            b.userId = some userId ∧ b'.professionalId = some p)) := by
    intro j b' hb'
    simp only [linkBarberToProfessional, setBarbers, hensure] at hb'
    rw [Table.get?_modify, Table.get?_modifyAll] at hb'
    split at hb'
    · next hj =>
      obtain ⟨b₁, hb₁, rfl⟩ := Option.map_eq_some_iff.1 hb'
      obtain ⟨b, hb, rfl⟩ := Option.map_eq_some_iff.1 hb₁
      refine ⟨b, hb, fun now => ?_, .inl ⟨hj, rfl, rfl⟩⟩
      split <;> rfl
    · next hj =>
      obtain ⟨b, hb, rfl⟩ := Option.map_eq_some_iff.1 hb'
      split
      · next hold => exact ⟨b, hb, fun _ => rfl, .inr ⟨hj, rfl, .inr ⟨hold.1, rfl⟩⟩⟩
      · exact ⟨b, hb, fun _ => rfl, .inr ⟨hj, rfl, .inl rfl⟩⟩
  have hprofessionals : (s.linkBarberToProfessional i userId).professionals = professionals := by
    simp only [linkBarberToProfessional, setBarbers, hensure]
  have hnow : (s.linkBarberToProfessional i userId).now = s.now := by
    simp only [linkBarberToProfessional, setBarbers, hensure]
  have haccounts : (s.linkBarberToProfessional i userId).accounts = s.accounts := by
    simp only [linkBarberToProfessional, setBarbers, hensure]
  have hpeople : (s.linkBarberToProfessional i userId).People none := by
    constructor
    · intro j b' u hb' hu
      rw [haccounts]
      obtain ⟨b, hb, -, ⟨-, hmine, -⟩ | ⟨-, hsame, -⟩⟩ := hrow hb'
      · rw [hmine] at hu
        obtain rfl := Option.some.inj hu
        exact huser
      · exact h.people.accounts hb (hsame.symm.trans hu)
    · intro j b' q hb' hq
      rw [hprofessionals]
      obtain ⟨b, hb, -, ⟨-, hmine, hmineP⟩ | ⟨-, hsame, hsameP | ⟨hold, hnewP⟩⟩⟩ := hrow hb'
      · rw [hmineP] at hq
        obtain rfl := Option.some.inj hq
        exact ⟨userId, hmine, hp⟩
      · obtain ⟨u, hu, hprofessional⟩ := h.people.professional hb (hsameP.symm.trans hq)
        exact ⟨u, hsame.trans hu, hkeeps hprofessional⟩
      · rw [hnewP] at hq
        obtain rfl := Option.some.inj hq
        exact ⟨userId, hsame.trans hold, hp⟩
    · intro j b' u hb' _ hu
      obtain ⟨b, hb, -, ⟨-, -, hmineP⟩ | ⟨hj, hsame, hsameP | ⟨-, hnewP⟩⟩⟩ := hrow hb'
      · exact ⟨p, hmineP⟩
      · obtain ⟨q, hq⟩ := h.people.linked hb (fun heq => hj (Option.some.inj heq))
          (hsame.symm.trans hu)
        exact ⟨q, hsameP.trans hq⟩
      · exact ⟨p, hnewP⟩
    · rw [hprofessionals]
      exact hone
  refine h.change i hpeople ?_ (fun {j b} hb => ?_) (fun {j c'} hj hc' => ?_) fun {j} htogether => ?_
  · simp only [linkBarberToProfessional, setBarbers, hensure]
  · simp only [linkBarberToProfessional, setBarbers, hensure]
    rw [Table.get?_modify, Table.get?_modifyAll, hb]
    split
    · exact ⟨_, rfl⟩
    · exact ⟨_, rfl⟩
  · rw [hnow]
    obtain ⟨c, hc, hengaged, ⟨hji, -⟩ | ⟨-, hsame, -⟩⟩ := hrow hc'
    · exact absurd hji hj
    · exact ⟨c, hc, fun h => (hengaged _).symm.trans h, fun u h => hsame.symm.trans h⟩
  · obtain ⟨hne, b', c', u, hb', hc', hworks, hworks', hu, hv⟩ := htogether
    rw [hnow] at hworks hworks'
    obtain ⟨b, hb, hengaged, ⟨-, hmine, -⟩ | ⟨hii, -⟩⟩ := hrow hb'
    · obtain ⟨c, hc, hengaged', ⟨hji, -⟩ | ⟨-, hsame, -⟩⟩ := hrow hc'
      · exact absurd hji.symm hne
      · rw [hmine] at hu
        obtain rfl := Option.some.inj hu
        exact .inr (hclear hb ((hengaged _).symm.trans hworks) hc hne.symm
          (hsame.symm.trans hv) ((hengaged' _).symm.trans hworks'))
    · exact absurd rfl hii

/-! ## A week -/

theorem upsertSchedule_row {row r : BarberSchedule} {t : Table BarberSchedule} {k : ℕ}
    (h : (upsertSchedule row t).get? k = some r) : t.get? k = some r ∨ r = row := by
  unfold upsertSchedule at h
  split at h
  · rw [Table.get?_modify] at h
    split at h
    · obtain ⟨-, -, rfl⟩ := Option.map_eq_some_iff.1 h
      exact .inr rfl
    · exact .inl h
  · rw [Table.get?_insert] at h
    split at h
    · exact .inr (Option.some.inj h).symm
    · exact .inl h

/-- A row that a day of the week writes. -/
structure BarberSchedule.Of (r : BarberSchedule) (barberId : ℕ) (hours : ℤ → DayHours)
    (d : ScheduleDayInput) : Prop where
  barberId : r.barberId = barberId
  dayOfWeek : r.dayOfWeek = d.dayOfWeek
  shopWindow : r.shopWindow = hours d.dayOfWeek
  custom : r.isActive = true → d.mode = .CUSTOM ∧ r.startTime = d.startTime.getD [] ∧
    r.endTime = d.endTime.getD []

theorem writeScheduleDay_row {barberId k : ℕ} {hours : ℤ → DayHours} {t : Table BarberSchedule}
    {d : ScheduleDayInput} {r : BarberSchedule}
    (h : (writeScheduleDay barberId hours t d).get? k = some r) :
    t.get? k = some r ∨ r.Of barberId hours d := by
  unfold writeScheduleDay at h
  split at h
  · exact .inl (Table.get?_eraseAll.1 h).1
  · rcases upsertSchedule_row h with hold | rfl
    · exact .inl hold
    · exact .inr ⟨rfl, rfl, rfl, fun h => by cases h⟩
  · next hmode =>
    rcases upsertSchedule_row h with hold | rfl
    · exact .inl hold
    · exact .inr ⟨rfl, rfl, rfl, fun _ => ⟨hmode, rfl, rfl⟩⟩

/-- The rows after a week is written: old ones, and those of its days. -/
theorem writeWeek_row {barberId k : ℕ} {hours : ℤ → DayHours} {days : List ScheduleDayInput}
    {t : Table BarberSchedule} {r : BarberSchedule}
    (h : (days.foldl (writeScheduleDay barberId hours) t).get? k = some r) :
    t.get? k = some r ∨ ∃ d ∈ days, r.Of barberId hours d := by
  induction days generalizing t with
  | nil => exact .inl h
  | cons d days ih =>
    rcases ih h with hold | ⟨d', hd', hof⟩
    · rcases writeScheduleDay_row hold with hold | hof
      · exact .inl hold
      · exact .inr ⟨d, List.mem_cons_self .., hof⟩
    · exact .inr ⟨d', List.mem_cons_of_mem _ hd', hof⟩

/-- A day that passed its check: the own shift fits, and crosses none of the person elsewhere. -/
theorem Rota.checkScheduleDay_ok {barbershopId : ℕ} {d : ScheduleDayInput}
    (h : s.checkScheduleDay i barbershopId d = .ok ()) (hmode : d.mode = .CUSTOM) :
    fitsShopHours (d.startTime.getD []) (d.endTime.getD []) (s.hoursOn barbershopId d.dayOfWeek) =
      true ∧
    s.shiftTaken i d.dayOfWeek (d.startTime.getD []) (d.endTime.getD []) = false := by
  unfold checkScheduleDay at h
  simp only [hmode, ensureShiftFreeAcrossShops, bind_eq_ok, exists_punit, refuseIf_eq_ok,
    Bool.not_eq_false, Bool.not_eq_true] at h
  exact h

theorem Rota.shiftTaken_eq_false {j l : ℕ} {dayOfWeek : ℤ} {start finish : TimeText} {c : Barber}
    {q : BarberSchedule} (h : s.shiftTaken i dayOfWeek start finish = false)
    (hsame : s.samePerson i j = true) (hne : j ≠ i) (hc : s.cat.barbers.get? j = some c)
    (hengaged : c.engaged s.now = true) (hq : s.schedules.get? l = some q) (hqj : q.barberId = j)
    (hactive : q.isActive = true) (hday : q.dayOfWeek = dayOfWeek) :
    shiftsOverlap start finish q.startTime q.endTime = false := by
  unfold shiftTaken at h
  have hrow := Table.any_eq_false.1 h l q hq
  unfold samePerson at hsame
  rw [List.contains_eq_mem, decide_eq_true_eq] at hsame
  simpa [hqj, hne, hsame, hday, hactive, hc, hengaged] using hrow

theorem Rota.Sound.week {days : List ScheduleDayInput} (h : s.Sound none)
    (hset : s.setWeeklySchedule i days = .ok s') : s'.Sound none := by
  simp only [setWeeklySchedule, bind_eq_ok, exists_punit, orRefuse_eq_ok, pure_eq_ok] at hset
  obtain ⟨b, hb, -, hdays, rfl⟩ := hset
  have hchecked := eachDay_ok.1 hdays
  constructor
  · exact h.people.rows le_rfl rfl fun hb => .inr ⟨_, hb, rfl, rfl⟩
  · intro k r hr
    rcases writeWeek_row hr with hold | ⟨d, -, hof⟩
    · exact h.owned hold
    · exact ⟨b, by rw [hof.barberId]; exact hb⟩
  · -- the shifts of the others are old; one of the barber's own is old, or has passed its check
    have hmine : ∀ {j}, s.Together i j → Rota.shiftsClash { s with
        schedules := days.foldl (writeScheduleDay i (s.hoursOn b.barbershopId)) s.schedules } i j =
          false := by
      intro j htogether
      rw [shiftsClash_eq_false]
      intro k l r q hr hq hri hqj hractive hqactive hday
      have hqold : s.schedules.get? l = some q := by
        rcases writeWeek_row hq with hold | ⟨d, -, hof⟩
        · exact hold
        · exact absurd (hof.barberId.symm.trans hqj) htogether.1
      rcases writeWeek_row hr with hold | ⟨d, hd, hof⟩
      · exact shiftsClash_eq_false.1 (h.apart htogether) hold hqold hri hqj hractive hqactive hday
      · obtain ⟨hne, b', c, u, hb', hc, -, hengaged, hu, hv⟩ := htogether
        obtain ⟨hmode, hstart, hend⟩ := hof.custom hractive
        have hfree := (checkScheduleDay_ok (hchecked d hd) hmode).2
        rw [hstart, hend]
        exact shiftTaken_eq_false hfree (h.people.found hb' hc hu hv) hne.symm hc hengaged hqold hqj
          hqactive (hday.symm.trans hof.dayOfWeek)
    intro j k htogether
    have hbefore : s.Together j k := htogether
    by_cases hj : j = i
    · subst hj
      exact hmine hbefore
    by_cases hk : k = i
    · subst hk
      rw [shiftsClash_comm]
      exact hmine hbefore.symm
    · rw [shiftsClash_eq_false]
      intro m l r q hr hq hrj hqk
      have hold : ∀ {m r}, r.barberId ≠ i → (days.foldl (writeScheduleDay i
          (s.hoursOn b.barbershopId)) s.schedules).get? m = some r → s.schedules.get? m = some r := by
        intro m r hne hr
        rcases writeWeek_row hr with hold | ⟨d, -, hof⟩
        · exact hold
        · exact absurd hof.barberId hne
      exact shiftsClash_eq_false.1 (h.apart hbefore) (hold (by rw [hrj]; exact hj) hr)
        (hold (by rw [hqk]; exact hk) hq) hrj hqk
  · intro k r hr hactive
    rcases writeWeek_row hr with hold | ⟨d, hd, hof⟩
    · exact h.fits hold hactive
    · obtain ⟨hmode, hstart, hend⟩ := hof.custom hactive
      rw [hstart, hend, hof.shopWindow]
      exact (checkScheduleDay_ok (hchecked d hd) hmode).1

/-! ## The other requests -/

/-- A barber joins a team, with no account or with one whose professional is yet to be linked. -/
theorem Rota.Sound.hire (h : s.Sound none) (b : Barber) (shops : Table (Option Week))
    (invites : Table EmployeeInvite) (hprofessional : b.professionalId = none)
    (huser : ∀ u, b.userId = some u → u < s.accounts) :
    Rota.Sound { s with
      shops := shops
      cat := { s.cat with barbers := s.cat.barbers.insert b }
      invites := invites } (some s.cat.barbers.next) := by
  have hrow : ∀ {j b'}, (s.cat.barbers.insert b).get? j = some b' →
      j = s.cat.barbers.next ∧ b' = b ∨ j ≠ s.cat.barbers.next ∧ s.cat.barbers.get? j = some b' := by
    intro j b' hb'
    rw [Table.get?_insert] at hb'
    split at hb'
    · next hj => exact .inl ⟨hj, (Option.some.inj hb').symm⟩
    · next hj => exact .inr ⟨hj, hb'⟩
  refine h.change s.cat.barbers.next ?_ rfl (fun {j c} hc => ⟨c, Table.get?_insert_of_some _ hc⟩)
    (fun {j c} hj hc => ?_) fun {j} _ => .inr (h.none_clash (Table.get?_next _) j)
  · constructor
    · intro j b' u hb' hu
      rcases hrow hb' with ⟨-, rfl⟩ | ⟨-, hold⟩
      · exact huser u hu
      · exact h.people.accounts hold hu
    · intro j b' p hb' hp
      rcases hrow hb' with ⟨-, rfl⟩ | ⟨-, hold⟩
      · rw [hprofessional] at hp
        cases hp
      · exact h.people.professional hold hp
    · intro j b' u hb' hne hu
      rcases hrow hb' with ⟨rfl, -⟩ | ⟨-, hold⟩
      · exact absurd rfl hne
      · exact h.people.linked hold (by simp) hu
    · exact h.people.one
  · rcases hrow hc with ⟨hnext, -⟩ | ⟨-, hold⟩
    · exact absurd hnext hj
    · exact ⟨c, hold, id, fun _ => id⟩

theorem Rota.Sound.createBarbershop {userId : ℕ} {businessHours : Option Week} (h : s.Sound none)
    (he : s.createBarbershop userId businessHours = .ok s') : s'.Sound none := by
  simp only [Rota.createBarbershop, bind_eq_ok, exists_punit, refuseIf_eq_ok, not_le,
    pure_eq_ok] at he
  obtain ⟨huser, hours, -, -, rfl⟩ := he
  have hnone := h.none_clash (Table.get?_next s.cat.barbers)
  have hhired := h.hire (newBarber s.shops.next (some userId) none none) (s.shops.insert hours)
    s.invites rfl fun u hu => by rwa [← Option.some.inj hu]
  exact hhired.link huser fun {j _ _} _ _ _ _ _ _ => hnone j

theorem Rota.Sound.createInvite {barbershopId : ℕ} {startsAt endsAt : Option ℤ} (h : s.Sound none)
    (he : s.createInvite barbershopId startsAt endsAt = .ok s') : s'.Sound none := by
  simp only [Rota.createInvite, bind_eq_ok, exists_punit, pure_eq_ok] at he
  obtain ⟨-, rfl⟩ := he
  have hhired := h.hire (newBarber barbershopId none startsAt endsAt) s.shops
    (s.invites.insert ⟨barbershopId, s.cat.barbers.next, .pending, s.now + EMPLOYEE_INVITE_MS⟩)
    rfl fun u hu => by cases hu
  refine hhired.keep ⟨hhired.people.accounts, hhired.people.professional, ?_, hhired.people.one⟩ rfl
    (fun hb => ⟨_, hb⟩) .inl
  intro j b u hb _ hu
  by_cases hj : some j = some s.cat.barbers.next
  · -- the invited barber has no account yet
    obtain rfl := Option.some.inj hj
    have hrow : (s.cat.barbers.insert (newBarber barbershopId none startsAt endsAt)).get?
      s.cat.barbers.next = some b := hb
    rw [Table.get?_insert, if_pos rfl] at hrow
    obtain rfl := Option.some.inj hrow
    cases hu
  · exact hhired.people.linked hb hj hu

theorem Rota.openInvite_ok {inviteId : ℕ} {invite : EmployeeInvite}
    (h : s.openInvite inviteId = .ok invite) : s.invites.get? inviteId = some invite := by
  simp only [openInvite, bind_eq_ok, exists_punit, orRefuse_eq_ok, refuseIf_eq_ok, pure_eq_ok] at h
  obtain ⟨x, hx, -, -, -, rfl⟩ := h
  exact hx

theorem Rota.Sound.settleInvite {inviteId : ℕ} (h : s.Sound none) :
    (s.settleInvite inviteId).Sound none :=
  h.same le_rfl rfl rfl rfl rfl

theorem Rota.Sound.acceptInvite {inviteId : ℕ} (h : s.Sound none)
    (he : s.acceptInvite inviteId = .ok s') : s'.Sound none := by
  simp only [Rota.acceptInvite, bind_eq_ok, pure_eq_ok] at he
  obtain ⟨invite, -, rfl⟩ := he
  have hsigned : Rota.Sound { s with accounts := s.accounts + 1 } none :=
    h.same (Nat.le_succ _) rfl rfl rfl rfl
  have hweak : Rota.Sound { s with accounts := s.accounts + 1 } (some invite.barberId) :=
    hsigned.keep (hsigned.people.weaken _) rfl (fun hb => ⟨_, hb⟩) .inl
  refine (hweak.link (Nat.lt_succ_self _) fun {j b c} _ _ hc _ hu _ => ?_).settleInvite
  -- the account is new
  exact absurd (h.people.accounts hc hu) (Nat.lt_irrefl _)

theorem Rota.Sound.acceptInviteAsUser {inviteId userId : ℕ} (h : s.Sound none)
    (hclear : (RotaEvent.acceptInviteAsUser inviteId userId).bringsNoClash s = true)
    (he : s.acceptInviteAsUser inviteId userId = .ok s') : s'.Sound none := by
  simp only [Rota.acceptInviteAsUser, bind_eq_ok, exists_punit, refuseIf_eq_ok, not_le,
    pure_eq_ok] at he
  obtain ⟨invite, hinvite, huser, -, rfl⟩ := he
  simp only [RotaEvent.bringsNoClash, openInvite_ok hinvite, Option.all_some] at hclear
  have hrow : ∀ {j b'}, (s.unlinkOld invite userId).cat.barbers.get? j = some b' →
      ∃ b, s.cat.barbers.get? j = some b ∧ (∀ now, b'.engaged now = b.engaged now) ∧
        (b'.userId = none ∧ b'.professionalId = none ∨ b' = b) := by
    intro j b' hb'
    simp only [unlinkOld, setBarbers] at hb'
    rw [Table.get?_modifyAll] at hb'
    obtain ⟨b, hb, rfl⟩ := Option.map_eq_some_iff.1 hb'
    split
    · exact ⟨b, hb, fun _ => rfl, .inl ⟨rfl, rfl⟩⟩
    · exact ⟨b, hb, fun _ => rfl, .inr rfl⟩
  have hpeople : (s.unlinkOld invite userId).People none := by
    refine h.people.rows le_rfl rfl fun hb' => ?_
    obtain ⟨b, hb, -, hnone | rfl⟩ := hrow hb'
    · exact .inl hnone
    · exact .inr ⟨_, hb, rfl, rfl⟩
  have hsound : (s.unlinkOld invite userId).Sound (some invite.barberId) := by
    refine h.keep (hpeople.weaken _) rfl (fun {j b} hb => ?_) fun {j k} htogether => ?_
    · simp only [unlinkOld, setBarbers]
      rw [Table.get?_modifyAll, hb]
      exact ⟨_, rfl⟩
    · obtain ⟨hne, b', c', u, hb', hc', hworks, hworks', hu, hv⟩ := htogether
      obtain ⟨b, hb, -, ⟨hnone, -⟩ | rfl⟩ := hrow hb'
      · rw [hnone] at hu
        cases hu
      obtain ⟨c, hc, -, ⟨hnone, -⟩ | rfl⟩ := hrow hc'
      · rw [hnone] at hv
        cases hv
      exact .inl ⟨hne, _, _, u, hb, hc, hworks, hworks', hu, hv⟩
  refine (hsound.link huser fun {j b' c'} hb' hworks hc' hne hu hworks' => ?_).settleInvite
  obtain ⟨b, hb, hengaged, -⟩ := hrow hb'
  obtain ⟨c, hc, -, ⟨hnone, -⟩ | rfl⟩ := hrow hc'
  · rw [hnone] at hu
    cases hu
  have hworking : (s.cat.barbers.get? invite.barberId).any (·.engaged s.now) = true := by
    rw [hb]
    exact (hengaged _).symm.trans hworks
  rw [hworking, Bool.not_true, Bool.false_or] at hclear
  exact clearOf_eq_true.1 hclear hc hne (beq_iff_eq.2 hu) hworks'

/-- Time passes; an engagement may begin. -/
theorem Rota.Sound.pass {time : ℕ} (h : s.Sound none)
    (hclear : (RotaEvent.pass time).bringsNoClash s = true) :
    Rota.Sound { s with now := s.now + time } none := by
  rw [RotaEvent.bringsNoClash, Bool.not_eq_true', Table.any_eq_false] at hclear
  -- of two that come together one begins
  have hbegins : ∀ {j k b c u}, j ≠ k → s.cat.barbers.get? j = some b →
      s.cat.barbers.get? k = some c → b.engaged (s.now + time) = true →
      c.engaged (s.now + time) = true → b.userId = some u → c.userId = some u →
      b.engaged s.now = false → s.shiftsClash j k = false := by
    intro j k b c u hne hb hc hworks hworks' hu hv hnot
    have hrow := hclear j b hb
    simp only [hnot, hworks, Bool.not_false, Bool.true_and, Bool.not_eq_false'] at hrow
    exact clearOf_eq_true.1 hrow hc hne.symm (h.people.found hb hc hu hv) hworks'
  refine h.keep (h.people.rows le_rfl rfl fun hb => .inr ⟨_, hb, rfl, rfl⟩) rfl
    (fun hb => ⟨_, hb⟩) fun {j k} htogether => ?_
  obtain ⟨hne, b, c, u, hb, hc, hworks, hworks', hu, hv⟩ := htogether
  cases hbefore : b.engaged s.now with
  | false => exact .inr (hbegins hne hb hc hworks hworks' hu hv hbefore)
  | true =>
    cases hbefore' : c.engaged s.now with
    | false =>
      rw [shiftsClash_comm]
      exact .inr (hbegins hne.symm hc hb hworks' hworks hv hu hbefore')
    | true => exact .inl ⟨hne, b, c, u, hb, hc, hbefore, hbefore', hu, hv⟩

theorem Rota.Sound.cancelInvites (h : s.Sound none) : (s.cancelInvites i).Sound none :=
  h.same le_rfl rfl rfl rfl rfl

/-- Every request keeps the law, if nobody comes to be at work with a shift that crosses. -/
theorem RotaEvent.sound {e : RotaEvent} (h : s.Sound none) (hclear : e.bringsNoClash s = true)
    (he : e.exec s = .ok s') : s'.Sound none := by
  cases e with
  | signUp =>
    obtain rfl := pure_eq_ok.1 he
    exact h.same (Nat.le_succ _) rfl rfl rfl rfl
  | createBarbershop userId businessHours => exact h.createBarbershop he
  | setBusinessHours barbershopId days =>
    simp only [exec, Rota.setBusinessHours, bind_eq_ok, exists_punit, pure_eq_ok] at he
    obtain ⟨week, -, -, rfl⟩ := he
    exact h.same le_rfl rfl rfl rfl rfl
  | setWeeklySchedule barberId days => exact h.week he
  | createInvite barbershopId startsAt endsAt => exact h.createInvite he
  | acceptInvite inviteId => exact h.acceptInvite he
  | acceptInviteAsUser inviteId userId => exact h.acceptInviteAsUser hclear he
  | deleteBarber barbershopId barberId =>
    simp only [exec, Rota.deleteBarber, bind_eq_ok, pure_eq_ok] at he
    obtain ⟨-, -, rfl⟩ := he
    have hsound : (s.setBarber barberId fun b => { b with isActive := false }).Sound none :=
      h.setBarber (fun _ => ⟨rfl, rfl⟩) fun _ hworks => by cases hworks
    exact hsound.cancelInvites
  | reactivateBarber barbershopId barberId =>
    simp only [exec, Rota.reactivateBarber, bind_eq_ok, pure_eq_ok] at he
    obtain ⟨b, hb, rfl⟩ := he
    refine h.setBarber (fun _ => ⟨rfl, rfl⟩) fun {b'} hb' hworks => ?_
    simp only [bringsNoClash, hb', Option.all_some] at hclear
    have hwithin : b'.withinEngagement s.now = true := hworks
    rw [hwithin, Bool.not_true, Bool.false_or] at hclear
    exact .inr hclear
  | updateBarber barbershopId barberId isActive startsAt endsAt =>
    simp only [exec, Rota.updateBarber, bind_eq_ok, exists_punit, pure_eq_ok] at he
    obtain ⟨b, hb, -, rfl⟩ := he
    have hsound : (s.setBarber barberId (Rota.edited isActive startsAt endsAt)).Sound none := by
      refine h.setBarber (fun _ => ⟨rfl, rfl⟩) fun {b'} hb' hworks => ?_
      simp only [bringsNoClash, hb', Option.all_some, hworks, Bool.not_true, Bool.false_or]
        at hclear
      exact .inr hclear
    split
    · exact hsound.cancelInvites
    · exact hsound
  | pass time =>
    obtain rfl := pure_eq_ok.1 he
    exact h.pass hclear

end Shifts

/-! ## Runs -/

/-- Before the first unit. -/
def noRota : Rota where
  now := 0
  accounts := 1
  shops := .empty
  cat := {
    services := fun _ => none
    products := fun _ => none
    serviceHistories := fun _ => none
    barbers := .empty }
  professionals := .empty
  schedules := .empty
  invites := .empty

/-- One's own hours on a Monday. -/
def monday (startTime endTime : String) : ScheduleDayInput where
  dayOfWeek := 1
  mode := .CUSTOM
  startTime := some startTime.toList
  endTime := some endTime.toList
  breakStart := none
  breakEnd := none

/-- Two units, each with a manager and an invited barber; the first makes an account. -/
def twoUnits : List RotaEvent :=
  [.signUp, .createBarbershop 1 none, .signUp, .createBarbershop 2 none, .createInvite 1 none none,
    .createInvite 2 none none, .acceptInvite 1]

/-- The manager of the second unit has set the week before the barber accepts. -/
def setBeforeAccepted : List RotaEvent :=
  twoUnits ++ [.setWeeklySchedule 3 [monday "09:00" "12:00"],
    .setWeeklySchedule 4 [monday "10:00" "13:00"], .acceptInviteAsUser 2 3]


/-- In every run in which nobody comes to be at work with a shift that crosses, the law holds in
every state. -/
theorem shifts_apart {events : List RotaEvent} {s : Rota}
    (hclear : rota.Meets (fun s e => e.bringsNoClash s = true) noRota events)
    (hrun : rota.run noRota events = some s) : s.ShiftLaw := by
  have hstart : noRota.Sound none := by
    constructor
    · constructor
      · intro i b u hb
        cases hb
      · intro i b p hb
        cases hb
      · intro i b u hb
        cases hb
      · intro p p' u hp
        cases hp
    · intro k r hr
      cases hr
    · rintro i j ⟨-, b, c, u, hb, -⟩
      cases hb
    · intro k r hr
      cases hr
  have hend : s.Sound none := rota.run_inv_of_meets (I := (·.Sound none))
    (fun hsound hclear hstep => RotaEvent.sound hsound hclear (toOption_eq_some.1 hstep))
    hstart hclear hrun
  exact hend.law

/-- The barber accepts, and then the manager of the second unit finds room after the first. -/
def setAfterAccepted : List RotaEvent :=
  twoUnits ++ [.setWeeklySchedule 3 [monday "09:00" "12:00"], .acceptInviteAsUser 2 3,
    .setWeeklySchedule 4 [monday "12:00" "15:00"], .deleteBarber 1 3, .reactivateBarber 1 3]

theorem setAfterAccepted_apart : ∃ s, rota.run noRota setAfterAccepted = some s ∧ s.ShiftLaw ∧
    s.cat.barbers.any (fun i b => i == 4 && b.userId == some 3) = true := by
  have hclear : rota.Meets (fun s e => e.bringsNoClash s = true) noRota setAfterAccepted := by
    decide +kernel
  have hend : (rota.run noRota setAfterAccepted).any (fun s =>
      s.cat.barbers.any fun i b => i == 4 && b.userId == some 3) = true := by
    decide +kernel
  obtain ⟨s, hrun, hs⟩ := (Option.any_eq_true _ _).1 hend
  exact ⟨s, hrun, shifts_apart hclear hrun, hs⟩

/-- A barber who accepts an invite brings the shifts that the record has. -/
theorem setBeforeAccepted_crosses : ∃ s, rota.run noRota setBeforeAccepted = some s ∧
    ¬ s.ShiftLaw := by
  have hend : (rota.run noRota setBeforeAccepted).any (fun s =>
      (s.cat.barbers.get? 3).any fun b => (s.cat.barbers.get? 4).any fun c =>
        (s.schedules.get? 1).any fun r => (s.schedules.get? 2).any fun q =>
          b.barbershopId != c.barbershopId && b.engaged s.now && c.engaged s.now &&
            b.userId == some 3 && c.userId == some 3 && r.barberId == 3 && q.barberId == 4 &&
              r.isActive && q.isActive && r.dayOfWeek == q.dayOfWeek &&
                shiftsOverlap r.startTime r.endTime q.startTime q.endTime) = true := by
    decide +kernel
  obtain ⟨s, hrun, hs⟩ := (Option.any_eq_true _ _).1 hend
  obtain ⟨b, hb, hs⟩ := (Option.any_eq_true _ _).1 hs
  obtain ⟨c, hc, hs⟩ := (Option.any_eq_true _ _).1 hs
  obtain ⟨r, hr, hs⟩ := (Option.any_eq_true _ _).1 hs
  obtain ⟨q, hq, hs⟩ := (Option.any_eq_true _ _).1 hs
  simp only [Bool.and_eq_true, beq_iff_eq, bne_iff_ne, ne_eq] at hs
  obtain ⟨⟨⟨⟨⟨⟨⟨⟨⟨⟨hshop, hb'⟩, hc'⟩, hu⟩, hv⟩, hri⟩, hqj⟩, hra⟩, hqa⟩, hday⟩, hcross⟩ := hs
  refine ⟨s, hrun, fun hlaw => ?_⟩
  have hfree := hlaw.apart hb hc hshop hb' hc' (.inl ⟨3, hu, hv⟩) hr hq hri hqj hra hqa hday
  rw [hcross] at hfree
  cases hfree

end Barbershop
