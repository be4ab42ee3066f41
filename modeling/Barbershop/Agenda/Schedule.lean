import Barbershop.Agenda.AppointmentUpdate
import Barbershop.Agenda.Public
import Barbershop.Cash.Session
import Barbershop.Lib.Machine
import Barbershop.Lib.Reservation

/-!
# Writing to the agenda

Whoever books or moves an appointment does it in a transaction that takes the locks of the schedule,
checks that the person and the resource are free, and writes. The locks are of the person who attends, by
account, else of the record, and of the resource (`lockSchedule`), and are held to the end. A move and an
edit go by a row that was read before the transaction, and each writes only the fields it changes.

Every query is a step of its own. What a request checks before its transaction is in `BookingEvent.step` as
far as it decides what is written; the rest only refuses. Staff, units and resources do not change while
the requests run.
-/

namespace Barbershop

open Lib

/-! ## Locks -/

/-- The advisory locks: of an account, of a professional without one, and of a resource. -/
inductive ScheduleLock where
  | user (userId : ℕ)
  | barber (barberId : ℕ)
  | resource (resourceId : ℕ)
  deriving DecidableEq, Repr

def personLock (cat : Catalog) (barberId : ℕ) : ScheduleLock :=
  match (cat.barbers.get? barberId).bind (·.userId) with
  | some userId => .user userId
  | none => .barber barberId

/-- A time at a unit, with a professional and perhaps a resource. -/
@[ext]
structure Slot where
  barbershopId : ℕ
  barberId : ℕ
  resourceId : Option ℕ
  startAt : ℤ
  endAt : ℤ
  deriving DecidableEq, Repr

def Appointment.slot (a : Appointment) : Slot where
  barbershopId := a.barbershopId
  barberId := a.barberId
  resourceId := a.resourceId
  startAt := a.startAt
  endAt := a.endAt

/-- `lockSchedule`: the locks in the order they are taken. -/
def Slot.locks (cat : Catalog) (s : Slot) : List ScheduleLock :=
  personLock cat s.barberId :: (s.resourceId.map .resource).toList

/-! ## What is written -/

/-- The input of `createAppointment`, with the deposit as it was settled before the transaction. -/
structure StaffBooking where
  customerId : ℕ
  barberId : ℕ
  resourceId : Option ℕ
  startAt : ℤ
  endAt : ℤ
  status : Option AppointmentStatus
  source : Option AppointmentSource
  depositAmount : Option ℚ
  receipt : Option DepositReceipt

def StaffBooking.row (barbershopId : ℕ) (data : StaffBooking) : Appointment :=
  let unpaid : Appointment := {
    barbershopId := barbershopId
    customerId := data.customerId
    barberId := data.barberId
    resourceId := data.resourceId
    startAt := data.startAt
    endAt := data.endAt
    status := data.status.getD .confirmed
    source := data.source.getD .phone
    holdExpiresAt := none
    depositAmount := data.depositAmount
    depositPaid := false
    depositPaidAt := none
    depositRefundedAt := none
    depositManualMethod := none
    depositReceivedAt := none
    depositReceivedByUserId := none
    depositCashSessionId := none
    depositPaymentIntentId := none
    prepaidPaymentIntentId := none
    prepaidAt := none
    prepaidAmount := none
    prepaidRefundedAt := none
    prepaidRefundedAmount := none
    linkVersion := 0 }
  data.receipt.elim unpaid unpaid.receiveDeposit

/-- An edit on its way, with the row it goes by. -/
structure UpdateCall where
  appointmentId : ℕ
  seen : Appointment
  /-- With the end that keeps the duration where only the start is given. -/
  data : AppointmentChange
  /-- The reservation waited for its deposit. -/
  settles : Bool
  changesCustomer : Bool

namespace UpdateCall

variable (c : UpdateCall)

def start (appointmentId : ℕ) (data : AppointmentChange) (a : Appointment) : UpdateCall where
  appointmentId := appointmentId
  seen := a
  data := { data with endAt := if data.startAt.isSome then some (data.newEnd a) else data.endAt }
  settles := data.settles a
  changesCustomer := data.changesCustomer a

def finalStatus : AppointmentStatus := c.data.status.getD c.seen.status

/-- What the transaction locks and checks, if the appointment is to take its slot. -/
def slot : Option Slot :=
  if c.finalStatus.occupies then
    some {
      barbershopId := c.seen.barbershopId
      barberId := c.data.barberId.getD c.seen.barberId
      resourceId := c.data.resourceId.or c.seen.resourceId
      startAt := c.data.startAt.getD c.seen.startAt
      endAt := c.data.endAt.getD c.seen.endAt }
  else none

def bump : ℕ :=
  if c.changesCustomer then 2
  else if c.data.status = some .cancelled ∧ c.seen.status ≠ .cancelled then 1
  else 0

/-- Only what the edit changes is written. -/
def row (a : Appointment) : Appointment :=
  { a with
    customerId := c.data.customerId.getD a.customerId
    barberId := c.data.barberId.getD a.barberId
    resourceId := c.data.resourceId.or a.resourceId
    startAt := c.data.startAt.getD a.startAt
    endAt := c.data.endAt.getD a.endAt
    status := c.data.status.getD a.status
    holdExpiresAt := if c.settles then none else a.holdExpiresAt
    linkVersion := a.linkVersion + c.bump }

end UpdateCall

/-! ## Requests -/

/-- A transaction of one of the four requests. -/
inductive BookingRequest where
  | create (barbershopId : ℕ) (data : StaffBooking)
  /-- For one of the professionals that are tried. -/
  | book (c : CreateCall) (customerId barberId : ℕ)
  | move (c : MoveCall)
  | update (c : UpdateCall)

namespace BookingRequest

/-- The appointment that the check leaves out: its own. -/
def own : BookingRequest → Option ℕ
  | move c => some c.appointmentId
  | update c => some c.appointmentId
  | _ => none

def slot : BookingRequest → Option Slot
  | create barbershopId data => some {
      barbershopId := barbershopId
      barberId := data.barberId
      resourceId := data.resourceId
      startAt := data.startAt
      endAt := data.endAt }
  | book c _ barberId => some {
      barbershopId := c.data.barbershopId
      barberId := barberId
      resourceId := none
      startAt := c.data.startAt
      endAt := c.data.endAt }
  | move c => some {
      barbershopId := c.seen.barbershopId
      barberId := c.seen.barberId
      resourceId := c.seen.resourceId
      startAt := c.startAt
      endAt := c.endAt }
  | update c => c.slot

def locks (cat : Catalog) (r : BookingRequest) : List ScheduleLock := r.slot.elim [] (·.locks cat)

/-- The appointments after the write; a move writes to the row it has seen, or is refused. -/
def write (now : ℤ) (appointments : Table Appointment) : BookingRequest → Option (Table Appointment)
  | create barbershopId data => some (appointments.insert (data.row barbershopId))
  | book c customerId barberId => some (appointments.insert (c.row customerId barberId now))
  | move c => appointments.tryModify c.appointmentId c.unmoved c.row
  | update c => appointments.tryModify c.appointmentId (fun _ => true) c.row

/-- Once its deposit is paid, the row of an edit is read again. -/
def settle (paid : Bool) (appointments : Table Appointment) : BookingRequest → BookingRequest
  | update c =>
    if paid then update { c with seen := (appointments.get? c.appointmentId).getD c.seen } else update c
  | r => r

end BookingRequest

/-- A request in its transaction. -/
structure Booking where
  request : BookingRequest
  /-- The deposit of the reservation is still to be settled. -/
  unsettled : Bool
  personFree : Bool
  resourceFree : Bool

def BookingRequest.begin (r : BookingRequest) (unsettled : Bool) : Booking where
  request := r
  unsettled := unsettled
  personFree := false
  resourceFree := false

/-- Everything that is to be checked is. -/
def Booking.ready (b : Booking) : Bool :=
  !b.unsettled && b.request.slot.all fun s => b.personFree && (s.resourceId.isNone || b.resourceFree)

/-! ## The agenda -/

structure BookingDesk where
  diary : Diary
  running : Table (Running ScheduleLock Booking)

namespace BookingDesk

variable (s : BookingDesk)

def appointments : Table Appointment := s.diary.db.appointments

def withAppointments (appointments : Table Appointment) : BookingDesk :=
  { s with diary := { s.diary with db := { s.diary.db with appointments := appointments } } }

def begin (r : BookingRequest) (unsettled : Bool) : BookingDesk :=
  { s with running := s.running.insert ⟨[], r.begin unsettled⟩ }

end BookingDesk

inductive BookingEvent where
  | createAppointment (barbershopId : ℕ) (data : StaffBooking)
  | createPublicAppointment (c : CreateCall) (customerId barberId : ℕ)
  | rescheduleManagedAppointment (appointmentId : ℕ) (startAt : ℤ)
  | updateAppointment (ctx : Caller) (appointmentId : ℕ) (data : AppointmentChange)
      (ans : UpdateAnswers)
  | deleteAppointment (appointmentId : ℕ)
  /-- Anyone else moves an appointment on, without taking its slot back. -/
  | setStatus (appointmentId : ℕ) (status : AppointmentStatus)
  | tick (now : ℤ)

namespace BookingEvent

/-- The answers of the other tables, with the professionals of the catalog; whether the slot is free is
asked later. -/
def answers (cat : Catalog) (ctx : Caller) (data : AppointmentChange) (ans : UpdateAnswers) :
    UpdateAnswers :=
  { ans with
    ensureBarberOfBarbershop :=
      data.barberId.elim (.ok ()) fun id => ensureBarberOfBarbershop cat ctx.shop.id id true
    ensureAvailable := .ok () }

def step (cat : Catalog) (e : BookingEvent) (s : BookingDesk) : Option BookingDesk :=
  match e with
  | createAppointment barbershopId data =>
    if data.startAt < data.endAt ∧
        ensureBarberOfBarbershop cat barbershopId data.barberId true = .ok () then
      some (s.begin (.create barbershopId data) false)
    else none
  | createPublicAppointment c customerId barberId =>
    if ensureBarberOfBarbershop cat c.data.barbershopId barberId true = .ok () then
      some (s.begin (.book c customerId barberId) false)
    else none
  | rescheduleManagedAppointment appointmentId startAt =>
    match PublicEvent.step (.rescheduleManagedAppointment appointmentId startAt) ⟨s.diary, []⟩ with
    | some (_, some (.move c)) => some (s.begin (.move c) false)
    | _ => none
  | updateAppointment ctx appointmentId data ans =>
    (s.appointments.get? appointmentId).bind fun a =>
      if updateAppointmentChecks ctx data (answers cat ctx data ans) a = .ok () then
        some (s.begin (.update (.start appointmentId data a)) (data.settles a))
      else none
  | deleteAppointment appointmentId =>
    some (s.withAppointments (s.appointments.erase appointmentId))
  | setStatus appointmentId status =>
    (PublicEvent.step (.setStatus appointmentId status) ⟨s.diary, []⟩).map fun r =>
      { s with diary := r.1.diary }
  | tick now => (PublicEvent.step (.tick now) ⟨s.diary, []⟩).map fun r =>
      { s with diary := r.1.diary }

end BookingEvent

/-- The next step of a transaction; `stop` is what a refusal leads to. -/
inductive BookingStep where
  /-- What `settleDepositHold` says: paid, and the row is read again, or not. -/
  | settle (paid : Bool)
  | lock | checkPerson | checkResource | write | stop
  deriving DecidableEq, Repr

namespace BookingStep

def step (cat : Catalog) (k : BookingStep) (i : ℕ) (r : Running ScheduleLock Booking) (s : BookingDesk) :
    Option BookingDesk :=
  let b := r.body
  match k with
  | settle paid =>
    if b.unsettled then
      some { s with running := s.running.modify i fun r =>
        { r with body := (r.body.request.settle paid s.appointments).begin false } }
    else none
  | lock =>
    -- the first that it does not hold
    ((b.request.locks cat).find? fun k => !r.held.contains k).bind fun k =>
      if b.unsettled = false ∧ lockFree s.running i k then
        some { s with running := s.running.modify i (·.lock k) }
      else none
  | checkPerson =>
    b.request.slot.bind fun t =>
      if b.unsettled = false ∧ (b.request.locks cat).all r.held.contains = true ∧
          ensureBarberAvailable cat t.barbershopId t.barberId t.startAt t.endAt b.request.own
            s.diary.db = .ok () then
        some { s with running := s.running.modify i fun r =>
          { r with body := { r.body with personFree := true } } }
      else none
  | checkResource =>
    b.request.slot.bind fun t => t.resourceId.bind fun resourceId =>
      if b.unsettled = false ∧ b.personFree = true ∧ (b.request.locks cat).all r.held.contains = true ∧
          ensureResourceAvailable t.barbershopId resourceId t.startAt t.endAt b.request.own
            s.diary.db = .ok () then
        some { s with running := s.running.modify i fun r =>
          { r with body := { r.body with resourceFree := true } } }
      else none
  | write =>
    if b.ready then
      (b.request.write s.diary.now s.appointments).map fun appointments =>
        { s.withAppointments appointments with running := s.running.erase i }
    else none
  | stop => some { s with running := s.running.erase i }

end BookingStep

inductive BookingMove where
  | event (e : BookingEvent)
  | step (i : ℕ) (k : BookingStep)

/-- Any requests on the agenda at once. -/
def bookingDesk (cat : Catalog) : Machine BookingDesk BookingMove where
  step s
    | .event e => e.step cat s
    | .step i k => (s.running.get? i).bind fun r => k.step cat i r s

end Barbershop
