import Barbershop.Agenda.Phone
import Barbershop.Agenda.Slot
import Barbershop.Lib.Calls

/-!
# Public bookings

A client books on the public page (`createPublicAppointment`) or moves a booking by its link
(`rescheduleManagedAppointment`). Both check, inside their transaction, that the customer has no
other booking at that time and not too many to come; the customer is every record with the phone, or
of the account, that the request goes by. A creation first takes a lock on the phone it was given,
and holds it to the end; a move takes none.

Each query of a request is a step of its own, and sees the state it runs in. The locks of the
schedule, the rules of the slot, blocks and quotas are left out: all they can do is delay or refuse.
-/

namespace Barbershop

open Lib

def PUBLIC_UPCOMING_LIMIT : ℕ := 5

/-- `CONFIRMED` or `PENDING_PAYMENT`. -/
def AppointmentStatus.upcoming : AppointmentStatus → Bool
  | .confirmed | .pendingPayment => true
  | _ => false

/-- What the requests are given: the network of each unit, the catalog, and the hash of a lock. -/
structure Site where
  networkOf : ℕ → ℕ
  catalog : Catalog
  hashtext : ℕ → List PhoneText → ℤ

/-- The database, with the phone of each customer, and the clock. -/
structure Diary where
  db : Db
  phone : ℕ → PhoneText
  now : ℤ
  /-- The appointments the requests have created or moved, which no code reads. -/
  made : List ℕ

namespace Diary

variable (d : Diary)

/-- The records of a network with a phone, by the digits it is stored as. -/
def customerIdsByPhone (networkId : ℕ) (phone : PhoneText) : List ℕ :=
  (d.db.customers.filter fun id c => c.networkId == networkId && c.deletedAt.isNone &&
    (phoneDigitVariants phone).contains (digitsOf (d.phone id))).map Prod.fst

/-- The records of a network that are linked to an account. -/
def linkedIds (networkId : ℕ) (clientAccountId : Option ℕ) : List ℕ :=
  if clientAccountId.isSome then
    (d.db.customers.filter fun _ c => c.networkId == networkId &&
      c.clientAccountId == clientAccountId && c.deletedAt.isNone).map Prod.fst
  else []

end Diary

/-! ## The check -/

/-- Whom a request is for: the phone and the account it goes by, in a network. -/
structure PublicCustomer where
  networkId : ℕ
  phone : PhoneText
  clientAccountId : Option ℕ

/-- The queries of `assertPublicCustomerCanBook`, in order. -/
inductive CheckRead where
  | phones | linked | overlap | upcoming
  deriving DecidableEq, Repr

namespace PublicCustomer

variable (site : Site) (who : PublicCustomer)

/-- The records the check looks at. -/
def ids (reads : CheckRead → Diary) : List ℕ :=
  (reads .phones).customerIdsByPhone who.networkId who.phone ++
    (reads .linked).linkedIds who.networkId who.clientAccountId

/-- An appointment of the records, at a unit of the network, other than the one that moves. -/
def owns (reads : CheckRead → Diary) (exclude : Option ℕ) (id : ℕ) (a : Appointment) : Bool :=
  (who.ids reads).contains a.customerId && site.networkOf a.barbershopId == who.networkId &&
    exclude != some id

def assertPublicCustomerCanBook (startAt endAt : ℤ) (exclude : Option ℕ)
    (reads : CheckRead → Diary) : Result Unit := do
  if who.ids reads = [] then return ()
  refuseIf ((reads .overlap).db.appointments.any (fun id a =>
      who.owns site reads exclude id a && a.takes startAt endAt) = true)
    (.badRequest "Você já tem um horário nesse período")
  refuseIf (PUBLIC_UPCOMING_LIMIT ≤ ((reads .upcoming).db.appointments.filter fun id a =>
      who.owns site reads exclude id a && a.status.upcoming &&
        decide ((reads .upcoming).now < a.startAt)).length)
    (.badRequest "Você já tem 5 horários marcados. Cancele um para marcar outro.")

/-- The order of `sort`. -/
def textLe : PhoneText → PhoneText → Bool
  | [], _ => true
  | _ :: _, [] => false
  | a :: as, b :: bs => a.toNat < b.toNat || (a == b && textLe as bs)

/-- The lock of a creation: of the forms of the typed phone, sorted. -/
def lockKey : Option ℤ :=
  match phoneDigitVariants who.phone with
  | [] => none
  | variants => some (site.hashtext who.networkId (variants.mergeSort textLe))

end PublicCustomer

/-- What a request has seen, one state for each query it has made. -/
abbrev Looks := List Diary

/-- The states the queries of the check saw; `d` stands for one that has not been made. -/
def Looks.reads (looks : Looks) (d : Diary) : CheckRead → Diary
  | .phones => looks.getD 0 d
  | .linked => looks.getD 1 d
  | .overlap => looks.getD 2 d
  | .upcoming => looks.getD 3 d

/-! ## The requests -/

def DEPOSIT_HOLD_MINUTES : ℤ := 15

/-- The input of `createPublicAppointment`, with the slot and the professionals free for it. -/
structure PublicInput where
  barbershopId : ℕ
  customerPhone : PhoneText
  clientAccountId : Option ℕ
  free : List ℕ
  startAt : ℤ
  endAt : ℤ
  payOnline : Bool
  depositAmount : Option ℚ

/-- A creation on its way. -/
structure CreateCall where
  data : PublicInput
  /-- The phone as an international number. -/
  customerPhone : PhoneText
  /-- The first record with the phone, once it was looked for. -/
  found : Option (Option ℕ)
  /-- The record it books for, which may be new. -/
  customerId : Option ℕ
  early : Looks
  /-- The professionals that are left to try. -/
  free : List ℕ
  locked : Bool
  looks : Looks

/-- A move on its way, with the appointment its link showed. -/
structure MoveCall where
  appointmentId : ℕ
  seen : Appointment
  customerPhone : PhoneText
  clientAccountId : Option ℕ
  startAt : ℤ
  looks : Looks

inductive PublicCall where
  | create (c : CreateCall)
  | move (c : MoveCall)

/-- The diary, and the locks that are held. -/
structure Front where
  diary : Diary
  held : List ℤ

inductive PublicEvent where
  | createPublicAppointment (data : PublicInput) (callingCode : PhoneText)
  | rescheduleManagedAppointment (appointmentId : ℕ) (startAt : ℤ)
  | tick (now : ℤ)
  /-- Anyone else moves an appointment on, without taking its slot back. -/
  | setStatus (appointmentId : ℕ) (status : AppointmentStatus)

/-- The next step of a request; `tryNext` and `stop` are what a refusal leads to. -/
inductive PublicStep where
  | findRecord | createRecord | look | lock | write | tryNext | stop
  deriving DecidableEq, Repr

namespace CreateCall

variable (site : Site) (c : CreateCall)

def who : PublicCustomer where
  networkId := site.networkOf c.data.barbershopId
  phone := c.customerPhone
  clientAccountId := c.data.clientAccountId

/-- A new record, with the phone of the request and its account. -/
def record (d : Diary) : Diary :=
  { d with
    db := { d.db with
      customers := d.db.customers.insert {
        networkId := site.networkOf c.data.barbershopId
        loyaltyPoints := 0
        clientAccountId := c.data.clientAccountId
        deletedAt := none } }
    phone := Function.update d.phone d.db.customers.next
      ((normalizePhoneToE164 c.customerPhone DEFAULT_COUNTRY_CODE).getD (trimmed c.customerPhone)) }

/-- The appointment it creates. -/
def row (customerId barberId : ℕ) (now : ℤ) : Appointment where
  barbershopId := c.data.barbershopId
  customerId := customerId
  barberId := barberId
  resourceId := none
  startAt := c.data.startAt
  endAt := c.data.endAt
  status := if c.data.payOnline then .pendingPayment else .confirmed
  source := .online
  holdExpiresAt := if c.data.payOnline then some (now + DEPOSIT_HOLD_MINUTES * 60000) else none
  depositAmount := c.data.depositAmount
  depositPaid := false
  depositPaidAt := none
  depositRefundedAt := none
  depositManualMethod := none
  depositReceivedAt := none
  depositReceivedByUserId := none
  depositCashSessionId := none
  depositPaymentIntentId := none
  prepaidPaymentIntentId := none
  prepaidAt := none
  prepaidAmount := none
  prepaidRefundedAt := none
  prepaidRefundedAmount := none
  linkVersion := 0

/-- The locks once it has given its own back. -/
def release (held : List ℤ) : List ℤ :=
  if c.locked then (c.who site).lockKey site |>.elim held held.erase else held

/-- What the checks of the transaction answer to what it saw. -/
def check (barberId : ℕ) (d : Diary) : Result Unit := do
  (c.who site).assertPublicCustomerCanBook site c.data.startAt c.data.endAt none (c.looks.reads d)
  ensureBarberAvailable site.catalog c.data.barbershopId barberId c.data.startAt c.data.endAt none
    (c.looks.getD 4 d).db

def checkEarly (d : Diary) : Result Unit :=
  (c.who site).assertPublicCustomerCanBook site c.data.startAt c.data.endAt none (c.early.reads d)

def step (k : PublicStep) (s : Front) : Option (Front × Option CreateCall) :=
  match k with
  | .findRecord =>
    if c.found.isNone then
      some (s, some { c with
        found := some (s.diary.customerIdsByPhone (c.who site).networkId c.customerPhone).min? })
    else none
  | .createRecord =>
    if c.customerId.isSome then none
    else
      match c.found with
      | none => none
      | some (some id) => some (s, some { c with customerId := some id })
      | some none => some ({ s with diary := c.record site s.diary },
          some { c with customerId := some s.diary.db.customers.next })
  | .look =>
    if c.customerId.isSome ∧ c.early.length < 4 then
      some (s, some { c with early := c.early ++ [s.diary] })
    else if c.locked ∧ c.looks.length < 5 then
      some (s, some { c with looks := c.looks ++ [s.diary] })
    else none
  | .lock =>
    if c.locked = false ∧ c.early.length = 4 ∧ c.checkEarly site s.diary = .ok () ∧
        (∀ key ∈ (c.who site).lockKey site, key ∉ s.held) then
      some ({ s with held := ((c.who site).lockKey site).toList ++ s.held },
        some { c with locked := true })
    else none
  | .write =>
    match c.customerId, c.free with
    | some customerId, barberId :: _ =>
      if c.looks.length = 5 ∧ c.check site barberId s.diary = .ok () then
        let d := s.diary
        let id := d.db.appointments.next
        some ({
          diary := { d with
            db := { d.db with
              appointments := d.db.appointments.insert (c.row customerId barberId d.now) }
            made := id :: d.made }
          held := c.release site s.held }, none)
      else none
    | _, _ => none
  | .tryNext =>
    match c.locked, c.free with
    | true, _ :: barberId :: free => some ({ s with held := c.release site s.held },
        some { c with free := barberId :: free, locked := false, looks := [] })
    | _, _ => none
  | .stop => some ({ s with held := c.release site s.held }, none)

end CreateCall

namespace MoveCall

variable (site : Site) (c : MoveCall)

def who : PublicCustomer where
  networkId := site.networkOf c.seen.barbershopId
  phone := c.customerPhone
  clientAccountId := c.clientAccountId

/-- The booking keeps its length. -/
def endAt : ℤ := c.startAt + (c.seen.endAt - c.seen.startAt)

def check (d : Diary) : Result Unit := do
  (c.who site).assertPublicCustomerCanBook site c.startAt c.endAt (some c.appointmentId)
    (c.looks.reads d)
  ensureBarberAvailable site.catalog c.seen.barbershopId c.seen.barberId c.startAt c.endAt
    (some c.appointmentId) (c.looks.getD 4 d).db
  let _ ← ifGiven c.seen.resourceId fun resourceId =>
    ensureResourceAvailable c.seen.barbershopId resourceId c.startAt c.endAt (some c.appointmentId)
      (c.looks.getD 5 d).db

/-- The write asks for the appointment as the link showed it. -/
def unmoved (a : Appointment) : Bool := a.status == .confirmed && a.startAt == c.seen.startAt

def row (a : Appointment) : Appointment := { a with startAt := c.startAt, endAt := c.endAt }

def step (k : PublicStep) (s : Front) : Option (Front × Option MoveCall) :=
  match k with
  | .look =>
    if c.looks.length < 6 then some (s, some { c with looks := c.looks ++ [s.diary] }) else none
  | .write =>
    if c.looks.length = 6 ∧ c.check site s.diary = .ok () then
      let d := s.diary
      (d.db.appointments.tryModify c.appointmentId c.unmoved c.row).map fun appointments =>
        ({ s with diary := { d with
          db := { d.db with appointments := appointments }
          made := c.appointmentId :: d.made } }, none)
    else none
  | .stop => some (s, none)
  | _ => none

end MoveCall

namespace PublicEvent

/-- `loadManagedAppointment` and `ensureChangeable`: a confirmed appointment without a sale. -/
def changeable (d : Diary) (appointmentId : ℕ) : Option Appointment :=
  (d.db.appointments.get? appointmentId).filter fun a => a.status == .confirmed &&
    !(d.db.sales.any fun _ sale => sale.appointmentId == some appointmentId)

def step (e : PublicEvent) (s : Front) : Option (Front × Option PublicCall) :=
  let d := s.diary
  match e with
  | createPublicAppointment data callingCode =>
    (normalizePhoneToE164 data.customerPhone callingCode).map fun customerPhone =>
      (s, some (.create {
        data := data
        customerPhone := customerPhone
        found := none
        customerId := none
        early := []
        free := data.free
        locked := false
        looks := [] }))
  | rescheduleManagedAppointment appointmentId startAt =>
    (changeable d appointmentId).bind fun a =>
      let customer := d.db.customers.get? a.customerId
      if a.startAt = startAt then none
      else some (s, some (.move {
        appointmentId := appointmentId
        seen := a
        customerPhone := if customer.isSome then d.phone a.customerId else []
        clientAccountId := customer.bind (·.clientAccountId)
        startAt := startAt
        looks := [] }))
  | tick now => if d.now ≤ now then some ({ s with diary := { d with now := now } }, none) else none
  | setStatus appointmentId status =>
    (d.db.appointments.tryModify appointmentId
      (fun a => (a.status.occupies || !status.occupies) && (a.status.upcoming || !status.upcoming))
      fun a => { a with status := status }).map fun appointments =>
        ({ s with diary := { d with db := { d.db with appointments := appointments } } }, none)

end PublicEvent

/-- Any requests of the public page at once. -/
def publicCalls (site : Site) : CallSystem Front PublicCall PublicEvent PublicStep where
  event e s := e.step s
  step k
    | .create c, s => (c.step site k s).map fun r => (r.1, r.2.map .create)
    | .move c, s => (c.step site k s).map fun r => (r.1, r.2.map .move)

end Barbershop
