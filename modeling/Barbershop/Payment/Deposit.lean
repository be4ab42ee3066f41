import Barbershop.Payment.Refund

/-!
# The deposit of an online booking

An online booking that asks for a deposit waits for its payment (`PENDING_PAYMENT`). `start` opens a
payment intent, `finalize` applies an approved one, `releaseUnpaidHold` gives the time back when
nobody paid, and `settleForStaff` clears the way for a status that the staff sets. Each reads the row
and Stripe, and writes by updates that are conditional on some column and decided on the row that was
read.
-/

namespace Barbershop

open Lib

def Stripe.status? (s : Stripe) (intentId : String) : Option IntentStatus :=
  (s.intents intentId).map (·.status)

/-! ## `finalize` -/

inductive FinalizeResult where
  | notFound | refunded
  | status (s : AppointmentStatus)
  deriving DecidableEq

/-- Where a call of `finalize` on an approved intent is. -/
inductive Finalize where
  | reading (intentId : String)
  | applying (intentId : String) (appointmentId : ℕ) (seen : Appointment)
  | marking (intentId : String) (appointmentId : ℕ)
  | refunding (intentId : String) (r : FinalizeResult)

namespace Finalize

/-- The appointment of an intent: the one that records it, or the one of its metadata. -/
def find (intentId : String) (s : Payments) : Option (ℕ × Appointment) :=
  s.db.appointments.find? fun id a => a.depositPaymentIntentId == some intentId ||
    (s.stripe.intents intentId).any (·.appointmentId == id)

def confirm (intentId : String) (now : ℤ) (a : Appointment) : Appointment :=
  { a with
    status := .confirmed
    depositPaid := true
    depositPaidAt := some now
    depositPaymentIntentId := some intentId
    holdExpiresAt := none }

def mark (intentId : String) (now : ℤ) (a : Appointment) : Appointment :=
  { a with depositPaymentIntentId := some intentId, depositRefundedAt := some now }

/-- What is left to do when the appointment no longer waited for the payment, judged by the row that
was read. -/
def settled (intentId : String) (appointmentId : ℕ) (seen : Appointment) :
    Progress Finalize FinalizeResult :=
  if seen.status = .cancelled ∧ seen.depositPaid = false then .next (marking intentId appointmentId)
  else if seen.depositPaymentIntentId = some intentId ∧
      (seen.depositPaid = true ∨ seen.depositRefundedAt.isSome = true) then
    .done (.status seen.status)
  else .next (refunding intentId .refunded)

def step (k : Chance) (c : Finalize) (s : Payments) :
    Option (Payments × Progress Finalize FinalizeResult) :=
  match c with
  | reading intentId => match find intentId s with
    | none => some (s, .next (refunding intentId .notFound))
    | some (id, a) => some (s, .next (applying intentId id a))
  | applying intentId id seen =>
    match s.db.updateAppointmentWhere id (·.status == .pendingPayment) (confirm intentId k.now) with
    | some db => some ({ s with db := db }, .done (.status .confirmed))
    | none => some (s, settled intentId id seen)
  | marking intentId id =>
    match s.db.updateAppointmentWhere id (·.depositRefundedAt == none) (mark intentId k.now) with
    | some db => some ({ s with db := db }, .next (refunding intentId .refunded))
    | none => some (s, .done .refunded)
  -- an error of the request is only logged
  | refunding intentId r => (s.stripe.createRefund (DepositRefund.request intentId) k.answer).map
      fun t => ({ s with stripe := t }, .done r)

end Finalize

/-! ## `start` and `confirm` -/

/-- Where a call of `start` is. -/
inductive StartDeposit where
  | reading
  | retrieving (seen : Appointment) (intentId : String)
  | creating (seen : Appointment)
  | saving (seen : Appointment) (intentId : String)
  | abandoning (intentId : String)
  | finalizing (c : Finalize)

namespace StartDeposit

/-- The checks on the row: it waits for a payment that is not too late. -/
def check (currency : String) (now : ℤ) (appt : Appointment) : Result Unit := do
  refuseIf (appt.status ≠ .pendingPayment) (.badRequest
    (if appt.depositPaid then "O sinal já foi pago"
      else "Este horário não está aguardando pagamento"))
  refuseIf (∀ e ∈ appt.holdExpiresAt, e ≤ now)
    (.badRequest "O tempo pra pagar acabou e o horário foi liberado. Agende de novo.")
  refuseIf (toMinorUnits (appt.depositAmount.getD 0) currency ≤ 0)
    (.badRequest "Este horário não tem sinal")

/-- The intent whose secret goes to the screen. -/
abbrev Output := Except PaymentError String

def step (currency : String) (appointmentId : ℕ) (k : Chance) (c : StartDeposit) (s : Payments) :
    Option (Payments × Progress StartDeposit Output) :=
  match c with
  | reading => match s.db.appointments.get? appointmentId with
    | none => some (s, .done (.error (.refusal (.notFound "Agendamento não encontrado"))))
    | some appt => match check currency k.now appt with
      | .error e => some (s, .done (.error (.refusal e)))
      | .ok () => match appt.depositPaymentIntentId with
        | none => some (s, .next (creating appt))
        | some intentId => some (s, .next (retrieving appt intentId))
  | retrieving seen intentId => match s.stripe.status? intentId with
    | none => some (s, .done (.error .stripe))
    | some .opened => some (s, .done (.ok intentId))
    | some .canceled => some (s, .next (creating seen))
    | some .succeeded => some (s, .next (finalizing (.reading intentId)))
  | creating seen =>
    let amount := toMinorUnits (seen.depositAmount.getD 0) currency
    (s.stripe.createPaymentIntent k.newIntent amount appointmentId).map fun t =>
      ({ s with stripe := t }, .next (saving seen k.newIntent))
  | saving seen intentId => match s.db.updateAppointmentWhere appointmentId
      (fun a => a.depositPaymentIntentId == seen.depositPaymentIntentId)
      (fun a => { a with depositPaymentIntentId := some intentId }) with
    | some db => some ({ s with db := db }, .done (.ok intentId))
    | none => some (s, .next (abandoning intentId))
  | abandoning intentId =>
    some ({ s with stripe := (s.stripe.cancelPaymentIntent intentId).getD s.stripe }, .next reading)
  | finalizing c => (c.step k s).map fun r => (r.1, r.2.within finalizing fun _ =>
      .done (.error (.refusal (.badRequest "O sinal já foi pago"))))

end StartDeposit

/-- Where a call of `confirm` is: the screen asks about the recorded intent. -/
inductive ConfirmDeposit where
  | reading
  | retrieving (intentId : String)
  | finalizing (c : Finalize)

def ConfirmDeposit.step (appointmentId : ℕ) (k : Chance) (c : ConfirmDeposit) (s : Payments) :
    Option (Payments × Progress ConfirmDeposit (Except PaymentError FinalizeResult)) :=
  match c with
  | reading => match s.db.appointments.get? appointmentId with
    | none => some (s, .done (.error (.refusal (.notFound "Agendamento não encontrado"))))
    | some appt =>
      if appt.status = .confirmed ∧ appt.depositPaid = true then
        some (s, .done (.ok (.status .confirmed)))
      else match appt.depositPaymentIntentId with
        | none => some (s, .done (.error (.refusal (.badRequest "Pagamento não iniciado"))))
        | some intentId => some (s, .next (retrieving intentId))
  | retrieving intentId => match s.stripe.status? intentId with
    | none => some (s, .done (.error .stripe))
    | some .succeeded => some (s, .next (finalizing (.reading intentId)))
    | some _ => some (s, .done (.ok (.status .pendingPayment)))
  | finalizing c => (c.step k s).map fun r => (r.1, r.2.within finalizing fun out => .done (.ok out))

/-! ## `releaseUnpaidHold` -/

/-- Where a call of `releaseUnpaidHold` is. -/
inductive ReleaseHold where
  | reading
  | retrieving (intentId : String)
  | canceling (intentId : String)
  | releasing
  | finalizing (c : Finalize)

def ReleaseHold.step (appointmentId : ℕ) (k : Chance) (c : ReleaseHold) (s : Payments) :
    Option (Payments × Progress ReleaseHold Bool) :=
  match c with
  | reading => match s.db.appointments.get? appointmentId with
    | none => some (s, .done false)
    | some appt =>
      if appt.status ≠ .pendingPayment then some (s, .done false)
      else match appt.depositPaymentIntentId with
        | none => some (s, .next releasing)
        | some intentId => some (s, .next (retrieving intentId))
  | retrieving intentId => match s.stripe.status? intentId with
    | none => some (s, .done false)
    | some .succeeded => some (s, .next (finalizing (.reading intentId)))
    | some .canceled => some (s, .next releasing)
    | some .opened => some (s, .next (canceling intentId))
  -- a cancellation that fails is passed over
  | canceling intentId =>
    some ({ s with stripe := (s.stripe.cancelPaymentIntent intentId).getD s.stripe },
      .next releasing)
  | releasing => match s.db.updateAppointmentWhere appointmentId (·.status == .pendingPayment)
      (fun a => { a with status := .cancelled, holdExpiresAt := none }) with
    | some db => some ({ s with db := db }, .done true)
    | none => some (s, .done false)
  | finalizing c => (c.step k s).map fun r => (r.1, r.2.within finalizing fun _ => .done false)

/-! ## The staff -/

inductive Settled where
  | paid | released | none
  deriving DecidableEq

def DEPOSIT_CHECK_FAILED_MESSAGE : String :=
  "Não foi possível conferir o sinal deste horário no Stripe agora. Tente de novo em instantes."

/-- Where a call of `settleForStaff` is. -/
inductive SettleForStaff where
  | reading
  | retrieving (intentId : String)
  | canceling (intentId : String)
  | finalizing (c : Finalize)

def SettleForStaff.step (appointmentId : ℕ) (k : Chance) (c : SettleForStaff) (s : Payments) :
    Option (Payments × Progress SettleForStaff (Result Settled)) :=
  match c with
  | reading => match s.db.appointments.get? appointmentId with
    | none => some (s, .done (.ok .none))
    | some appt => match appt.depositPaymentIntentId with
      | none => some (s, .done (.ok .none))
      | some intentId =>
        if appt.status = .pendingPayment then some (s, .next (retrieving intentId))
        else some (s, .done (.ok .none))
  | retrieving intentId => match s.stripe.status? intentId with
    | none => some (s, .done (.error (.badRequest DEPOSIT_CHECK_FAILED_MESSAGE)))
    | some .succeeded => some (s, .next (finalizing (.reading intentId)))
    | some .canceled => some (s, .done (.ok .released))
    | some .opened => some (s, .next (canceling intentId))
  | canceling intentId => match s.stripe.cancelPaymentIntent intentId with
    | none => some (s, .done (.error (.badRequest DEPOSIT_CHECK_FAILED_MESSAGE)))
    | some t => some ({ s with stripe := t }, .done (.ok .released))
  | finalizing c => (c.step k s).map fun r => (r.1, r.2.within finalizing fun out =>
      .done (.ok (if out = .status .confirmed then .paid else .released)))

/-- `STAFF_APPOINTMENT_STATUSES` -/
def AppointmentStatus.staff : AppointmentStatus → Bool
  | .draft | .confirmed | .inProgress | .completed | .cancelled | .noShow => true
  | _ => false

/-- A status the staff sets. -/
structure StatusChange where
  status : AppointmentStatus
  refundDeposit : Bool
  /-- What the checks on the time and the schedule refuse it with, if they do. -/
  refused : Option Refusal

/-- Where a call of `updateAppointment` that sets a status is; `seen` is the row it judges by, and
`held` says whether it first read the row waiting for its deposit. -/
inductive SetStatus where
  | reading (u : StatusChange)
  | settling (u : StatusChange) (seen : Appointment) (c : SettleForStaff)
  | rereading (u : StatusChange) (seen : Appointment)
  | updating (u : StatusChange) (seen : Appointment) (held : Bool)
  | refunding (c : DepositRefund)

namespace SetStatus

/-- The checks of the status on the row. -/
def check (appointmentId : ℕ) (u : StatusChange) (appt : Appointment) (db : Db) : Result Unit := do
  refuseIf (u.status ≠ appt.status ∧ u.status.staff = false)
    (.badRequest "Situação do agendamento inválida")
  refuseIf (u.status ≠ appt.status ∧ (u.status = .cancelled ∨ u.status = .noShow) ∧
      db.billed appointmentId = true)
    (.badRequest "Apague ou estorne a venda antes de mudar a situação deste horário.")

/-- Does the deposit go back with the status? -/
def refunds (u : StatusChange) (seen : Appointment) : Bool :=
  u.status == .cancelled && seen.status != .cancelled && u.refundDeposit && seen.depositPaid &&
    seen.depositPaidAt.isSome

def write (u : StatusChange) (seen : Appointment) (held : Bool) (a : Appointment) : Appointment :=
  { a with
    status := u.status
    holdExpiresAt := if held then none else a.holdExpiresAt
    linkVersion :=
      if u.status = .cancelled ∧ seen.status ≠ .cancelled then a.linkVersion + 1 else a.linkVersion }

def step (appointmentId : ℕ) (k : Chance) (c : SetStatus) (s : Payments) :
    Option (Payments × Progress SetStatus (Result Unit)) :=
  match c with
  | reading u => match s.db.appointments.get? appointmentId with
    | none => some (s, .done (.error (.notFound "Agendamento não encontrado")))
    | some appt => match check appointmentId u appt s.db with
      | .error e => some (s, .done (.error e))
      | .ok () =>
        if appt.status = .pendingPayment ∧ u.status ≠ .pendingPayment then
          some (s, .next (settling u appt .reading))
        else some (s, .next (updating u appt false))
  | settling u seen c => (c.step appointmentId k s).map fun r => (r.1, r.2.within (settling u seen)
      fun
      | .error e => .done (.error e)
      | .ok .paid => .next (rereading u seen)
      | .ok _ => .next (updating u seen true))
  | rereading u seen =>
    some (s, .next (updating u ((s.db.appointments.get? appointmentId).getD seen) true))
  | updating u seen held =>
    match u.refused with
    | some e => some (s, .done (.error e))
    | none => match s.db.updateAppointmentWhere appointmentId (fun _ => true) (write u seen held) with
      | none => some (s, .done (.error (.notFound "Agendamento não encontrado")))
      | some db => some ({ s with db := db },
          if refunds u seen then .next (refunding .reading) else .done (.ok ()))
  -- an error of the refund is only logged
  | refunding c => (c.step appointmentId k s).map fun r => (r.1, r.2.within refunding fun _ =>
      .done (.ok ()))

end SetStatus

end Barbershop
