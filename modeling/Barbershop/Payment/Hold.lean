import Barbershop.Payment.Deposit
import Mathlib.Algebra.Group.Pi.Basic
import Mathlib.Algebra.Group.Prod

/-!
# Every paid deposit ends in one place

`start`, `confirm`, the webhook, the expiry and the staff on one appointment that waits for its
deposit, side by side, with Stripe approving an open intent at any moment and delivering its webhook
any number of times. Stripe executes every refund request, once for each key.

A status other than `PENDING_PAYMENT` is final in that sense: the row never waits again, and what it
has recorded as paid stays recorded or goes back. So a call may judge by the row it read
(`Evolves`), but for two cases: it read the row waiting and another call recorded its intent
meanwhile, or it wants to mark its refund on a row that carries the mark of another intent.
-/

namespace Barbershop

open Lib

/-! ## The calls -/

inductive HoldCall where
  | start (c : StartDeposit)
  | confirm (c : ConfirmDeposit)
  | webhook (c : Finalize)
  | release (c : ReleaseHold)
  | setStatus (c : SetStatus)

inductive HoldEvent where
  | start | confirm | release
  | webhook (intentId : String)
  | setStatus (u : StatusChange)
  | approve (intentId : String)

section System

variable (currency : String) (appointmentId : ℕ)

/-- An approved intent of the appointment. -/
def Payments.known (s : Payments) (intentId : String) : Bool :=
  (s.stripe.intents intentId).any fun i => i.status == .succeeded && i.appointmentId == appointmentId

/-- An intent of the appointment. -/
def Payments.own (s : Payments) (intentId : String) : Bool :=
  (s.stripe.intents intentId).any (·.appointmentId == appointmentId)

def HoldCall.step (k : Chance) (c : HoldCall) (s : Payments) :
    Option (Payments × Option HoldCall) :=
  match c with
  | start c => (c.step currency appointmentId k s).map fun r => (r.1, r.2.running.map start)
  | confirm c => (c.step appointmentId k s).map fun r => (r.1, r.2.running.map confirm)
  | webhook c => (c.step k s).map fun r => (r.1, r.2.running.map webhook)
  | release c => (c.step appointmentId k s).map fun r => (r.1, r.2.running.map release)
  | setStatus c => (c.step appointmentId k s).map fun r => (r.1, r.2.running.map setStatus)

/-- An approval is followed by its webhook, which may come again later. -/
def HoldEvent.begin (e : HoldEvent) (s : Payments) : Option (Payments × Option HoldCall) :=
  match e with
  | start => some (s, some (.start .reading))
  | confirm => some (s, some (.confirm .reading))
  | release => some (s, some (.release .reading))
  | webhook i => if s.known appointmentId i then some (s, some (.webhook (.reading i))) else none
  | setStatus u => if u.status.staff then some (s, some (.setStatus (.reading u))) else none
  | approve i =>
    if s.own appointmentId i then
      (s.stripe.approve i).map fun t => ({ s with stripe := t }, some (.webhook (.reading i)))
    else none

/-- The calls on one appointment, with a Stripe that executes every refund request. -/
def depositCalls : CallSystem Payments HoldCall HoldEvent Chance where
  event e s := e.begin appointmentId s
  step k c s := if k.answer = .accepted then c.step currency appointmentId k s else none

end System

/-! ## How the row evolves -/

/-- The deposit of the appointment is recorded as paid through an intent. -/
def Appointment.records (a : Appointment) (intentId : String) : Bool :=
  a.depositPaid && a.depositPaymentIntentId == some intentId && a.depositRefundedAt == none

/-- Between an earlier and a later row: it never waits again, nothing is paid once it no longer
waits, and what was paid or marked stays so, under the same intent. -/
structure Evolves (a b : Appointment) : Prop where
  left : a.status ≠ .pendingPayment → b.status ≠ .pendingPayment
  unpaid : a.status ≠ .pendingPayment → a.depositPaid = false → b.depositPaid = false
  kept : a.depositPaid = true → b.depositPaymentIntentId = a.depositPaymentIntentId ∧
    (b.depositPaid = true ∨ b.depositRefundedAt.isSome = true)
  marked : a.depositRefundedAt.isSome = true → b.depositRefundedAt.isSome = true ∧
    b.depositPaymentIntentId = a.depositPaymentIntentId

namespace Evolves

theorem refl (a : Appointment) : Evolves a a := ⟨id, fun _ => id, fun h => ⟨rfl, .inl h⟩, fun h => ⟨h, rfl⟩⟩

theorem trans {a b c : Appointment} (h : Evolves a b) (h' : Evolves b c) : Evolves a c where
  left hs := h'.left (h.left hs)
  unpaid hs hp := h'.unpaid (h.left hs) (h.unpaid hs hp)
  kept hp := by
    obtain ⟨hid, hb | hb⟩ := h.kept hp
    · obtain ⟨hid', hc⟩ := h'.kept hb
      exact ⟨hid'.trans hid, hc⟩
    · obtain ⟨hc, hid'⟩ := h'.marked hb
      exact ⟨hid'.trans hid, .inr hc⟩
  marked hm := by
    obtain ⟨hb, hid⟩ := h.marked hm
    obtain ⟨hc, hid'⟩ := h'.marked hb
    exact ⟨hc, hid'.trans hid⟩

end Evolves

section Later

variable (appointmentId : ℕ)

/-- Between an earlier and a later state: the row evolves, and Stripe's verdicts stand. -/
structure HoldLater (s s' : Payments) : Prop where
  row : ∀ {b}, s'.db.appointments.get? appointmentId = some b →
    ∃ a, s.db.appointments.get? appointmentId = some a ∧ Evolves a b
  own : ∀ {i}, s.own appointmentId i = true → s'.own appointmentId i = true
  known : ∀ {i}, s.known appointmentId i = true → s'.known appointmentId i = true
  canceled : ∀ {i}, s.stripe.status? i = some .canceled → s'.stripe.status? i = some .canceled

theorem HoldLater.refl (s : Payments) : HoldLater appointmentId s s :=
  ⟨fun hb => ⟨_, hb, .refl _⟩, id, id, id⟩

/-- A refund of the intent may be asked for: the row does not record it, nor will. -/
structure Unplaced (s : Payments) (intentId : String) : Prop where
  known : s.known appointmentId intentId = true
  row : ∀ {a}, s.db.appointments.get? appointmentId = some a → a.status ≠ .pendingPayment ∧
    ¬(a.depositPaid = true ∧ a.depositPaymentIntentId = some intentId)

/-- What a call of `finalize` relies on. -/
def Finalize.Ok (s : Payments) : Finalize → Prop
  | reading i => s.known appointmentId i = true
  | applying i id seen => s.known appointmentId i = true ∧ id = appointmentId ∧
      ∀ {a}, s.db.appointments.get? appointmentId = some a → Evolves seen a
  | marking i id => s.known appointmentId i = true ∧ id = appointmentId ∧
      ∀ {a}, s.db.appointments.get? appointmentId = some a →
        a.status ≠ .pendingPayment ∧ a.depositPaid = false
  | refunding i _ => Unplaced appointmentId s i

/-- What a call of `refundOnlineDeposit` relies on. -/
def DepositRefund.Ok (s : Payments) : DepositRefund → Prop
  | reading | claiming _ => True
  | calling i _ => Unplaced appointmentId s i
  | undoing .. => False

/-- The intent that was read on a row is cancelled, if there is one. -/
def Superseded (s : Payments) (seen : Appointment) : Prop :=
  ∀ i ∈ seen.depositPaymentIntentId, s.stripe.status? i = some .canceled

def StartDeposit.Ok (s : Payments) : StartDeposit → Prop
  | reading | abandoning _ => True
  | retrieving seen i =>
    seen.depositPaymentIntentId = some i ∧ s.own appointmentId i = true
  | creating seen => Superseded s seen
  | saving seen i => Superseded s seen ∧ s.own appointmentId i = true
  | finalizing c => c.Ok appointmentId s

def ConfirmDeposit.Ok (s : Payments) : ConfirmDeposit → Prop
  | reading => True
  | retrieving i => s.own appointmentId i = true
  | finalizing c => c.Ok appointmentId s

def ReleaseHold.Ok (s : Payments) : ReleaseHold → Prop
  | reading | canceling _ | releasing => True
  | retrieving i => s.own appointmentId i = true
  | finalizing c => c.Ok appointmentId s

def SettleForStaff.Ok (s : Payments) : SettleForStaff → Prop
  | reading | canceling _ => True
  | retrieving i => s.own appointmentId i = true
  | finalizing c => c.Ok appointmentId s

def SetStatus.Ok (s : Payments) : SetStatus → Prop
  | reading u | rereading u _ | updating u _ _ => u.status.staff = true
  | settling u _ c => u.status.staff = true ∧ c.Ok appointmentId s
  | refunding c => c.Ok appointmentId s

def HoldCall.Ok (s : Payments) : HoldCall → Prop
  | start c => c.Ok appointmentId s
  | confirm c => c.Ok appointmentId s
  | webhook c => c.Ok appointmentId s
  | release c => c.Ok appointmentId s
  | setStatus c => c.Ok appointmentId s

/-! ## Who is to place an intent -/

/-- For each intent, the calls that are to record it or to ask for its refund, and those that are
about to ask. -/
abbrev Duties := (String → ℕ) × (String → ℕ)

def Finalize.duty : Finalize → Duties
  | reading i | applying i .. | marking i _ => (Pi.single i 1, 0)
  | refunding i _ => (0, Pi.single i 1)

def DepositRefund.duty : DepositRefund → Duties
  | calling i _ | undoing i _ => (0, Pi.single i 1)
  | _ => 0

def StartDeposit.duty : StartDeposit → Duties
  | finalizing c => c.duty
  | _ => 0

def ConfirmDeposit.duty : ConfirmDeposit → Duties
  | finalizing c => c.duty
  | _ => 0

def ReleaseHold.duty : ReleaseHold → Duties
  | finalizing c => c.duty
  | _ => 0

def SettleForStaff.duty : SettleForStaff → Duties
  | finalizing c => c.duty
  | _ => 0

def SetStatus.duty : SetStatus → Duties
  | settling _ _ c => c.duty
  | refunding c => c.duty
  | _ => 0

def HoldCall.duty : HoldCall → Duties
  | start c => c.duty
  | confirm c => c.duty
  | webhook c => c.duty
  | release c => c.duty
  | setStatus c => c.duty

/-- The row, beside Stripe's books, while some calls have duties. -/
structure HoldBalance (s : Payments) (duties : Duties) (a : Appointment) : Prop where
  row : s.db.appointments.get? appointmentId = some a
  own : ∀ {i}, a.depositPaymentIntentId = some i → s.own appointmentId i = true
  waiting : a.status = .pendingPayment →
    a.depositPaid = false ∧ a.depositPaidAt = none ∧ a.depositRefundedAt = none
  paid : a.depositPaid = true → a.depositPaidAt.isSome = true ∧ a.depositRefundedAt = none
  paid_at : a.depositPaidAt.isSome = true →
    ∃ i, a.depositPaymentIntentId = some i ∧ s.known appointmentId i = true
  marked : a.depositRefundedAt.isSome = true → a.depositPaid = false ∧
    ∃ i, a.depositPaymentIntentId = some i ∧ s.known appointmentId i = true ∧
      (s.stripe.executed (.deposit i) = true ∨ 0 < duties.2 i)
  executed : ∀ {i}, s.stripe.executed (.deposit i) = true → s.known appointmentId i = true ∧
    a.status ≠ .pendingPayment ∧ ¬(a.depositPaid = true ∧ a.depositPaymentIntentId = some i)
  placed : ∀ {i}, s.known appointmentId i = true → a.records i = true ∨
    s.stripe.executed (.deposit i) = true ∨ 0 < duties.1 i ∨ 0 < duties.2 i
  refunds : ∀ i, s.stripe.refunded i =
    if s.stripe.executed (.deposit i) = true then s.stripe.charged i else 0
  elsewhere : ∀ {id b i}, s.db.appointments.get? id = some b → id ≠ appointmentId →
    b.depositPaymentIntentId = some i →
      ∃ p, s.stripe.intents i = some p ∧ p.appointmentId ≠ appointmentId

def holdInv : CallInv Payments HoldCall Duties where
  weight := HoldCall.duty
  whole s duties := ∃ a, HoldBalance appointmentId s duties a
  each s c := c.Ok appointmentId s

end Later

/-! ## The judgements that do not hold -/

/-- The row that was read waiting does not record the intent by now, and a refund is marked on a row
without a mark, or with the mark of the same intent. -/
def Finalize.Fresh (s : Payments) : Finalize → Prop
  | applying i id seen => seen.status = .pendingPayment →
      ∀ a ∈ s.db.appointments.get? id, a.status = .pendingPayment ∨ a.records i = false
  | marking i id => ∀ a ∈ s.db.appointments.get? id,
      a.depositRefundedAt = none ∨ a.depositPaymentIntentId = some i
  | _ => True

instance (s : Payments) : ∀ c : Finalize, Decidable (c.Fresh s)
  | .applying _ id seen =>
    inferInstanceAs (Decidable (seen.status = .pendingPayment → ∀ a ∈ s.db.appointments.get? id, _))
  | .marking _ id => inferInstanceAs (Decidable (∀ a ∈ s.db.appointments.get? id, _))
  | .reading _ | .refunding .. => inferInstanceAs (Decidable True)

/-- The call of `finalize` that a call is in. -/
def HoldCall.finalize? : HoldCall → Option Finalize
  | webhook c | start (.finalizing c) | confirm (.finalizing c) | release (.finalizing c)
  | setStatus (.settling _ _ (.finalizing c)) => some c
  | _ => none

def HoldCall.Fresh (c : HoldCall) (s : Payments) : Prop := ∀ f ∈ c.finalize?, f.Fresh s

instance (c : HoldCall) (s : Payments) : Decidable (c.Fresh s) :=
  inferInstanceAs (Decidable (∀ f ∈ c.finalize?, f.Fresh s))

/-! ## What was relied on stands -/

section Stand

variable {appointmentId : ℕ} {s s' : Payments} {i : String}

theorem Unplaced.later (h : Unplaced appointmentId s i) (hl : HoldLater appointmentId s s') :
    Unplaced appointmentId s' i where
  known := hl.known h.known
  row := by
    intro b hb
    obtain ⟨a, ha, hev⟩ := hl.row hb
    obtain ⟨hstatus, hplaced⟩ := h.row ha
    refine ⟨hev.left hstatus, ?_⟩
    rintro ⟨hpaid, hid⟩
    cases hp : a.depositPaid with
    | false => simp [hev.unpaid hstatus hp] at hpaid
    | true => exact hplaced ⟨hp, (hev.kept hp).1 ▸ hid⟩

theorem Finalize.Ok.later {c : Finalize} (h : c.Ok appointmentId s)
    (hl : HoldLater appointmentId s s') : c.Ok appointmentId s' := by
  cases c with
  | reading i => exact hl.known h
  | applying i id seen =>
    obtain ⟨hknown, hid, hseen⟩ := h
    refine ⟨hl.known hknown, hid, fun hb => ?_⟩
    obtain ⟨a, ha, hev⟩ := hl.row hb
    exact (hseen ha).trans hev
  | marking i id =>
    obtain ⟨hknown, hid, hrow⟩ := h
    refine ⟨hl.known hknown, hid, fun hb => ?_⟩
    obtain ⟨a, ha, hev⟩ := hl.row hb
    obtain ⟨hstatus, hpaid⟩ := hrow ha
    exact ⟨hev.left hstatus, hev.unpaid hstatus hpaid⟩
  | refunding i r => exact Unplaced.later h hl

theorem DepositRefund.Ok.later {c : DepositRefund} (h : c.Ok appointmentId s)
    (hl : HoldLater appointmentId s s') : c.Ok appointmentId s' := by
  cases c with
  | reading | claiming i => trivial
  | calling i claimedAt => exact Unplaced.later h hl
  | undoing i claimedAt => exact h

theorem HoldCall.Ok.later {c : HoldCall} (h : c.Ok appointmentId s)
    (hl : HoldLater appointmentId s s') : c.Ok appointmentId s' := by
  cases c with
  | start c =>
    cases c with
    | reading | abandoning i => trivial
    | retrieving seen i => exact ⟨h.1, hl.own h.2⟩
    | creating seen => exact fun i hi => hl.canceled (h i hi)
    | saving seen j => exact ⟨fun i hi => hl.canceled (h.1 i hi), hl.own h.2⟩
    | finalizing c => exact Finalize.Ok.later h hl
  | confirm c =>
    cases c with
    | reading => trivial
    | retrieving i => exact hl.own h
    | finalizing c => exact Finalize.Ok.later h hl
  | webhook c => exact Finalize.Ok.later h hl
  | release c =>
    cases c with
    | reading | canceling i | releasing => trivial
    | retrieving i => exact hl.own h
    | finalizing c => exact Finalize.Ok.later h hl
  | setStatus c =>
    cases c with
    | reading u | rereading u seen | updating u seen held => exact h
    | settling u seen c =>
      refine ⟨h.1, ?_⟩
      cases c with
      | reading | canceling i => trivial
      | retrieving i => exact hl.own h.2
      | finalizing c => exact Finalize.Ok.later h.2 hl
    | refunding c => exact DepositRefund.Ok.later h hl

end Stand

end Barbershop
