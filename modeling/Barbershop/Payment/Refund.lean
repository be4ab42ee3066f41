import Barbershop.Payment.Stripe
import Barbershop.Sale.Create
import Mathlib.Data.NNRat.Defs

/-!
# Refunding what was paid before

`refundOnlineDeposit` and `refundPrepayment`, taken apart where others may come between: each reads
the appointment, claims the refund on its row by a conditional update, asks Stripe, and takes the
claim back if Stripe refuses. `PrepaymentClaim` is what `refundPrepayment` carries from its read to
the undo.
-/

namespace Barbershop

open Lib

namespace Db

/-- `updateMany` on the row of one appointment; nothing when no row was updated. -/
def updateAppointmentWhere (db : Db) (appointmentId : ℕ) (p : Appointment → Bool)
    (f : Appointment → Appointment) : Option Db :=
  (db.appointments.tryModify appointmentId p f).map fun t => { db with appointments := t }

/-- Is there a sale of the appointment? -/
def billed (db : Db) (appointmentId : ℕ) : Bool :=
  db.sales.any fun _ s => s.appointmentId == some appointmentId

variable {db db' : Db} {appointmentId : ℕ} {p : Appointment → Bool} {f : Appointment → Appointment}

theorem updateAppointmentWhere_other (h : db.updateAppointmentWhere appointmentId p f = some db')
    {id : ℕ} (hne : id ≠ appointmentId) : db'.appointments.get? id = db.appointments.get? id := by
  obtain ⟨t, ht, rfl⟩ := Option.map_eq_some_iff.1 h
  obtain ⟨a, -, -, rfl⟩ := Table.tryModify_eq_some.1 ht
  exact Table.get?_modify_of_ne _ _ hne

theorem updateAppointmentWhere_some (h : db.updateAppointmentWhere appointmentId p f = some db') :
    ∃ a, db.appointments.get? appointmentId = some a ∧ p a = true ∧
      db'.appointments.get? appointmentId = some (f a) ∧ db'.sales = db.sales := by
  obtain ⟨t, ht, rfl⟩ := Option.map_eq_some_iff.1 h
  obtain ⟨a, ha, hp, rfl⟩ := Table.tryModify_eq_some.1 ht
  exact ⟨a, ha, hp, by simp [ha], rfl⟩

theorem updateAppointmentWhere_none (h : db.updateAppointmentWhere appointmentId p f = none)
    {a : Appointment} (ha : db.appointments.get? appointmentId = some a) : p a = false :=
  Table.tryModify_eq_none.1 (Option.map_eq_none_iff.1 h) a ha

/-- An update whose count is not looked at. -/
theorem updateAppointmentWhere_getD {a : Appointment}
    (ha : db.appointments.get? appointmentId = some a) :
    ((db.updateAppointmentWhere appointmentId p f).getD db).appointments.get? appointmentId =
        some (if p a then f a else a) ∧
      ((db.updateAppointmentWhere appointmentId p f).getD db).sales = db.sales := by
  cases h : db.updateAppointmentWhere appointmentId p f with
  | none =>
    have hp := updateAppointmentWhere_none h ha
    simp [ha, hp]
  | some db₁ =>
    obtain ⟨b, hb, hp, hget, hsales⟩ := updateAppointmentWhere_some h
    obtain rfl : b = a := Option.some.inj (hb.symm.trans ha)
    simp [hget, hp, hsales]

end Db

/-! ## The deposit -/

/-- Where a call of `refundOnlineDeposit` is. -/
inductive DepositRefund where
  | reading
  | claiming (intentId : String)
  | calling (intentId : String) (claimedAt : ℤ)
  | undoing (intentId : String) (claimedAt : ℤ)

namespace DepositRefund

/-- The intent to refund; a deposit that a sale has taken off does not come back this way. -/
def read (appointmentId : ℕ) (db : Db) : Option String := do
  let appt ← db.appointments.get? appointmentId
  let intentId ← appt.depositPaymentIntentId
  if appt.depositPaidAt.isSome && !db.billed appointmentId then some intentId else none

def claim (appointmentId : ℕ) (intentId : String) (now : ℤ) (db : Db) : Option Db :=
  db.updateAppointmentWhere appointmentId
    (fun a => a.depositPaid && a.depositRefundedAt == none &&
      a.depositPaymentIntentId == some intentId)
    fun a => { a with depositPaid := false, depositRefundedAt := some now }

def request (intentId : String) : RefundRequest where
  intentId := intentId
  amount := none
  key := .deposit intentId

def undo (appointmentId : ℕ) (claimedAt : ℤ) (db : Db) : Db :=
  (db.updateAppointmentWhere appointmentId (fun a => a.depositRefundedAt == some claimedAt)
    fun a => { a with depositPaid := true, depositRefundedAt := none }).getD db

def step (appointmentId : ℕ) (k : Chance) (c : DepositRefund) (s : Payments) :
    Option (Payments × Progress DepositRefund (Except PaymentError Bool)) :=
  match c with
  | reading => match read appointmentId s.db with
    | none => some (s, .done (.ok false))
    | some intentId => some (s, .next (claiming intentId))
  | claiming intentId => match claim appointmentId intentId k.now s.db with
    | none => some (s, .done (.ok false))
    | some db => some ({ s with db := db }, .next (calling intentId k.now))
  | calling intentId claimedAt => (s.stripe.createRefund (request intentId) k.answer).map fun t =>
      ({ s with stripe := t },
        if k.answer = .rejected then .next (undoing intentId claimedAt) else .done (.ok true))
  | undoing _ claimedAt =>
    some ({ s with db := undo appointmentId claimedAt s.db }, .done (.error .stripe))

end DepositRefund

/-! ## The prepayment -/

structure PrepaymentClaim where
  intentId : String
  value : ℚ
  /-- The recorded amount the claim is conditional on. -/
  before : Option ℚ
  after : ℚ
  full : Bool
  deriving DecidableEq

/-- Where a call of `refundPrepayment` is; without an amount, it gives back what is left. -/
inductive PrepaymentRefund where
  | reading (amount : Option ℚ)
  | claiming (c : PrepaymentClaim)
  | calling (c : PrepaymentClaim)
  | undoing (c : PrepaymentClaim)

/-- What the row records as given back of the prepayment. -/
def Appointment.refunded (a : Appointment) : ℚ := a.prepaidRefundedAmount.getD 0

namespace PrepaymentRefund

/-- What to claim of the prepayment of a row that may be refunded. -/
def plan (amount : Option ℚ) (appt : Appointment) (intentId : String) :
    Result (Option PrepaymentClaim) := do
  let paid := appt.prepaidAmount.getD 0
  let before := appt.refunded
  let remaining := round2 (paid - before)
  if remaining ≤ 0 then return none
  let value := amount.elim remaining round2
  refuseIf (¬0 < value ∨ remaining < value)
    (.badRequest ("O estorno vai de 0,01 até " ++ toFixed2 remaining))
  let after := round2 (before + value)
  return some {
    intentId := intentId
    value := value
    before := appt.prepaidRefundedAmount
    after := after
    full := paid ≤ after }

/-- A prepayment that a sale has taken off does not come back this way. -/
def read (appointmentId : ℕ) (amount : Option ℚ) (db : Db) : Result (Option PrepaymentClaim) :=
  match db.appointments.get? appointmentId with
  | none => return none
  | some appt => match appt.prepaidPaymentIntentId with
    | none => return none
    | some intentId =>
      if appt.prepaidAt = none ∨ appt.prepaidRefundedAt.isSome then return none
      else if db.billed appointmentId then return none
      else plan amount appt intentId

def claim (appointmentId : ℕ) (c : PrepaymentClaim) (now : ℤ) (db : Db) : Option Db :=
  db.updateAppointmentWhere appointmentId
    (fun a => a.prepaidRefundedAt == none && a.prepaidRefundedAmount == c.before)
    fun a => { a with
      prepaidRefundedAmount := some c.after
      prepaidRefundedAt := if c.full then some now else none }

def request (currency : String) (c : PrepaymentClaim) : RefundRequest where
  intentId := c.intentId
  amount := some (toMinorUnits c.value currency)
  key := .prepayment c.intentId (cents c.after)

def undo (appointmentId : ℕ) (c : PrepaymentClaim) (db : Db) : Db :=
  (db.updateAppointmentWhere appointmentId (fun a => a.prepaidRefundedAmount == some c.after)
    fun a => { a with prepaidRefundedAmount := c.before, prepaidRefundedAt := none }).getD db

def step (currency : String) (appointmentId : ℕ) (k : Chance) (c : PrepaymentRefund)
    (s : Payments) : Option (Payments × Progress PrepaymentRefund (Except PaymentError Bool)) :=
  match c with
  | reading amount => match read appointmentId amount s.db with
    | .error e => some (s, .done (.error (.refusal e)))
    | .ok none => some (s, .done (.ok false))
    | .ok (some c) => some (s, .next (claiming c))
  | claiming c => match claim appointmentId c k.now s.db with
    | none => some (s, .done (.ok false))
    | some db => some ({ s with db := db }, .next (calling c))
  | calling c => (s.stripe.createRefund (request currency c) k.answer).map fun t =>
      ({ s with stripe := t },
        if k.answer = .rejected then .next (undoing c) else .done (.ok true))
  | undoing c => some ({ s with db := undo appointmentId c s.db }, .done (.error .stripe))

/-- The amount a request names is a whole number of minor units, once rounded to the cent. -/
def Whole (currency : String) (amount : Option ℚ) : Prop := ∀ a ∈ amount, IsMinor currency (round2 a)

instance (currency : String) (amount : Option ℚ) : Decidable (Whole currency amount) :=
  inferInstanceAs (Decidable (∀ a ∈ amount, IsMinor currency (round2 a)))

end PrepaymentRefund

/-- A claim on a prepayment of `paid` through an intent, all amounts in whole minor units. -/
structure PrepaymentClaim.Valid (currency intentId : String) (paid : ℚ) (c : PrepaymentClaim) :
    Prop where
  intent : c.intentId = intentId
  value_pos : 0 < c.value
  value_minor : IsMinor currency c.value
  before_minor : IsMinor currency (c.before.getD 0)
  after_eq : c.after = c.before.getD 0 + c.value
  after_le : c.after ≤ paid
  full_iff : c.full = true ↔ c.after = paid

namespace PrepaymentClaim.Valid

variable {currency intentId : String} {paid : ℚ} {c : PrepaymentClaim}

theorem after_minor (h : c.Valid currency intentId paid) : IsMinor currency c.after :=
  h.after_eq ▸ h.before_minor.add h.value_minor

theorem before_lt (h : c.Valid currency intentId paid) : c.before.getD 0 < c.after := by
  have := h.after_eq
  have := h.value_pos
  linarith

theorem value_coe (h : c.Valid currency intentId paid) : ((c.value.toNNRat : ℚ≥0) : ℚ) = c.value :=
  Rat.coe_toNNRat _ h.value_pos.le

end PrepaymentClaim.Valid

namespace PrepaymentRefund

variable {currency intentId : String} {appointmentId : ℕ} {amount : Option ℚ} {db : Db}
  {c : PrepaymentClaim}

theorem plan_valid {appt : Appointment} {paid : ℚ}
    (h : plan amount appt intentId = .ok (some c)) (hwhole : Whole currency amount)
    (hpaid : appt.prepaidAmount.getD 0 = paid) (hminor : IsMinor currency paid)
    (hrefunded : IsMinor currency appt.refunded) :
    c.Valid currency intentId paid ∧ c.before = appt.prepaidRefundedAmount := by
  have hround : round2 (paid - appt.refunded) = paid - appt.refunded :=
    (hminor.sub hrefunded).isCents.round2_eq
  simp only [plan, hpaid, hround] at h
  split at h
  · cases h
  · simp only [bind_eq_ok, exists_punit, refuseIf_eq_ok, pure_eq_ok, Option.some.injEq] at h
    obtain ⟨hrange, rfl⟩ := h
    push Not at hrange
    generalize hv : amount.elim (paid - appt.refunded) round2 = value at hrange ⊢
    have hvalue : IsMinor currency value := by
      rw [← hv]
      cases amount with
      | none => exact hminor.sub hrefunded
      | some a => exact hwhole a rfl
    have hafter : round2 (appt.refunded + value) = appt.refunded + value :=
      (hrefunded.add hvalue).isCents.round2_eq
    have hle : appt.refunded + value ≤ paid := by linarith
    refine ⟨?_, rfl⟩
    exact {
      intent := rfl
      value_pos := hrange.1
      value_minor := hvalue
      before_minor := hrefunded
      after_eq := hafter
      after_le := hafter.trans_le hle
      full_iff := by
        rw [decide_eq_true_iff, hafter]
        exact ⟨fun hp => le_antisymm hle hp, fun hp => hp.ge⟩ }

theorem read_ok (h : read appointmentId amount db = .ok (some c)) :
    ∃ appt intentId, db.appointments.get? appointmentId = some appt ∧
      appt.prepaidPaymentIntentId = some intentId ∧ appt.prepaidAt.isSome ∧
      appt.prepaidRefundedAt = none ∧ db.billed appointmentId = false ∧
      plan amount appt intentId = .ok (some c) := by
  unfold read at h
  split at h
  · cases h
  · next appt happt =>
    split at h
    · cases h
    · next intentId hintent =>
      split at h
      · cases h
      · next hstate =>
        split at h
        · cases h
        · next hsale =>
          push Not at hstate
          exact ⟨appt, intentId, happt, hintent, Option.isSome_iff_ne_none.2 hstate.1,
            by simpa using hstate.2, by simpa using hsale, h⟩

end PrepaymentRefund

theorem Appointment.prepaid_of_pos {a : Appointment} (h : 0 < a.prepaid) :
    a.prepaid = a.prepaidAmount.getD 0 - a.refunded := by
  unfold Appointment.prepaid at h ⊢
  split at h
  · next hstate => rw [if_pos hstate, Appointment.refunded]
  · exact absurd h (lt_irrefl 0)

/-! ## A visit to run it on -/

/-- A confirmed appointment of the unit 1, nothing paid. -/
def visit : Appointment where
  barbershopId := 1
  customerId := 1
  barberId := 1
  resourceId := none
  startAt := 1000
  endAt := 2000
  status := .confirmed
  source := .online
  holdExpiresAt := none
  depositAmount := none
  depositPaid := false
  depositPaidAt := none
  depositRefundedAt := none
  depositManualMethod := none
  depositReceivedAt := none
  depositReceivedByUserId := none
  depositCashSessionId := none
  depositPaymentIntentId := none
  prepaidPaymentIntentId := none
  prepaidAt := none
  prepaidAmount := none
  prepaidRefundedAt := none
  prepaidRefundedAmount := none
  linkVersion := 0

/-- The visit beside Stripe's books: one approved intent of so many minor units. -/
def Payments.ofVisit (a : Appointment) (intentId : String) (amount : ℤ) : Payments where
  db := { Db.empty with appointments := Table.empty.insert a }
  stripe := {
    intents := fun id =>
      if id = intentId then some { amount := amount, status := .succeeded, appointmentId := 1 }
      else none
    refunds := [] }

/-- The visit with a hundred paid by app. -/
def prepaidVisit : Payments :=
  .ofVisit { visit with
    prepaidPaymentIntentId := some "pi_1"
    prepaidAt := some 0
    prepaidAmount := some 100 } "pi_1" 10000

/-- A step that creates no intent. -/
def chance (now : ℤ) (answer : RefundAnswer) : Chance where
  now := now
  answer := answer
  newIntent := ""

end Barbershop
