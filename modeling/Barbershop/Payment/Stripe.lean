import Barbershop.Lib.Calls
import Barbershop.Model.Db

/-!
# Stripe, as the service sees it

A payment intent is created open, and from then on Stripe may approve it at any moment until it is
cancelled. A refund request carries an idempotency key: it is executed once for each key, and a
repeated request gets the answer of the first. A request without an amount, or with amount zero,
gives back what is left of the charge.

`Payments` is the database of the service beside Stripe's books.
-/

namespace Barbershop

open Lib

/-- `opened` stands for every status from which the intent can still be approved. -/
inductive IntentStatus where
  | opened | canceled | succeeded
  deriving DecidableEq, Repr

/-- A payment intent: its amount in minor units and the appointment of its metadata. -/
structure PaymentIntent where
  amount : ℤ
  status : IntentStatus
  appointmentId : ℕ
  deriving DecidableEq

/-- The idempotency keys of the refund requests. -/
inductive RefundKey where
  /-- `deposit-refund-${intent}` -/
  | deposit (intentId : String)
  /-- `prepayment-refund-${intent}-${cents recorded after it}` -/
  | prepayment (intentId : String) (after : ℤ)
  /-- `prepaid-extra:${intent}` -/
  | extra (intentId : String)
  deriving DecidableEq, Repr

structure RefundRequest where
  intentId : String
  /-- In minor units. -/
  amount : Option ℤ
  key : RefundKey

/-- An executed refund. -/
structure StripeRefund where
  intentId : String
  amount : ℤ
  key : RefundKey
  deriving DecidableEq

structure Stripe where
  intents : String → Option PaymentIntent
  refunds : List StripeRefund

/-- What Stripe answers to a refund request; `alreadyRefunded` is the error
`charge_already_refunded`. -/
inductive RefundAnswer where
  | accepted | alreadyRefunded | rejected
  deriving DecidableEq, Repr

namespace Stripe

variable (s : Stripe)

/-- What was given back of an intent, in minor units. -/
def refunded (intentId : String) : ℤ :=
  ((s.refunds.filter (·.intentId == intentId)).map (·.amount)).sum

def charged (intentId : String) : ℤ := (s.intents intentId).elim 0 (·.amount)

def succeeded (intentId : String) : Bool := (s.intents intentId).any (·.status == .succeeded)

def executed (key : RefundKey) : Bool := s.refunds.any (·.key == key)

/-- Executes a refund, unless its key has been executed. -/
def execute (r : RefundRequest) : Stripe :=
  if s.executed r.key then s
  else
    let left := s.charged r.intentId - s.refunded r.intentId
    { s with refunds := ⟨r.intentId, (r.amount.filter (· != 0)).getD left, r.key⟩ :: s.refunds }

/-- The answer to a refund request; only a charge that went back whole is already refunded. -/
def createRefund (r : RefundRequest) : RefundAnswer → Option Stripe
  | .accepted => some (s.execute r)
  | .alreadyRefunded => if s.charged r.intentId ≤ s.refunded r.intentId then some s else none
  | .rejected => some s

def setStatus (intentId : String) (status : IntentStatus) : Stripe :=
  { s with
    intents := Function.update s.intents intentId
      ((s.intents intentId).map fun i => { i with status := status }) }

/-- The client pays: an open intent is approved. -/
def approve (intentId : String) : Option Stripe :=
  if (s.intents intentId).any (·.status == .opened) then some (s.setStatus intentId .succeeded)
  else none

/-- `cancelPaymentIntent`: fails on an intent that is not open. -/
def cancelPaymentIntent (intentId : String) : Option Stripe :=
  if (s.intents intentId).any (·.status == .opened) then some (s.setStatus intentId .canceled)
  else none

/-- `createPaymentIntent`, under an id that Stripe has not used. -/
def createPaymentIntent (intentId : String) (amount : ℤ) (appointmentId : ℕ) : Option Stripe :=
  if (s.intents intentId).isNone then
    some { s with
      intents := Function.update s.intents intentId
        (some { amount := amount, status := .opened, appointmentId := appointmentId }) }
  else none

end Stripe

structure Payments where
  db : Db
  stripe : Stripe

/-- What a payment call throws: one of its own refusals, or Stripe's error. -/
inductive PaymentError where
  | refusal (r : Refusal)
  | stripe
  deriving DecidableEq, Repr

/-- What a step of a payment call leaves open: the instant it happens, Stripe's answer to a refund
request, and the id of an intent Stripe creates. -/
structure Chance where
  now : ℤ
  answer : RefundAnswer
  newIntent : String

namespace Stripe

variable {s s' : Stripe} {r : RefundRequest}

@[simp] theorem intents_execute (s : Stripe) (r : RefundRequest) :
    (s.execute r).intents = s.intents := by
  unfold execute
  split <;> rfl

/-- A refund with a new key and an amount counts for its intent. -/
theorem refunded_execute {n : ℤ} (hkey : s.executed r.key = false) (hn : r.amount = some n)
    (hpos : n ≠ 0) (id : String) :
    (s.execute r).refunded id = s.refunded id + if r.intentId = id then n else 0 := by
  simp only [execute, hkey, refunded, hn, Bool.false_eq_true, if_false]
  have hfilter : (some n).filter (· != 0) = some n := by simp [Option.filter, hpos]
  by_cases h : r.intentId = id
  · simp [h, hfilter, add_comm]
  · simp [h]

/-- A refund with a new key and no amount gives back what is left. -/
theorem refunded_execute_whole (hkey : s.executed r.key = false) (hn : r.amount = none)
    (id : String) : (s.execute r).refunded id = s.refunded id +
      if r.intentId = id then s.charged r.intentId - s.refunded r.intentId else 0 := by
  simp only [execute, hkey, refunded, hn, Bool.false_eq_true, if_false]
  by_cases h : r.intentId = id
  · simp [h]
  · simp [h]

theorem refunded_execute_of_ne {id : String} (h : r.intentId ≠ id) :
    (s.execute r).refunded id = s.refunded id := by
  unfold execute
  split
  · rfl
  · simp [refunded, h]

/-- Whatever its key, a refund with a positive amount gives back at most that. -/
theorem refunded_execute_le {n : ℤ} (hn : r.amount = some n) (hpos : 0 < n) (id : String) :
    (s.execute r).refunded id ≤ s.refunded id + if r.intentId = id then n else 0 := by
  cases hkey : s.executed r.key with
  | true =>
    rw [execute, if_pos hkey]
    split <;> omega
  | false => exact (refunded_execute hkey hn hpos.ne' id).le

theorem executed_execute {k : RefundKey} :
    (s.execute r).executed k = true ↔ s.executed k = true ∨ r.key = k := by
  unfold execute
  split
  · next h =>
    constructor
    · exact .inl
    · rintro (hk | rfl)
      · exact hk
      · exact h
  · simp [executed, or_comm]

/-- How many refunds of an intent were executed. -/
def refundCount (s : Stripe) (intentId : String) : ℕ :=
  (s.refunds.filter (·.intentId == intentId)).length

theorem refundCount_execute (s : Stripe) (r : RefundRequest) (id : String) :
    (s.execute r).refundCount id =
      s.refundCount id + if s.executed r.key = false ∧ r.intentId = id then 1 else 0 := by
  unfold execute
  cases hkey : s.executed r.key with
  | true => simp
  | false =>
    by_cases h : r.intentId = id
    · simp [refundCount, h]
    · simp [refundCount, h]

theorem refunded_eq_zero {id : String} (h : s.refundCount id = 0) : s.refunded id = 0 := by
  simp [refunded, List.length_eq_zero_iff.1 h]

theorem intents_setStatus (s : Stripe) (id : String) (status : IntentStatus) (j : String) :
    (s.setStatus id status).intents j =
      if j = id then (s.intents j).map fun i => { i with status := status } else s.intents j := by
  unfold setStatus
  split
  · next h => simp [h]
  · next h => simp [h]

theorem charged_setStatus (s : Stripe) (id : String) (status : IntentStatus) (j : String) :
    (s.setStatus id status).charged j = s.charged j := by
  unfold charged
  rw [intents_setStatus]
  split
  · cases s.intents j <;> rfl
  · rfl

theorem approve_ok {id : String} (h : s.approve id = some s') :
    (∃ i, s.intents id = some i ∧ i.status = .opened) ∧ s' = s.setStatus id .succeeded := by
  simp only [approve, Option.ite_none_right_eq_some, Option.some.injEq] at h
  exact ⟨by simpa using (Option.any_eq_true _ _).1 h.1, h.2.symm⟩

theorem cancelPaymentIntent_ok {id : String} (h : s.cancelPaymentIntent id = some s') :
    (∃ i, s.intents id = some i ∧ i.status = .opened) ∧ s' = s.setStatus id .canceled := by
  simp only [cancelPaymentIntent, Option.ite_none_right_eq_some, Option.some.injEq] at h
  exact ⟨by simpa using (Option.any_eq_true _ _).1 h.1, h.2.symm⟩

theorem createPaymentIntent_ok {id : String} {amount : ℤ} {appointmentId : ℕ}
    (h : s.createPaymentIntent id amount appointmentId = some s') :
    s.intents id = none ∧ s' = { s with
      intents := Function.update s.intents id (some ⟨amount, .opened, appointmentId⟩) } := by
  simp only [createPaymentIntent, Option.ite_none_right_eq_some, Option.some.injEq,
    Option.isNone_iff_eq_none] at h
  exact ⟨h.1, h.2.symm⟩

theorem refunds_cancelPaymentIntent {id : String} :
    ((s.cancelPaymentIntent id).getD s).refunds = s.refunds := by
  unfold cancelPaymentIntent
  split <;> rfl

theorem createRefund_ok {a : RefundAnswer} (h : s.createRefund r a = some s') :
    (a = .accepted ∧ s' = s.execute r) ∨
      (a = .alreadyRefunded ∧ s.charged r.intentId ≤ s.refunded r.intentId ∧ s' = s) ∨
      (a = .rejected ∧ s' = s) := by
  cases a with
  | accepted => exact .inl ⟨rfl, (Option.some.inj h).symm⟩
  | alreadyRefunded =>
    simp only [createRefund, Option.ite_none_right_eq_some, Option.some.injEq] at h
    exact .inr (.inl ⟨rfl, h.1, h.2.symm⟩)
  | rejected => exact .inr (.inr ⟨rfl, (Option.some.inj h).symm⟩)

end Stripe

end Barbershop
