import Barbershop.Lib.Calls
import Barbershop.Core.Money

/-!
# Platform plans and their renewal charges

An account pays the platform for a plan. A plan the app bills itself has an end of its period
(`currentPeriodEnd`); the renewal charges the saved card for the next one. A charge is an attempt: a
payment under a unique `renewalKey` of subscription, period and attempt, and one payment intent of
Stripe under the same key. Here are the rows, Stripe's intents, and the pieces that end an attempt or
a plan; each is a short chain of separate statements.
-/

namespace Barbershop

open Lib

/-! ## Rows -/

/-- `PLANO_STATUS` -/
inductive PlanStatus where
  | active | inactive
  deriving DecidableEq

/-- `PAGAMENTO_STATUS` -/
inductive PlanPaymentStatus where
  | completed | pending | failed | refunded
  deriving DecidableEq

inductive BillingCycle where
  | monthly | yearly
  deriving DecidableEq

structure PlatformPlan where
  price : ℚ
  billingCycle : BillingCycle
  stripePriceId : Option String

structure PlatformSubscription where
  userId : ℕ
  planId : ℕ
  status : PlanStatus
  stripeSubscriptionId : Option String
  currentPeriodEnd : Option ℤ
  renewalFailedAt : Option ℤ
  cancelAtPeriodEnd : Bool
  pendingPlanId : Option ℕ

/-- `${subscription}:${end of the period}:${attempt}` -/
structure RenewalKey where
  subscriptionId : ℕ
  periodEnd : ℤ
  attempt : ℕ
  deriving DecidableEq

/-- The payment intent of a charge: of a checkout, of the renewal under a key, or of a larger plan
in a period. -/
inductive PlanIntent where
  | checkout (id : String)
  | renewal (key : RenewalKey)
  | upgrade (subscriptionId planId : ℕ) (periodEnd : ℤ)
  deriving DecidableEq

/-- The kind of a payment that has one: the difference to a larger plan. -/
inductive PlanPaymentKind where
  | plan_upgrade
  deriving DecidableEq

structure PlanPayment where
  subscriptionId : ℕ
  amount : ℚ
  paymentDate : ℤ
  nextPaymentDate : ℤ
  transactionId : Option PlanIntent
  status : PlanPaymentStatus
  createdAt : ℤ
  renewalKey : Option RenewalKey
  kind : Option PlanPaymentKind
  previousPlanId : Option ℕ

/-- The plans on offer, the free one, and the calendar (`addDays` and `addYears`). -/
structure PlanCatalog where
  plans : ℕ → PlatformPlan
  /-- The first plan with price 0. -/
  freePlan : Option ℕ
  addDays : ℤ → ℕ → ℤ
  addYears : ℤ → ℕ → ℤ

def PlanCatalog.addCycle (cat : PlanCatalog) (start : ℤ) : BillingCycle → ℤ
  | .yearly => cat.addYears start 1
  | .monthly => cat.addDays start 30

/-! ## Stripe -/

inductive RenewalIntentStatus where
  | succeeded | processing | requires_action | requires_payment_method | canceled
  deriving DecidableEq

structure RenewalIntent where
  amount : ℤ
  status : RenewalIntentStatus
  createdAt : ℤ

/-- A write of the end of a period by a paid renewal. -/
structure PeriodAdvance where
  paymentId : ℕ
  before : Option ℤ
  after : ℤ
  deriving DecidableEq

/-- The rows beside Stripe's renewal intents, one for each key; `owed` are the webhooks Stripe still
delivers, and `advances` what the paid renewals have done to the periods, in order. -/
structure Plans where
  subscriptions : Table PlatformSubscription
  payments : Table PlanPayment
  renewals : RenewalKey → Option RenewalIntent
  owed : List RenewalKey
  advances : List PeriodAdvance

/-- What Stripe does with a charge. -/
inductive ChargeOutcome where
  | answered (status : RenewalIntentStatus)
  /-- An error with the payment intent: a declined card. -/
  | declined (status : RenewalIntentStatus)
  /-- A `StripeCardError` without one. -/
  | cardError
  /-- No answer; the intent may have been created. -/
  | lost (status : Option RenewalIntentStatus)
  deriving DecidableEq

/-- The status of the intent that was created, if one was. -/
def ChargeOutcome.created : ChargeOutcome → Option RenewalIntentStatus
  | answered status | declined status => some status
  | cardError => none
  | lost status => status

/-- What a step meets: the instant, whether the run dies here, a saved card, Stripe's part. -/
structure RenewalChance where
  now : ℤ
  crash : Bool
  card : Bool
  charge : ChargeOutcome
  /-- Does the search find an intent younger than an hour? -/
  indexed : Bool

namespace Plans

variable (s : Plans)

def succeeded (key : RenewalKey) : Bool := (s.renewals key).any (·.status == .succeeded)

/-- An intent is created, or its status changes; a success is followed by its webhook. -/
def setRenewal (key : RenewalKey) (intent : RenewalIntent) : Plans :=
  { s with
    renewals := Function.update s.renewals key (some intent)
    owed := if intent.status = .succeeded then key :: s.owed else s.owed }

def deliver (key : RenewalKey) : Plans := { s with owed := s.owed.filter (· ≠ key) }

/-- `chargeOffSession` under a key: the charge of the key, if there is one already. -/
def chargeOffSession (key : RenewalKey) (amount : ℤ) (k : RenewalChance) : Plans × ChargeOutcome :=
  match s.renewals key with
  | some intent => (s, .answered intent.status)
  | none => (k.charge.created.elim s fun status => s.setRenewal key ⟨amount, status, k.now⟩, k.charge)

/-- `findPaymentIntentByRenewalKey`: the search lags, by an hour at most. -/
def findRenewal (key : RenewalKey) (k : RenewalChance) : Option RenewalIntent :=
  (s.renewals key).filter fun intent => decide (intent.createdAt + 3600000 ≤ k.now) || k.indexed

end Plans

/-! ## Ending an attempt -/

/-- Where a call of `markRenewalFailed` is. -/
inductive MarkRenewalFailed where
  | marking (paymentId : ℕ)
  | dating (subscriptionId : ℕ) (seen : Option ℤ)

namespace MarkRenewalFailed

def step (k : RenewalChance) (c : MarkRenewalFailed) (s : Plans) :
    Plans × Progress MarkRenewalFailed Unit :=
  match c with
  | marking id => match s.payments.get? id with
    | none => (s, .done ())
    | some payment =>
      ({ s with payments := s.payments.modify id fun p => { p with status := .failed } },
        .next (dating payment.subscriptionId
          ((s.subscriptions.get? payment.subscriptionId).bind (·.renewalFailedAt))))
  | dating id seen =>
    ({ s with
      subscriptions := s.subscriptions.modify id fun sub =>
        { sub with renewalFailedAt := some (seen.getD k.now) } }, .done ())

end MarkRenewalFailed

/-- Where a call of `finalizeRenewalPayment` is. -/
inductive FinalizeRenewal where
  | reading (paymentId : ℕ)
  | committing (paymentId subscriptionId : ℕ) (nextPaymentDate : ℤ)

namespace FinalizeRenewal

def complete (now : ℤ) (p : PlanPayment) : PlanPayment :=
  { p with
    status := .completed
    paymentDate := now }

def renewed (nextPaymentDate : ℤ) (sub : PlatformSubscription) : PlatformSubscription :=
  { sub with
    currentPeriodEnd := some nextPaymentDate
    renewalFailedAt := none
    status := .active }

/-- The transaction: only who settles the pending payment moves the period. -/
def commit (now : ℤ) (paymentId subscriptionId : ℕ) (nextPaymentDate : ℤ) (s : Plans) : Plans :=
  match s.payments.tryModify paymentId (·.status == .pending) (complete now) with
  | none => s
  | some payments => { s with
      payments := payments
      subscriptions := s.subscriptions.modify subscriptionId (renewed nextPaymentDate)
      advances := s.advances ++ [{
        paymentId := paymentId
        before := (s.subscriptions.get? subscriptionId).bind (·.currentPeriodEnd)
        after := nextPaymentDate }] }

def step (k : RenewalChance) (c : FinalizeRenewal) (s : Plans) :
    Plans × Progress FinalizeRenewal Unit :=
  match c with
  | reading id => match s.payments.get? id with
    | none => (s, .done ())
    | some payment =>
      if payment.renewalKey = none then (s, .done ())
      else (s, .next (committing id payment.subscriptionId payment.nextPaymentDate))
  | committing id subscriptionId next => (commit k.now id subscriptionId next s, .done ())

end FinalizeRenewal

/-! ## Ending a plan -/

/-- Where a call of `expireSubscription` is. -/
inductive ExpireSubscription where
  | deactivating (subscriptionId userId : ℕ)
  | creating (userId : ℕ)

namespace ExpireSubscription

/-- The free subscription of an account. -/
def free (userId planId : ℕ) : PlatformSubscription where
  userId := userId
  planId := planId
  status := .active
  stripeSubscriptionId := none
  currentPeriodEnd := none
  renewalFailedAt := none
  cancelAtPeriodEnd := false
  pendingPlanId := none

def step (cat : PlanCatalog) (c : ExpireSubscription) (s : Plans) :
    Plans × Progress ExpireSubscription Unit :=
  match c with
  | deactivating id userId =>
    ({ s with
      subscriptions := s.subscriptions.modify id fun sub => { sub with status := .inactive } },
      .next (creating userId))
  | creating userId =>
    ({ s with
      subscriptions := cat.freePlan.elim s.subscriptions fun planId =>
        s.subscriptions.insert (free userId planId) }, .done ())

end ExpireSubscription

end Barbershop
