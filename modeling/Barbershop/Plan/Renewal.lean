import Barbershop.Plan.Account

/-!
# Renewing a plan

A run of `renewSubscription` reads the subscription once and goes by what it read: it closes an
attempt that another run left pending, counts the failed ones, claims the next attempt by creating
its payment, charges the card, and settles the payment. Other runs, the webhooks and Stripe move
between any two of its statements, and a run may die at any of them.
-/

namespace Barbershop

open Lib

inductive RenewOutcome where
  | renewed | not_due | in_progress | failed | expired
  deriving DecidableEq

/-! ## Reconciling a pending attempt -/

/-- Where a call of `reconcileRenewalPayment` is. -/
inductive ReconcileRenewal where
  | reading (paymentId : ℕ)
  | searching (paymentId : ℕ) (seen : PlanPayment)
  | recording (paymentId : ℕ) (key : RenewalKey)
  | retrieving (paymentId : ℕ) (key : RenewalKey)
  | finalizing (c : FinalizeRenewal)
  | failing (c : MarkRenewalFailed)

namespace ReconcileRenewal

def step (k : RenewalChance) (c : ReconcileRenewal) (s : Plans) :
    Plans × Progress ReconcileRenewal RenewOutcome :=
  match c with
  | reading id => match s.payments.get? id with
    | none => (s, .done .failed)
    | some payment =>
      if payment.status ≠ .pending then (s, .done .failed)
      else match payment.transactionId with
        | some (.renewal key) => (s, .next (retrieving id key))
        -- a renewal payment carries no other intent
        | some _ => (s, .done .in_progress)
        | none =>
          if k.now - payment.createdAt < 3600000 then (s, .done .in_progress)
          else (s, .next (searching id payment))
  | searching id seen => match seen.renewalKey.filter fun key => (s.findRenewal key k).isSome with
    | none => (s, .next (failing (.marking id)))
    | some key => (s, .next (recording id key))
  | recording id key =>
    ({ s with
      payments := s.payments.modify id fun p => { p with transactionId := some (.renewal key) } },
      .next (retrieving id key))
  | retrieving id key => match (s.renewals key).map RenewalIntent.status with
    -- an intent that Stripe does not know is an error of the request
    | none => (s, .done .in_progress)
    | some .succeeded => (s, .next (finalizing (.reading id)))
    | some .processing | some .requires_action => (s, .done .in_progress)
    | some _ => (s, .next (failing (.marking id)))
  | finalizing c => ((c.step k s).1, (c.step k s).2.within finalizing fun _ => .done .renewed)
  | failing c => ((c.step k s).1, (c.step k s).2.within failing fun _ => .done .failed)

end ReconcileRenewal

/-! ## The run -/

/-- What a run goes by once it has found the subscription due. -/
structure DueRenewal where
  subscriptionId : ℕ
  userId : ℕ
  periodEnd : ℤ
  planId : ℕ
  renewalFailed : Bool
  ignoreDailyLimit : Bool
  now : ℤ

namespace DueRenewal

variable (d : DueRenewal)

def key (attempt : ℕ) : RenewalKey := ⟨d.subscriptionId, d.periodEnd, attempt⟩

/-- The end of the period after this one. -/
def nextPeriodEnd (cat : PlanCatalog) : ℤ :=
  cat.addCycle d.periodEnd (cat.plans d.planId).billingCycle

/-- `renewalKey` starts with the prefix of the period. -/
def attempts (p : PlanPayment) : Bool :=
  p.renewalKey.any fun key => key.subscriptionId == d.subscriptionId && key.periodEnd == d.periodEnd

end DueRenewal

/-- Days after the end of the period in which the plan stays while the card is tried. -/
def RENEWAL_GRACE_DAYS : ℤ := 7

/-- Where a run of `renewSubscription` is. -/
inductive RenewSubscription where
  | reading (subscriptionId : ℕ) (ignoreDailyLimit : Bool)
  | switching (d : DueRenewal) (pendingPlanId : ℕ)
  | advancing (d : DueRenewal)
  | looking (d : DueRenewal)
  | reconciling (d : DueRenewal) (c : ReconcileRenewal)
  | throttling (d : DueRenewal)
  | counting (d : DueRenewal)
  | claiming (d : DueRenewal) (attempt : ℕ)
  | choosing (d : DueRenewal) (attempt paymentId : ℕ)
  | charging (d : DueRenewal) (attempt paymentId : ℕ)
  | refused (paymentId : ℕ) (key : RenewalKey)
  | recording (paymentId : ℕ) (key : RenewalKey) (status : RenewalIntentStatus)
  | finalizing (c : FinalizeRenewal)
  | failing (c : MarkRenewalFailed)
  | expiring (c : ExpireSubscription)

namespace RenewSubscription

/-- A run ends with its outcome, or throws. -/
abbrev Output := Option RenewOutcome

/-- A free plan only moves its period. -/
def priced (cat : PlanCatalog) (d : DueRenewal) : RenewSubscription :=
  if (cat.plans d.planId).price ≤ 0 then advancing d else looking d

/-- The plan falls once the grace is over. -/
def tolerated (d : DueRenewal) : RenewSubscription :=
  if RENEWAL_GRACE_DAYS * 86400000 < d.now - d.periodEnd then
    expiring (.deactivating d.subscriptionId d.userId)
  else counting d

/-- One try a day, unless the card is new. -/
def afterPending (d : DueRenewal) : RenewSubscription :=
  if d.renewalFailed = true ∧ d.ignoreDailyLimit = false then throttling d else tolerated d

/-- The attempt that was made last. -/
def lastAttempt (d : DueRenewal) (payments : Table PlanPayment) : Option ℤ :=
  ((payments.filter fun _ p => d.attempts p).map (·.2.createdAt)).max?

def claim (cat : PlanCatalog) (d : DueRenewal) (attempt : ℕ) : PlanPayment where
  subscriptionId := d.subscriptionId
  amount := (cat.plans d.planId).price
  paymentDate := d.now
  nextPaymentDate := d.nextPeriodEnd cat
  transactionId := none
  status := .pending
  createdAt := d.now
  renewalKey := some (d.key attempt)
  kind := none
  previousPlanId := none

def withTransaction (key : RenewalKey) (p : PlanPayment) : PlanPayment :=
  { p with transactionId := some (.renewal key) }

def step (cat : PlanCatalog) (k : RenewalChance) (c : RenewSubscription) (s : Plans) :
    Plans × Progress RenewSubscription Output :=
  match c with
  | reading id ignoreDailyLimit =>
    match (s.subscriptions.get? id).bind fun sub => sub.currentPeriodEnd.map (sub, ·) with
    | none => (s, .done (some .not_due))
    | some (sub, periodEnd) =>
      if sub.status ≠ .active ∨ sub.stripeSubscriptionId ≠ none ∨ k.now < periodEnd then
        (s, .done (some .not_due))
      else if sub.cancelAtPeriodEnd then (s, .next (expiring (.deactivating id sub.userId)))
      else
        let d : DueRenewal := {
          subscriptionId := id
          userId := sub.userId
          periodEnd := periodEnd
          planId := sub.planId
          renewalFailed := sub.renewalFailedAt.isSome
          ignoreDailyLimit := ignoreDailyLimit
          now := k.now }
        match sub.pendingPlanId with
        | none => (s, .next (priced cat d))
        | some planId => (s, .next (switching d planId))
  | switching d planId =>
    match s.subscriptions.tryModify d.subscriptionId (·.pendingPlanId == some planId)
      (fun sub => { sub with planId := planId, pendingPlanId := none }) with
    | none => (s, .next (priced cat d))
    | some subscriptions => ({ s with subscriptions := subscriptions },
        .next (priced cat { d with planId := planId }))
  | advancing d => match s.subscriptions.tryModify d.subscriptionId
      (·.currentPeriodEnd == some d.periodEnd)
      (fun sub => { sub with currentPeriodEnd := some (d.nextPeriodEnd cat) }) with
    | none => (s, .done (some .renewed))
    | some subscriptions => ({ s with subscriptions := subscriptions }, .done (some .renewed))
  | looking d => match s.payments.find? fun _ p => d.attempts p && p.status == .pending with
    | none => (s, .next (afterPending d))
    | some (id, _) => (s, .next (reconciling d (.reading id)))
  | reconciling d c => ((c.step k s).1, (c.step k s).2.within (reconciling d) fun out =>
      if out = .failed then .next (afterPending d) else .done (some out))
  | throttling d =>
    if ∃ at_ ∈ lastAttempt d s.payments, d.now - at_ < 20 * 3600000 then (s, .done (some .failed))
    else (s, .next (tolerated d))
  | counting d =>
    let failed := s.payments.filter fun _ p => d.attempts p && p.status == .failed
    (s, .next (claiming d (failed.length + 1)))
  | claiming d attempt =>
    if s.payments.any fun _ p => p.renewalKey == some (d.key attempt) then
      (s, .done (some .in_progress))
    else ({ s with payments := s.payments.insert (claim cat d attempt) },
      .next (choosing d attempt s.payments.next))
  | choosing d attempt id =>
    if k.card then (s, .next (charging d attempt id)) else (s, .next (failing (.marking id)))
  | charging d attempt id =>
    let key := d.key attempt
    let charged := s.chargeOffSession key (roundHalfUp ((cat.plans d.planId).price * 100)) k
    match charged.2 with
    | .answered status => (charged.1, .next (recording id key status))
    | .declined _ => (charged.1, .next (refused id key))
    | .cardError => (charged.1, .next (failing (.marking id)))
    -- the error is thrown, and the payment stays pending
    | .lost _ => (charged.1, .done none)
  | refused id key => ({ s with payments := s.payments.modify id (withTransaction key) },
      .next (failing (.marking id)))
  | recording id key status => ({ s with payments := s.payments.modify id (withTransaction key) },
      if status = .succeeded then .next (finalizing (.reading id)) else .done (some .in_progress))
  | finalizing c =>
    ((c.step k s).1, (c.step k s).2.within finalizing fun _ => .done (some .renewed))
  | failing c => ((c.step k s).1, (c.step k s).2.within failing fun _ => .done (some .failed))
  | expiring c => ((c.step cat s).1, (c.step cat s).2.within expiring fun _ => .done (some .expired))

end RenewSubscription

/-! ## The webhook -/

/-- Where the webhook of a succeeded renewal intent is. -/
inductive RenewalWebhook where
  | finding (key : RenewalKey)
  | finalizing (key : RenewalKey) (c : FinalizeRenewal)

def RenewalWebhook.step (k : RenewalChance) (c : RenewalWebhook) (s : Plans) :
    Plans × Progress RenewalWebhook Unit :=
  match c with
  | finding key => match s.payments.find? fun _ p => p.renewalKey == some key with
    | none => (s.deliver key, .done ())
    | some (id, _) => (s, .next (finalizing key (.reading id)))
  | finalizing key c => match c.step k s with
    | (s, .next c) => (s, .next (finalizing key c))
    | (s, .done _) => (s.deliver key, .done ())

/-! ## The system -/

inductive RenewalCall where
  | renew (c : RenewSubscription)
  | webhook (c : RenewalWebhook)

inductive RenewalEvent where
  /-- The daily job, the backoffice or a new card. -/
  | renew (subscriptionId : ℕ) (ignoreDailyLimit : Bool)
  | webhook (key : RenewalKey)
  /-- Stripe moves an intent that has not succeeded and is not cancelled. -/
  | settle (key : RenewalKey) (status : RenewalIntentStatus)

section System

variable (cat : PlanCatalog)

def RenewalCall.step (k : RenewalChance) (c : RenewalCall) (s : Plans) :
    Plans × Option RenewalCall :=
  match c with
  | renew c => ((c.step cat k s).1, (c.step cat k s).2.running.map renew)
  | webhook c => ((c.step k s).1, (c.step k s).2.running.map webhook)

def RenewalEvent.begin (e : RenewalEvent) (s : Plans) : Option (Plans × Option RenewalCall) :=
  match e with
  | renew id ignoreDailyLimit => some (s, some (.renew (.reading id ignoreDailyLimit)))
  | webhook key => if s.succeeded key then some (s, some (.webhook (.finding key))) else none
  | settle key status => match s.renewals key with
    | none => none
    | some intent =>
      if intent.status = .succeeded ∨ intent.status = .canceled then none
      else some (s.setRenewal key { intent with status := status }, none)

/-- A run that dies leaves what it wrote. -/
def renewalCalls : CallSystem Plans RenewalCall RenewalEvent RenewalChance where
  event e s := e.begin s
  step k c s := some (if k.crash then (s, none) else c.step cat k s)

end System

end Barbershop
