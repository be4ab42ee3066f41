import Barbershop.Plan.Alone

/-!
# Stripe's events

What the webhook does with the invoices and the subscriptions that Stripe announces. A Stripe
subscription is an owner's plan, the rent of a chair or a client's club, and is looked up in this
order. An event may come late, again, or out of order; `Delivery` is one delivery with what Stripe
answers when the handler asks for the subscription.
-/

namespace Barbershop

open Lib

/-- `MEMBERSHIP_STATUS` -/
inductive MembershipStatus where
  | free | paid | past_due
  deriving DecidableEq

/-- A payment of an owner's invoice. -/
structure InvoicePayment where
  subscriptionId : ℕ
  amount : ℚ
  paymentDate : ℤ
  nextPaymentDate : ℤ
  transactionId : String

/-- The rows that the events write; `memberships` finds the club of a Stripe subscription, `rents` are
the subscriptions of chair rents, whose rows `ChairRentService` keeps. -/
structure StripeBooks where
  plans : Plans
  invoices : Table InvoicePayment
  club : ClubBooks
  memberships : String → Option ℕ
  rents : List String
  userMembership : ℕ → MembershipStatus

/-- An invoice of a Stripe subscription, with the period that it is for; instants are in seconds. -/
structure StripeInvoice where
  id : String
  subscription : Option String
  payment_intent : Option String
  /-- `billing_reason === 'subscription_cycle'` -/
  renewal : Bool
  amount_paid : ℤ
  currency : String
  created : ℤ
  next_payment_attempt : Option ℤ
  lines : List (Option ℤ)
  period_start : ℤ
  period_end : Option ℤ

inductive StripeEvent where
  | invoicePaymentSucceeded (invoice : StripeInvoice)
  | invoicePaymentFailed (invoice : StripeInvoice)
  | subscriptionUpdated (stripeId : String) (status : StripeSubscriptionStatus)
  | subscriptionDeleted (stripeId : String)

/-- An event as it is delivered; `live` is the status that `getSubscription` answers with, if it
answers. -/
structure Delivery where
  event : StripeEvent
  live : Option StripeSubscriptionStatus

namespace StripeInvoice

variable (i : StripeInvoice)

def subscriptionId : String := i.subscription.getD ""

/-- `invoice.payment_intent || invoice.id` -/
def transactionId : String := ((i.payment_intent).filter (· ≠ "")).getD i.id

/-- The invoice of a club. -/
def ofClub (subscriptionId : ℕ) : ClubInvoice where
  id := i.id
  subscriptionId := subscriptionId
  lines := i.lines
  period_end := i.period_end
  amount_paid := i.amount_paid
  currency := i.currency

def payment (subscriptionId : ℕ) : InvoicePayment where
  subscriptionId := subscriptionId
  amount := fromMinorUnits i.amount_paid i.currency
  paymentDate := fromSeconds i.created
  nextPaymentDate := fromSeconds (((i.next_payment_attempt).filter (· ≠ 0)).getD i.created)
  transactionId := i.transactionId

/-- What a paid invoice makes of the plan that was read as `sub`: active, and on a renewal with the
plan that was pending. -/
def renewPlan (sub row : PlatformSubscription) : PlatformSubscription :=
  match sub.pendingPlanId.filter fun _ => i.renewal with
  | some planId => { row with status := .active, planId := planId, pendingPlanId := none }
  | none => { row with status := .active }

end StripeInvoice

def PlatformSubscription.withStatus (status : PlanStatus) (sub : PlatformSubscription) :
    PlatformSubscription :=
  { sub with status := status }

namespace StripeBooks

variable (cat : PlanCatalog) (s : StripeBooks)

/-- The plan of a Stripe subscription. -/
def plan (stripeId : String) : Option (ℕ × PlatformSubscription) :=
  s.plans.subscriptions.find? fun _ sub => sub.stripeSubscriptionId == some stripeId

def setPlan (id : ℕ) (f : PlatformSubscription → PlatformSubscription) : StripeBooks :=
  { s with plans := { s.plans with subscriptions := s.plans.subscriptions.modify id f } }

def setMembership (userId : ℕ) (status : MembershipStatus) : StripeBooks :=
  { s with userMembership := Function.update s.userMembership userId status }

def setClub (subscriptions : Table ClientSubscription) : StripeBooks :=
  { s with club := { s.club with db := { s.club.db with subscriptions := subscriptions } } }

/-- The payment of an invoice, once. -/
def recordInvoice (i : StripeInvoice) (subscriptionId : ℕ) : StripeBooks :=
  if s.invoices.any fun _ p => p.transactionId == i.transactionId then s
  else { s with invoices := s.invoices.insert (i.payment subscriptionId) }

/-- The club of an invoice. -/
def invoiceClub (i : StripeInvoice) : Option ℕ :=
  if i.subscriptionId = "" then none else s.memberships i.subscriptionId

/-- `handleClientSubscriptionInvoiceSucceeded`; without an answer of Stripe it throws before it
writes. -/
def clubInvoice (i : StripeInvoice) (live : Option StripeSubscriptionStatus) : StripeBooks :=
  match (s.invoiceClub i).filter fun _ => live.isSome with
  | none => s
  | some id =>
    match handleClientSubscriptionInvoiceSucceeded (i.ofClub id) (fun _ => s.club) s.club with
    | .ok club => { s with club := club }
    | .error _ => s

/-- The plan that was read as `sub` is paid for: an ended one does not come back, nor one that Stripe
says is not active. -/
def invoicePaid (i : StripeInvoice) (live : Option StripeSubscriptionStatus) (id : ℕ)
    (sub : PlatformSubscription) : StripeBooks :=
  if sub.status ≠ .inactive ∧ live.all (· == .active) = true then
    (s.setMembership sub.userId .paid).setPlan id (i.renewPlan sub)
  else s

def handleInvoicePaymentSucceeded (i : StripeInvoice) (live : Option StripeSubscriptionStatus) :
    StripeBooks :=
  match s.plan i.subscriptionId with
  | some (id, sub) => (s.invoicePaid i live id sub).recordInvoice i id
  | none => if i.subscriptionId ∈ s.rents then s else s.clubInvoice i live

def handleInvoicePaymentFailed (i : StripeInvoice) : StripeBooks :=
  match s.plan i.subscriptionId with
  | some (_, sub) => s.setMembership sub.userId .past_due
  | none =>
    if i.subscriptionId ∈ s.rents then s
    else (s.invoiceClub i).elim s fun id =>
      s.setClub (handleClientSubscriptionInvoiceFailed id s.club.db.subscriptions)

/-- `releaseToFreePlan` -/
def releaseToFreePlan (id userId : ℕ) : StripeBooks :=
  let ended := ((ExpireSubscription.deactivating id userId).step cat s.plans).1
  { s with plans := ((ExpireSubscription.creating userId).step cat ended).1 }.setMembership userId .free

def handleSubscriptionUpdated (stripeId : String) (status : StripeSubscriptionStatus) :
    StripeBooks :=
  match s.plan stripeId with
  | some (id, sub) =>
    match status with
    | .canceled | .unpaid | .incomplete_expired => s.releaseToFreePlan cat id sub.userId
    | .active | .trialing =>
      (s.setMembership sub.userId .paid).setPlan id (·.withStatus .active)
    | .past_due => (s.setMembership sub.userId .past_due).setPlan id (·.withStatus .active)
    | .incomplete | .paused => s
  | none => (s.memberships stripeId).elim s fun id =>
      s.setClub (syncClientClub id status s.club.db.subscriptions)

def handleSubscriptionDeleted (stripeId : String) : StripeBooks :=
  match s.plan stripeId with
  | some (id, sub) => (s.setMembership sub.userId .free).setPlan id (·.withStatus .inactive)
  | none =>
    if stripeId ∈ s.rents then s
    else (s.memberships stripeId).elim s fun id =>
      s.setClub (s.club.db.subscriptions.modify id (·.withStatus .canceled))

/-- `handleWebhook` -/
def handle (d : Delivery) : StripeBooks :=
  match d.event with
  | .invoicePaymentSucceeded i => s.handleInvoicePaymentSucceeded i d.live
  | .invoicePaymentFailed i => s.handleInvoicePaymentFailed i
  | .subscriptionUpdated stripeId status => s.handleSubscriptionUpdated cat stripeId status
  | .subscriptionDeleted stripeId => s.handleSubscriptionDeleted stripeId

end StripeBooks

/-! ## Histories -/

/-- The books, and since when what is pending for a plan has been. -/
structure StripeHistory where
  books : StripeBooks
  pendingSince : ℕ → ℤ

inductive StripeStep where
  | deliver (d : Delivery)
  | changePlan (userId newPlanId : ℕ) (k : PlanChance)
  /-- The period of a club at Stripe moves on. -/
  | period (id : ℕ) (start : ℤ)

/-- What is pending for a plan. -/
def Plans.pending (s : Plans) (id : ℕ) : Option ℕ := (s.subscriptions.get? id).bind (·.pendingPlanId)

/-- The books after `changePlan`, and the instants at which it scheduled something new. -/
def StripeHistory.changed (h : StripeHistory) (plans : Plans) (now : ℤ) : StripeHistory where
  books := { h.books with plans := plans }
  pendingSince id := if plans.pending id = h.books.plans.pending id then h.pendingSince id else now

def stripeHistories (cat : PlanCatalog) : Machine StripeHistory StripeStep where
  step h
    | .deliver d => some { h with books := h.books.handle cat d }
    | .changePlan userId newPlanId k =>
      some (h.changed (Barbershop.changePlan cat k userId newPlanId h.books.plans) k.now)
    | .period id start => some { h with books := { h.books with club := { h.books.club with
        current_period_start := Function.update h.books.club.current_period_start id start } } }

end Barbershop
