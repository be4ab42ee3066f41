import Barbershop.Plan.Renewal
import Barbershop.Club.Session

/-!
# Checkouts, refunds and changes of plans

A checkout's payment intent gives its account a plan once it has succeeded; the screen and Stripe's
webhook both confirm it, each under the lock of the intent. A refund and Stripe's end of a
subscription bring the account back to the free plan, and `changePlan` moves the plan of the active
subscription. All of them write the status of subscriptions, as the renewals do, and none of them
takes a lock on the account.
-/

namespace Barbershop

open Lib

/-! ## Checkouts -/

/-- The least amount Stripe charges. -/
def MIN_STRIPE_CHARGE : ℚ := 1 / 2

structure CheckoutCoupon where
  couponId : ℕ
  originalAmount : ℚ
  discountAmount : ℚ

/-- A checkout's payment intent at Stripe, with its metadata. -/
structure PlanCheckout where
  userId : ℕ
  planId : ℕ
  coupon : Option CheckoutCoupon
  succeeded : Bool
  refunded : Bool

/-- The plans beside Stripe's checkout intents; `locked` are the intents whose lock is taken, and
`awaiting` those that Stripe or the screen has yet to confirm. -/
structure Accounts where
  plans : Plans
  checkouts : String → Option PlanCheckout
  locked : List String
  awaiting : List String

/-- What a step meets, beside what a renewal does: `claimUse`, Stripe's answer to a request and
`assertUsageFitsPlan`. -/
structure PlanChance extends RenewalChance where
  couponFits : Bool
  accepted : Bool
  usageFits : Bool

def Accounts.setCheckout (s : Accounts) (id : String) (checkout : PlanCheckout) : Accounts :=
  { s with checkouts := Function.update s.checkouts id (some checkout) }

/-- Stripe gives the charge of a checkout back. -/
def Accounts.giveBack (s : Accounts) : PlanIntent → Accounts
  | .checkout id => (s.checkouts id).elim s fun checkout =>
      s.setCheckout id { checkout with refunded := true }
  | _ => s

/-- The confirmation of an intent has done its work. -/
def Accounts.confirmed (s : Accounts) (id : String) : Accounts :=
  { s with awaiting := s.awaiting.filter (· ≠ id) }

/-- A paid plan that is charged by Stripe, or whose period is not over. -/
def blocksNewCheckout (cat : PlanCatalog) (sub : PlatformSubscription) (now : ℤ) : Bool :=
  decide (0 < (cat.plans sub.planId).price) &&
    (sub.stripeSubscriptionId.isSome || sub.currentPeriodEnd.any fun periodEnd => now < periodEnd)

/-- An active subscription of the account. -/
def PlatformSubscription.activeOf (userId : ℕ) (sub : PlatformSubscription) : Bool :=
  sub.userId == userId && sub.status == .active

/-- The arguments of `createSubscriptionAfterPayment`. -/
structure PlanOrder where
  userId : ℕ
  planId : ℕ
  paymentIntentId : Option String
  coupon : Option CheckoutCoupon
  now : ℤ

/-- The arguments of `createPaymentIntentForCheckout`: the coupon with what its validation takes
off, and the id that Stripe gives to the new intent. -/
structure CheckoutRequest where
  userId : ℕ
  planId : ℕ
  coupon : Option (ℕ × ℚ)
  paymentIntentId : String
  now : ℤ

/-- Where a checkout is: it is offered, or its plan is given. -/
inductive CreateSubscription where
  | offering (r : CheckoutRequest)
  | locking (o : PlanOrder)
  | blocking (o : PlanOrder)
  | claiming (o : PlanOrder)
  | ending (o : PlanOrder)
  /-- The statement that ends the plans has seen these active ones. -/
  | committing (o : PlanOrder) (seen : List ℕ)
  | refunding (paymentIntentId : String)

namespace PlanOrder

variable (cat : PlanCatalog) (o : PlanOrder)

def periodEnd : ℤ := cat.addCycle o.now (cat.plans o.planId).billingCycle

def subscription : PlatformSubscription where
  userId := o.userId
  planId := o.planId
  status := .active
  stripeSubscriptionId := none
  currentPeriodEnd := some (o.periodEnd cat)
  renewalFailedAt := none
  cancelAtPeriodEnd := false
  pendingPlanId := none

def payment (subscriptionId : ℕ) : PlanPayment where
  subscriptionId := subscriptionId
  amount := o.coupon.elim (cat.plans o.planId).price fun coupon =>
    round2 ((cat.plans o.planId).price - coupon.discountAmount)
  paymentDate := o.now
  nextPaymentDate := o.periodEnd cat
  transactionId := o.paymentIntentId.map .checkout
  status := .completed
  createdAt := o.now
  renewalKey := none
  kind := none
  previousPlanId := none

/-- An active subscription that the statement saw, and that still is, ends. -/
def finish (seen : List ℕ) (id : ℕ) (sub : PlatformSubscription) : PlatformSubscription :=
  if id ∈ seen ∧ sub.activeOf o.userId then { sub with status := .inactive } else sub

def subscribe (seen : List ℕ) (s : Plans) : Plans :=
  { s with
    subscriptions := (s.subscriptions.modifyAll (o.finish seen)).insert (o.subscription cat)
    payments := s.payments.insert (o.payment cat s.subscriptions.next) }

/-- The transaction ends, and with it the lock. -/
def unlock (s : Accounts) : Accounts :=
  { s with locked := o.paymentIntentId.elim s.locked fun id => s.locked.filter (· ≠ id) }

end PlanOrder

namespace CreateSubscription

/-- The transaction ends without a plan: what was charged goes back, and the call throws. -/
def refuse (o : PlanOrder) (s : Accounts) : Accounts × Progress CreateSubscription Unit :=
  (o.unlock s, o.paymentIntentId.elim (.done ()) fun id => .next (refunding id))

/-- `none`: the call waits for the lock. A coupon that cannot be reserved, or whose reservation
moves, cancels an intent; that intent never succeeds. -/
def step (cat : PlanCatalog) (k : PlanChance) (c : CreateSubscription) (s : Accounts) :
    Option (Accounts × Progress CreateSubscription Unit) :=
  match c with
  | offering r =>
    let price := (cat.plans r.planId).price
    let coupon : Option CheckoutCoupon := r.coupon.map fun (id, discount) =>
      ⟨id, price, round2 (min price discount)⟩
    let final := round2 (price - coupon.elim 0 (·.discountAmount))
    let activePlan := s.plans.subscriptions.find? fun _ sub => sub.activeOf r.userId
    if activePlan.any fun row => blocksNewCheckout cat row.2 r.now then some (s, .done ())
    else match coupon.filter fun _ => final < MIN_STRIPE_CHARGE with
      | some coupon =>
        some (s, .next (blocking {
          userId := r.userId
          planId := r.planId
          paymentIntentId := none
          coupon := some { coupon with discountAmount := price }
          now := k.now }))
      | none =>
        -- Stripe gives each intent an id of its own
        if (s.checkouts r.paymentIntentId).isSome then none
        else some (s.setCheckout r.paymentIntentId {
          userId := r.userId
          planId := r.planId
          coupon := coupon
          succeeded := false
          refunded := false }, .done ())
  | locking o => match o.paymentIntentId with
    | none => some (s, .next (blocking o))
    | some id =>
      if id ∈ s.locked then none
      else if s.plans.payments.any fun _ p => p.transactionId == some (.checkout id) then
        some (s.confirmed id, .done ())
      else some ({ s with locked := id :: s.locked }, .next (blocking o))
  | blocking o =>
    let active := s.plans.subscriptions.find? fun _ sub => sub.activeOf o.userId
    if active.any fun row => blocksNewCheckout cat row.2 o.now then some (refuse o s)
    else some (s, .next (claiming o))
  | claiming o =>
    if o.coupon.isSome && !k.couponFits then some (refuse o s) else some (s, .next (ending o))
  | ending o =>
    let active := s.plans.subscriptions.filter fun _ sub => sub.activeOf o.userId
    some (s, .next (committing o (active.map (·.1))))
  | committing o seen =>
    let s' := o.unlock { s with plans := o.subscribe cat seen s.plans }
    some (o.paymentIntentId.elim s' s'.confirmed, .done ())
  | refunding id =>
    -- a refund that fails is only logged
    some ((if k.accepted then s.giveBack (.checkout id) else s).confirmed id, .done ())

end CreateSubscription

/-! ## Refunds of payments -/

/-- Where a refund of a payment is: `staffRefundPlanPayment`, or `syncPlanRefund` from Stripe; then
`markPlanPaymentRefunded`. -/
inductive RefundPlan where
  | refunding (paymentId : ℕ)
  | finding (intent : PlanIntent)
  | marking (paymentId : ℕ)
  | reading (paymentId : ℕ)
  | restoring (subscriptionId planId : ℕ)
  | dating (paymentId subscriptionId userId : ℕ)
  | expiring (c : ExpireSubscription)

namespace RefundPlan

/-- The payment is the latest paid one of its subscription. -/
def latest (s : Plans) (id : ℕ) (payment : PlanPayment) : Bool :=
  (s.payments.filter fun _ p => p.subscriptionId == payment.subscriptionId &&
    (p.status == .completed || p.status == .refunded)).all fun row =>
      decide (row.2.paymentDate < payment.paymentDate) ||
        (row.2.paymentDate == payment.paymentDate && decide (row.1 ≤ id))

def step (cat : PlanCatalog) (k : PlanChance) (c : RefundPlan) (s : Accounts) :
    Accounts × Progress RefundPlan Unit :=
  match c with
  | refunding id => match (s.plans.payments.get? id).filter (·.status == .completed) with
    | none => (s, .done ())
    | some payment => match payment.transactionId with
      | none => (s, .done ())
      | some intent =>
        if k.accepted then (s.giveBack intent, .next (marking id)) else (s, .done ())
  | finding intent =>
    match s.plans.payments.find? fun _ p => p.status == .completed &&
        p.transactionId == some intent with
    | none => (s, .done ())
    | some (id, _) => (s, .next (marking id))
  | marking id =>
    match s.plans.payments.tryModify id (·.status == .completed)
      (fun p => { p with status := .refunded }) with
    | none => (s, .done ())
    | some payments => ({ s with plans := { s.plans with payments := payments } },
        .next (reading id))
  | reading id =>
    match (s.plans.payments.get? id).bind fun payment =>
      (s.plans.subscriptions.get? payment.subscriptionId).map (payment, ·) with
    | none => (s, .done ())
    | some (payment, sub) =>
      if sub.status ≠ .active then (s, .done ())
      else if payment.kind = some .plan_upgrade then match payment.previousPlanId with
        | none => (s, .done ())
        | some planId => (s, .next (restoring payment.subscriptionId planId))
      else (s, .next (dating id payment.subscriptionId sub.userId))
  | restoring id planId => ({ s with plans := { s.plans with
      subscriptions := s.plans.subscriptions.modify id fun sub => { sub with planId := planId } } },
      .done ())
  | dating id subscriptionId userId =>
    if (s.plans.payments.get? id).any (latest s.plans id) then
      (s, .next (expiring (.deactivating subscriptionId userId)))
    else (s, .done ())
  | expiring c =>
    ({ s with plans := (c.step cat s.plans).1 }, (c.step cat s.plans).2.within expiring .done)

end RefundPlan

/-! ## Stripe's subscriptions -/

/-- Where a webhook of a Stripe subscription is. -/
inductive SubscriptionWebhook where
  | updated (stripeSubscriptionId : String) (status : StripeSubscriptionStatus)
  | deleted (stripeSubscriptionId : String)
  | activating (subscriptionId : ℕ)
  | deactivating (subscriptionId : ℕ)
  | releasing (c : ExpireSubscription)

namespace SubscriptionWebhook

/-- `handleSubscriptionUpdated` and `handleSubscriptionDeleted`. -/
def step (cat : PlanCatalog) (c : SubscriptionWebhook) (s : Plans) :
    Plans × Progress SubscriptionWebhook Unit :=
  match c with
  | updated stripeId status =>
    match s.subscriptions.find? fun _ sub => sub.stripeSubscriptionId == some stripeId with
    | none => (s, .done ())
    | some (id, sub) => match status with
      | .canceled | .unpaid | .incomplete_expired =>
        (s, .next (releasing (.deactivating id sub.userId)))
      | .active | .trialing | .past_due => (s, .next (activating id))
      | .incomplete | .paused => (s, .done ())
  | deleted stripeId =>
    match s.subscriptions.find? fun _ sub => sub.stripeSubscriptionId == some stripeId with
    | none => (s, .done ())
    | some (id, _) => (s, .next (deactivating id))
  | activating id => ({ s with
      subscriptions := s.subscriptions.modify id fun sub => { sub with status := .active } },
      .done ())
  | deactivating id => ({ s with
      subscriptions := s.subscriptions.modify id fun sub => { sub with status := .inactive } },
      .done ())
  | releasing c => ((c.step cat s).1, (c.step cat s).2.within releasing .done)

end SubscriptionWebhook

/-! ## Changes of plan -/

def cycleMs : BillingCycle → ℤ
  | .yearly => 365 * 86400000
  | .monthly => 30 * 86400000

def monthlyPrice (plan : PlatformPlan) : ℚ :=
  match plan.billingCycle with
  | .yearly => plan.price / 12
  | .monthly => plan.price

/-- What `chargeUpgrade` goes by. -/
structure PlanUpgrade where
  subscriptionId : ℕ
  planId : ℕ
  newPlanId : ℕ
  ends : ℤ
  now : ℤ

namespace PlanUpgrade

variable (cat : PlanCatalog) (u : PlanUpgrade)

/-- The part of a cycle that the period still has. -/
def left (cycle : BillingCycle) : ℚ := min 1 (max 0 (u.ends - u.now) / cycleMs cycle)

def amount : ℚ :=
  let old := cat.plans u.planId
  let new := cat.plans u.newPlanId
  let amount :=
    if old.billingCycle = new.billingCycle then (new.price - old.price) * u.left new.billingCycle
    else new.price - old.price * u.left old.billingCycle
  round2 (max 0 amount)

def periodEnd : ℤ :=
  let new := cat.plans u.newPlanId
  if (cat.plans u.planId).billingCycle = new.billingCycle then u.ends
  else cat.addCycle u.now new.billingCycle

def intent : PlanIntent := .upgrade u.subscriptionId u.newPlanId u.ends

def payment : PlanPayment where
  subscriptionId := u.subscriptionId
  amount := u.amount cat
  paymentDate := u.now
  nextPaymentDate := u.periodEnd cat
  transactionId := some u.intent
  status := .completed
  createdAt := u.now
  renewalKey := none
  kind := some .plan_upgrade
  previousPlanId := some u.planId

end PlanUpgrade

/-- Where a call of `changePlan` is. -/
inductive ChangePlan where
  | reading (userId newPlanId : ℕ)
  | keeping (subscriptionId : ℕ)
  | scheduling (subscriptionId newPlanId : ℕ)
  | charging (u : PlanUpgrade)
  | recording (u : PlanUpgrade)
  | creating (u : PlanUpgrade)
  | switching (subscriptionId newPlanId : ℕ) (currentPeriodEnd : Option ℤ)

namespace ChangePlan

/-- The same plan again: what was scheduled is undone. -/
def keep (sub : PlatformSubscription) : PlatformSubscription :=
  { sub with
    pendingPlanId := none
    cancelAtPeriodEnd := false }

def schedule (newPlanId : ℕ) (sub : PlatformSubscription) : PlatformSubscription :=
  { sub with
    pendingPlanId := some newPlanId
    cancelAtPeriodEnd := false }

def switch (newPlanId : ℕ) (currentPeriodEnd : Option ℤ) (sub : PlatformSubscription) :
    PlatformSubscription :=
  { sub with
    planId := newPlanId
    pendingPlanId := none
    cancelAtPeriodEnd := false
    currentPeriodEnd := currentPeriodEnd }

def upgrade (old new : PlatformPlan) : Bool :=
  if old.billingCycle = new.billingCycle then decide (monthlyPrice old < monthlyPrice new)
  else new.billingCycle == .yearly

/-- What the subscription that was read is changed to, if the change is allowed. -/
def plan (cat : PlanCatalog) (k : PlanChance) (id : ℕ) (sub : PlatformSubscription)
    (newPlanId : ℕ) : Option ChangePlan :=
  let old := cat.plans sub.planId
  let new := cat.plans newPlanId
  -- a subscription of Stripe is changed there first
  let allowed := sub.stripeSubscriptionId.isNone || k.accepted
  if sub.planId = newPlanId then
    if (sub.pendingPlanId.isSome || sub.cancelAtPeriodEnd) && allowed then some (keeping id)
    else none
  else if new.price ≤ 0 ∨ old.price ≤ 0 then none
  else if sub.stripeSubscriptionId.isNone ∧ sub.currentPeriodEnd.all (· ≤ k.now) then none
  else if sub.stripeSubscriptionId.isSome ∧ new.stripePriceId.isNone then none
  else if !upgrade old new then
    if k.usageFits && allowed then some (scheduling id newPlanId) else none
  else if sub.stripeSubscriptionId.isSome then
    if k.accepted then some (switching id newPlanId sub.currentPeriodEnd) else none
  else sub.currentPeriodEnd.map fun periodEnd => charging {
    subscriptionId := id
    planId := sub.planId
    newPlanId := newPlanId
    ends := periodEnd
    now := k.now }

def step (cat : PlanCatalog) (k : PlanChance) (c : ChangePlan) (s : Plans) :
    Plans × Progress ChangePlan Unit :=
  match c with
  | reading userId newPlanId =>
    match (s.subscriptions.find? fun _ sub => sub.activeOf userId).bind fun row =>
      plan cat k row.1 row.2 newPlanId with
    | none => (s, .done ())
    | some c => (s, .next c)
  | keeping id => ({ s with subscriptions := s.subscriptions.modify id keep }, .done ())
  | scheduling id newPlanId =>
    ({ s with subscriptions := s.subscriptions.modify id (schedule newPlanId) }, .done ())
  | charging u =>
    if u.amount cat < MIN_STRIPE_CHARGE then
      (s, .next (switching u.subscriptionId u.newPlanId (some (u.periodEnd cat))))
    else if k.card = true ∧ k.charge = .answered .succeeded then (s, .next (recording u))
    else (s, .done ())
  | recording u =>
    if s.payments.any fun _ p => p.transactionId == some u.intent then
      (s, .next (switching u.subscriptionId u.newPlanId (some (u.periodEnd cat))))
    else (s, .next (creating u))
  | creating u => ({ s with payments := s.payments.insert (u.payment cat) },
      .next (switching u.subscriptionId u.newPlanId (some (u.periodEnd cat))))
  | switching id newPlanId periodEnd =>
    ({ s with subscriptions := s.subscriptions.modify id (switch newPlanId periodEnd) }, .done ())

end ChangePlan

/-! ## The system -/

inductive AccountCall where
  | checkout (c : CreateSubscription)
  | renewal (c : RenewalCall)
  | refund (c : RefundPlan)
  | webhook (c : SubscriptionWebhook)
  | change (c : ChangePlan)

inductive AccountEvent where
  | checkout (r : CheckoutRequest)
  /-- Stripe approves an intent. -/
  | approve (paymentIntentId : String)
  /-- The screen or the webhook, once the intent has succeeded. -/
  | confirm (paymentIntentId : String) (now : ℤ)
  | renewal (e : RenewalEvent)
  | staffRefundPlanPayment (paymentId : ℕ)
  /-- A charge refunded at Stripe, and its webhook. -/
  | syncPlanRefund (intent : PlanIntent)
  | subscriptionUpdated (stripeSubscriptionId : String) (status : StripeSubscriptionStatus)
  | subscriptionDeleted (stripeSubscriptionId : String)
  | changePlan (userId newPlanId : ℕ)

section System

variable (cat : PlanCatalog)

def AccountCall.step (k : PlanChance) (c : AccountCall) (s : Accounts) :
    Option (Accounts × Option AccountCall) :=
  match c with
  | checkout c => (c.step cat k s).map fun r => (r.1, r.2.running.map checkout)
  | renewal c =>
    let r := c.step cat k.toRenewalChance s.plans
    some ({ s with plans := r.1 }, r.2.map renewal)
  | refund c => some ((c.step cat k s).1, (c.step cat k s).2.running.map refund)
  | webhook c =>
    let r := c.step cat s.plans
    some ({ s with plans := r.1 }, r.2.running.map webhook)
  | change c =>
    let r := c.step cat k s.plans
    some ({ s with plans := r.1 }, r.2.running.map change)

def AccountEvent.begin (e : AccountEvent) (s : Accounts) :
    Option (Accounts × Option AccountCall) :=
  match e with
  | checkout r => some (s, some (.checkout (.offering r)))
  | approve id => (s.checkouts id).bind fun checkout =>
      if checkout.succeeded then none
      else some ({ s.setCheckout id { checkout with succeeded := true } with
        awaiting := id :: s.awaiting }, none)
  | confirm id now => (s.checkouts id).bind fun checkout =>
      if checkout.succeeded then some (s, some (.checkout (.locking {
        userId := checkout.userId
        planId := checkout.planId
        paymentIntentId := some id
        coupon := checkout.coupon
        now := now })))
      else none
  | renewal e => (e.begin s.plans).map fun r => ({ s with plans := r.1 }, r.2.map .renewal)
  | staffRefundPlanPayment id => some (s, some (.refund (.refunding id)))
  | syncPlanRefund intent => some (s.giveBack intent, some (.refund (.finding intent)))
  | subscriptionUpdated id status => some (s, some (.webhook (.updated id status)))
  | subscriptionDeleted id => some (s, some (.webhook (.deleted id)))
  | changePlan userId newPlanId => some (s, some (.change (.reading userId newPlanId)))

def accountCalls : CallSystem Accounts AccountCall AccountEvent PlanChance where
  event e s := e.begin s
  step k c s := c.step cat k s

end System

end Barbershop
