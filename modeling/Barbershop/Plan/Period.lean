import Barbershop.Lib.Solo
import Barbershop.Plan.Checkout

/-!
# The current period of a plan

For each subscription that the app bills, what its current period has seen: the payment that opened
it, the payments of upgrades made in it, and the plan and the due date before the first of them.
`BilledAccounts.watch` keeps this beside the accounts; no code reads it.
-/

namespace Barbershop

open Lib

structure PlanPeriod where
  opener : Option ℕ
  base : Option (ℕ × Option ℤ)
  upgrades : List ℕ
  deriving DecidableEq

/-- Nothing is known of the period. -/
def PlanPeriod.unseen : PlanPeriod := ⟨none, none, []⟩

/-- A period that a payment opens. -/
def PlanPeriod.openedBy (paymentId : ℕ) : PlanPeriod := ⟨some paymentId, none, []⟩

/-- The plan that was scheduled has begun. -/
def PlanPeriod.begun (period : PlanPeriod) : PlanPeriod := ⟨period.opener, none, []⟩

/-- An upgrade of a subscription is paid for. -/
def PlanPeriod.upgraded (period : PlanPeriod) (paymentId : ℕ) (sub : PlatformSubscription) :
    PlanPeriod where
  opener := period.opener
  base := some (period.base.getD (sub.planId, sub.currentPeriodEnd))
  upgrades := period.upgrades ++ [paymentId]

/-- The payment and the subscription that a call is about to settle. -/
def FinalizeRenewal.commits : FinalizeRenewal → Option (ℕ × ℕ)
  | committing paymentId subscriptionId _ => some (paymentId, subscriptionId)
  | reading _ => none

def ReconcileRenewal.commits : ReconcileRenewal → Option (ℕ × ℕ)
  | finalizing c => c.commits
  | _ => none

def RenewSubscription.commits : RenewSubscription → Option (ℕ × ℕ)
  | reconciling _ c => c.commits
  | finalizing c => c.commits
  | _ => none

def RenewalWebhook.commits : RenewalWebhook → Option (ℕ × ℕ)
  | finding _ => none
  | finalizing _ c => c.commits

def RenewalCall.commits : RenewalCall → Option (ℕ × ℕ)
  | renew c => c.commits
  | webhook c => c.commits

section Watch

variable (g : ℕ → PlanPeriod) (s : Plans)

/-- The periods once a pending payment is settled. -/
def settledPeriods : Option (ℕ × ℕ) → ℕ → PlanPeriod
  | none => g
  | some (paymentId, id) =>
    if (s.payments.get? paymentId).any (·.status == .pending) && (s.subscriptions.get? id).isSome then
      Function.update g id (.openedBy paymentId)
    else g

def RenewSubscription.watch (c : RenewSubscription) : ℕ → PlanPeriod :=
  match c with
  | switching d planId =>
    if (s.subscriptions.get? d.subscriptionId).any (·.pendingPlanId == some planId) then
      Function.update g d.subscriptionId (g d.subscriptionId).begun
    else g
  | advancing d =>
    if (s.subscriptions.get? d.subscriptionId).any (·.currentPeriodEnd == some d.periodEnd) then
      Function.update g d.subscriptionId .unseen
    else g
  | c => settledPeriods g s c.commits

def RenewalCall.watch : RenewalCall → ℕ → PlanPeriod
  | renew c => c.watch g s
  | webhook c => settledPeriods g s c.commits

/-- The periods after a step from `s`. -/
def AccountCall.watch (c : AccountCall) : ℕ → PlanPeriod :=
  match c with
  | checkout (.committing ..) =>
    Function.update g s.subscriptions.next (.openedBy s.payments.next)
  | renewal c => c.watch g s
  | change (.creating u) =>
    (s.subscriptions.get? u.subscriptionId).elim g fun sub =>
      Function.update g u.subscriptionId ((g u.subscriptionId).upgraded s.payments.next sub)
  | _ => g

end Watch

structure BilledAccounts where
  accounts : Accounts
  periods : ℕ → PlanPeriod

/-- The accounts, with what is known of the periods. -/
def billedCalls (cat : PlanCatalog) :
    CallSystem BilledAccounts AccountCall AccountEvent PlanChance where
  event e s := (e.begin s.accounts).map fun r => (⟨r.1, s.periods⟩, r.2)
  step k c s := (c.step cat k s.accounts).map fun r =>
    (⟨r.1, c.watch s.periods s.accounts.plans⟩, r.2)

/-- Subscriptions without payments. -/
def BilledAccounts.initial (subscriptions : Table PlatformSubscription) : BilledAccounts where
  accounts := {
    plans := {
      subscriptions := subscriptions
      payments := .empty
      renewals := fun _ => none
      owed := []
      advances := [] }
    checkouts := fun _ => none
    locked := []
    awaiting := [] }
  periods _ := .unseen

namespace Plans

variable (s : Plans)

def refunded (paymentId : ℕ) : Bool := (s.payments.get? paymentId).any (·.status == .refunded)

/-- All payments of a list were refunded, and there is one. -/
def allRefunded (payments : List ℕ) : Bool := !payments.isEmpty && payments.all s.refunded

end Plans

/-- No plan is kept without the money: for the subscriptions that the app bills. -/
structure BilledAccounts.Paid (cat : PlanCatalog) (s : BilledAccounts) : Prop where
  restored : ∀ {id sub}, s.accounts.plans.subscriptions.get? id = some sub →
    sub.stripeSubscriptionId = none →
      s.accounts.plans.allRefunded (s.periods id).upgrades = true →
        (s.periods id).base = some (sub.planId, sub.currentPeriodEnd)
  ended : ∀ {id sub p}, s.accounts.plans.subscriptions.get? id = some sub →
    sub.stripeSubscriptionId = none → (s.periods id).opener = some p →
      s.accounts.plans.refunded p = true →
        ¬ (sub.status = .active ∧ 0 < (cat.plans sub.planId).price)

/-- What the refund of a payment has to meet, on the row of its subscription. -/
def PlanPayment.refundKeeps (p : PlanPayment) (id : ℕ) (sub : PlatformSubscription)
    (period : PlanPeriod) (s : Plans) : Bool :=
  sub.stripeSubscriptionId.isSome ||
    if p.kind = some .plan_upgrade then
      period.upgrades.isEmpty || !(period.upgrades.all fun j => j == id || s.refunded j) ||
        (sub.status == .active && p.previousPlanId.any fun planId =>
          period.base == some (planId, sub.currentPeriodEnd))
    else period.opener != some id || sub.status == .inactive || RefundPlan.latest s id p

def AccountCall.keepsPaid (cat : PlanCatalog) (c : AccountCall) (s : BilledAccounts) : Bool :=
  let plans := s.accounts.plans
  match c with
  | refund (.marking id) => ((plans.payments.get? id).filter (·.status == .completed)).all fun p =>
      (plans.subscriptions.get? p.subscriptionId).all fun sub =>
        p.refundKeeps id sub (s.periods p.subscriptionId) plans
  | change (.charging u) => !decide (u.amount cat < MIN_STRIPE_CHARGE) ||
      !plans.allRefunded (s.periods u.subscriptionId).upgrades
  | change (.recording u) => !plans.payments.any (fun _ p => p.transactionId == some u.intent) ||
      !plans.allRefunded (s.periods u.subscriptionId).upgrades
  | _ => true

end Barbershop
