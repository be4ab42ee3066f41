import Barbershop.Core.Money
import Barbershop.Lib.Machine
import Barbershop.Lib.Table
import Barbershop.Model.Db

/-!
# The memberships of a unit that closes

`cancelClientSubscriptionsOfBarbershops` works out what of each paid cycle will not be used, cancels
the memberships one by one at Stripe, and then gives the unused parts back. A cancellation that
fails ends the call, and the owner calls again.
-/

namespace Barbershop

open Lib

/-! ## Rows -/

/-- A `clientSubscription`, as closing a unit reads it. -/
structure ClubMembership where
  barbershopId : ℕ
  stripeSubscriptionId : String
  connectAccountId : Option String
  status : SubscriptionStatus
  usedThisCycle : ℕ
  sessionsPerCycle : Option ℕ
  cancelAtPeriodEnd : Bool

/-- A `clientSubscriptionPayment`, as closing a unit reads it. -/
structure ClubCyclePayment where
  subscriptionId : ℕ
  stripeInvoiceId : String
  createdAt : ℤ
  amount : ℚ
  refundedAmount : Option ℚ
  succeeded : Bool
  periodStart : Option ℤ
  periodEnd : Option ℤ

/-- What is to be given back of a cycle, with the payment as it was read. -/
structure UnusedClubCycle where
  subscriptionId : ℕ
  paymentId : ℕ
  refundedAmount : Option ℚ
  connected : Bool
  currency : String
  amount : ℚ
  deriving DecidableEq

inductive ClubRefundAnswer where
  | accepted
  /-- `charge_already_refunded` -/
  | alreadyRefunded
  /-- Any other error, of the invoice or of the refund. It is logged. -/
  | refused
  deriving DecidableEq

/-- A refund that was asked for, and Stripe's answer. -/
structure ClubRefund where
  subscriptionId : ℕ
  paymentId : ℕ
  amount : ℚ
  minorUnits : ℤ
  connected : Bool
  answer : ClubRefundAnswer
  deriving DecidableEq

/-- `createRefund` of an unused part. -/
def UnusedClubCycle.refund (r : UnusedClubCycle) (answer : ClubRefundAnswer) : ClubRefund where
  subscriptionId := r.subscriptionId
  paymentId := r.paymentId
  amount := r.amount
  minorUnits := toMinorUnits r.amount r.currency
  connected := r.connected
  answer := answer

inductive CancelAnswer where
  | accepted | resource_missing | failed
  deriving DecidableEq

structure ClubClosing where
  memberships : Table ClubMembership
  payments : Table ClubCyclePayment
  /-- The currencies of the units. -/
  currency : ℕ → String
  refunds : List ClubRefund
  /-- A call has completed. -/
  completed : Bool

/-- One call: its instant, the order in which `findMany` returns the memberships, and Stripe's
answers by membership and by payment. -/
structure ClosingCall where
  now : ℤ
  order : List ℕ
  cancel : ℕ → CancelAnswer
  refund : ℕ → ClubRefundAnswer

namespace ClubClosing

variable (s : ClubClosing)

/-! ## The unused cycles -/

/-- The latest paid payment of a membership whose period is not over. -/
def currentPayment (now : ℤ) (id : ℕ) : Option (ℕ × ClubCyclePayment) :=
  (s.payments.filter fun _ p => p.subscriptionId == id && p.succeeded &&
    p.periodEnd.any fun e => decide (now < e)).maxOn? fun row => row.2.createdAt

/-- The part of the cycle that is left: of its time or, with counted sessions, of its sessions if
that is less. -/
def unusedShare (now : ℤ) (m : ClubMembership) (periodStart periodEnd : ℤ) : ℚ :=
  let share : ℚ := min 1 ((periodEnd - now) / (periodEnd - periodStart))
  match m.sessionsPerCycle with
  | some sessions =>
    if 0 < sessions then min share (max 0 ((sessions : ℚ) - m.usedThisCycle) / sessions) else share
  | none => share

/-- What is to be given back of a membership's cycle. -/
def unusedCycle (now : ℤ) (id : ℕ) (m : ClubMembership) : Option UnusedClubCycle :=
  if m.status ≠ .active then none
  else (s.currentPayment now id).bind fun row =>
    let payment := row.2
    payment.periodStart.bind fun start => payment.periodEnd.bind fun periodEnd =>
      if periodEnd - start ≤ 0 then none
      else
        let left := payment.amount - payment.refundedAmount.getD 0
        let amount := round2 (min left (payment.amount * unusedShare now m start periodEnd))
        if amount ≤ 0 then none
        else some {
          subscriptionId := id
          paymentId := row.1
          refundedAmount := payment.refundedAmount
          connected := m.connectAccountId.isSome
          currency := s.currency m.barbershopId
          amount := amount }

def unusedClubCycles (shops : List ℕ) (now : ℤ) : List UnusedClubCycle :=
  (s.memberships.filter fun _ m => decide (m.barbershopId ∈ shops)).filterMap fun row =>
    s.unusedCycle now row.1 row.2

/-! ## The call -/

def cancelMembership (id : ℕ) : ClubClosing :=
  { s with
    memberships := s.memberships.modify id fun m =>
      { m with
        status := .canceled
        cancelAtPeriodEnd := false } }

/-- The loop over the memberships; `false` when an error leaves it. -/
def cancelEach (answer : ℕ → CancelAnswer) : List ℕ → ClubClosing → ClubClosing × Bool
  | [], s => (s, true)
  | id :: ids, s =>
    if answer id = .failed then (s, false) else cancelEach answer ids (s.cancelMembership id)

/-- Marks the refund first, and takes the mark back if Stripe refuses. -/
def refundUnusedClubCycle (answer : ℕ → ClubRefundAnswer) (s : ClubClosing) (r : UnusedClubCycle) :
    ClubClosing :=
  let after := round2 (r.refundedAmount.getD 0 + r.amount)
  match s.payments.tryModify r.paymentId (·.refundedAmount == r.refundedAmount)
    (fun p => { p with refundedAmount := some after }) with
  | none => s
  | some payments =>
    let refunds := s.refunds ++ [r.refund (answer r.paymentId)]
    match answer r.paymentId with
    | .accepted | .alreadyRefunded => { s with
        payments := payments
        refunds := refunds }
    | .refused => { s with
        payments := (payments.tryModify r.paymentId (·.refundedAmount == some after)
          (fun p => { p with refundedAmount := r.refundedAmount })).getD payments
        refunds := refunds }

/-- The memberships that the call has to cancel. -/
def openMemberships (shops : List ℕ) : List ℕ :=
  (s.memberships.filter fun _ m => decide (m.barbershopId ∈ shops) && m.status != .canceled).map
    Prod.fst

def cancelClientSubscriptionsOfBarbershops (shops : List ℕ) (c : ClosingCall) : ClubClosing :=
  let refunds := s.unusedClubCycles shops c.now
  match cancelEach c.cancel c.order s with
  | (s', false) => s'
  | (s', true) => { refunds.foldl (refundUnusedClubCycle c.refund) s' with completed := true }

end ClubClosing

namespace ClosingCall

variable (c : ClosingCall)

/-- The memberships that the call cancels: those before the first that fails. -/
def cancels : List ℕ := c.order.takeWhile fun id => c.cancel id != .failed

/-- A cancellation fails, and with it the call. -/
def fails : Bool := c.order.any fun id => c.cancel id == .failed

end ClosingCall

/-- Calls, one after another, until one completes. -/
def clubClosing (shops : List ℕ) : Machine ClubClosing ClosingCall where
  step s c :=
    if s.completed ∨ ¬ c.order.Perm (s.openMemberships shops) then none
    else some (s.cancelClientSubscriptionsOfBarbershops shops c)

/-! ## What is to be returned -/

namespace ClubClosing

variable (s : ClubClosing)

/-- What is to be given back of the membership under an id. -/
def unusedOf (now : ℤ) (id : ℕ) : Option UnusedClubCycle :=
  (s.memberships.get? id).bind (s.unusedCycle now id)

/-- The call that cancels a membership, and the state it begins in. -/
def cancelledIn (shops : List ℕ) (id : ℕ) :
    ClubClosing → List ClosingCall → Option (ClubClosing × ClosingCall)
  | _, [] => none
  | s, c :: cs =>
    if id ∈ c.cancels then some (s, c)
    else cancelledIn shops id (s.cancelClientSubscriptionsOfBarbershops shops c) cs

/-- What Stripe has given back of a payment. -/
def givenBack (paymentId : ℕ) : ℚ :=
  ((s.refunds.filter fun r => r.paymentId == paymentId && r.answer == .accepted).map
    (·.amount)).sum

/-- Before the first call; the amounts are in cents, and no more was refunded than was paid. -/
structure Opening : Prop where
  fresh : s.completed = false
  refunds : s.refunds = []
  cents : ∀ {id p}, s.payments.get? id = some p → IsCents p.amount ∧
    IsCents (p.refundedAmount.getD 0)
  paid : ∀ {id p}, s.payments.get? id = some p → p.refundedAmount.getD 0 ≤ p.amount

end ClubClosing

/-- After the calls `c :: cs`: each cycle that had an unused part at the first call was asked back
once, with what was unused at the call that cancelled it; no payment was given back beyond its
amount, and no membership is left. -/
structure CyclesReturned (shops : List ℕ) (s : ClubClosing) (c : ClosingCall)
    (cs : List ClosingCall) (s' : ClubClosing) : Prop where
  returned : ∀ r ∈ s.unusedClubCycles shops c.now, ∃ s₁ c₁,
    ClubClosing.cancelledIn shops r.subscriptionId s (c :: cs) = some (s₁, c₁) ∧
      s'.refunds.filter (·.subscriptionId == r.subscriptionId) =
        ((s₁.unusedOf c₁.now r.subscriptionId).map fun r =>
          r.refund (c₁.refund r.paymentId)).toList
  bounded : ∀ id p, s.payments.get? id = some p →
    p.refundedAmount.getD 0 + s'.givenBack id ≤ p.amount
  canceled : ∀ id m, s'.memberships.get? id = some m → m.barbershopId ∈ shops →
    m.status = .canceled

/-- A call that fails cancels no membership whose cycle has an unused part, of those that had one at
the first call. -/
def ClosingCall.keepsCycles (first : List UnusedClubCycle) (c : ClosingCall) (s : ClubClosing) :
    Bool :=
  !c.fails || c.cancels.all fun id =>
    !first.any (·.subscriptionId == id) || (s.unusedOf c.now id).isNone

end Barbershop
