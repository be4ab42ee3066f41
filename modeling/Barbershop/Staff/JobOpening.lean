import Barbershop.Payment.Stripe

/-!
# Job openings

A unit looks for people for a period (`JobOpeningService`). A professional applies, a manager accepts, and
who is accepted gets an invite (`EmployeeInviteService`). Accepting may cost a fee, paid by card before it:
`startAcceptPayment` opens an intent, `finalizeFee` claims the fee of a paid one and accepts, and gives the
fee back if the application cannot be accepted any more. Every hour `releaseUnjoinedApplications` takes the
place back from who did not join, and the fee goes back too.

A call is a program of the statements it waits for; `JobCall` says where it is. Only `acceptNow` takes a
lock, `job-opening:${id}`, around its count of the places.
-/

namespace Barbershop

open Lib

/-! ## Rows -/

/-- `open`, `filled` or `closed`. -/
inductive OpeningStatus where
  | opened | filled | closed
  deriving DecidableEq

inductive ApplicationStatus where
  | pending | accepted | rejected | withdrawn | expired
  deriving DecidableEq

inductive JobInviteStatus where
  | pending | accepted | expired | cancelled
  deriving DecidableEq

/-- The last day is a day of the unit's calendar. -/
structure JobOpening where
  barbershopId : ℕ
  endDate : ℕ
  slots : ℕ
  status : OpeningStatus

structure JobApplication where
  jobOpeningId : ℕ
  userId : ℕ
  status : ApplicationStatus
  inviteId : Option ℕ
  feeCents : Option ℕ
  feePaymentIntentId : Option ℕ
  feePayerUserId : Option ℕ
  feePaidAt : Option ℤ
  feeRefundedAt : Option ℤ
  joinedAt : Option ℤ
  returnedOnce : Bool

/-- An `EmployeeInvite`, to the e-mail of a user. -/
structure JobInvite where
  barbershopId : ℕ
  userId : ℕ
  status : JobInviteStatus
  expiresAt : ℤ

/-- An intent of kind `job_fill_fee`. Both refunds of a fee are of the whole charge, under the key
`job-fee-refund-${intent}`, so it is given back or not. -/
structure FeeIntent where
  amount : ℕ
  applicationId : ℕ
  status : IntentStatus
  refunded : Bool

structure JobBooks where
  now : ℤ
  /-- `currentPricing().jobFillFeeCents`; there is no fee if it is 0. -/
  feeCents : ℕ
  deleted : ℕ → Bool
  openings : Table JobOpening
  applications : Table JobApplication
  invites : Table JobInvite
  intents : Table FeeIntent
  /-- The openings whose lock is taken. -/
  held : ℕ → Bool

/-- Who manages a unit or works there, and its calendar. -/
structure JobSite where
  manages : ℕ → ℕ → Bool
  inTeam : ℕ → ℕ → Bool
  today : ℕ → ℤ → ℕ

/-- How long an invite can be accepted: 30 days, in milliseconds. -/
def inviteLasts : ℤ := 30 * 86400000

/-! ## Calls -/

/-- A `startAcceptPayment` that has read the fee. -/
structure FeeOrder where
  userId : ℕ
  applicationId : ℕ
  feeCents : ℕ

/-- An `acceptNow`, and the intent of the `finalizeFee` it belongs to. -/
structure Acceptance where
  userId : ℕ
  barbershopId : ℕ
  applicationId : ℕ
  fee : Option ℕ

/-- An accepted application and its opening as `releaseUnjoinedApplications` read them, and when. -/
structure JobRelease where
  applicationId : ℕ
  seen : JobApplication
  opening : JobOpening
  now : ℤ

/-- A `refundFee` of an application that was read, and the opening that opens again after it. -/
structure FeeRefund where
  applicationId : ℕ
  seen : JobApplication
  reopens : Option ℕ

/-- Where a call is. -/
inductive JobCall where
  | starting (userId barbershopId applicationId : ℕ)
  | retrieving (o : FeeOrder) (intentId : ℕ)
  | canceling (o : FeeOrder) (intentId : ℕ)
  | creating (o : FeeOrder)
  | recording (o : FeeOrder) (intentId : ℕ)
  /-- `confirmAcceptPayment`, before it asks Stripe. -/
  | confirming (intentId : ℕ)
  /-- `finalizeFee` of a succeeded intent. -/
  | finalizing (intentId : ℕ)
  | claimingFee (intentId barbershopId : ℕ) (seen : JobApplication)
  | deciding (q : Acceptance)
  | locking (q : Acceptance) (openingId slots : ℕ)
  | counting (q : Acceptance) (openingId slots places : ℕ)
  | taking (q : Acceptance) (openingId slots : ℕ)
  | inviting (q : Acceptance) (openingId slots : ℕ)
  | undoing (q : Acceptance)
  | linking (q : Acceptance) (openingId slots inviteId : ℕ)
  | recounting (openingId slots : ℕ)
  | filling (openingId : ℕ)
  /-- `rejectPending` -/
  | clearing (openingId : ℕ)
  | returning (intentId applicationId : ℕ)
  | forgetting (intentId applicationId : ℕ)
  /-- `close` -/
  | shutting (openingId : ℕ)
  /-- `apply` -/
  | applying (openingId userId : ℕ)
  | applyingAgain (applicationId : ℕ)
  /-- `releaseBatch` -/
  | checking (r : JobRelease)
  | judging (r : JobRelease) (invite : Option JobInvite)
  | joining (applicationId : ℕ)
  | expiring (r : JobRelease) (pendingInvite : Bool) (periodOver : Bool)
  | withdrawing (inviteId : Option ℕ) (r : FeeRefund)
  /-- `refundFee` -/
  | refunding (r : FeeRefund)
  | sending (r : FeeRefund) (intentId : ℕ)
  | unclaiming (r : FeeRefund)
  | reopening (openingId : ℕ)

/-- The call goes on where the acceptance is not to be. -/
def Acceptance.failed (q : Acceptance) : Option JobCall :=
  q.fee.map fun intentId => .returning intentId q.applicationId

def FeeRefund.done (r : FeeRefund) : Option JobCall := r.reopens.map .reopening

/-- The opening opens again if it was filled and its period is not over. -/
def JobRelease.refund (r : JobRelease) (periodOver : Bool) : FeeRefund where
  applicationId := r.applicationId
  seen := r.seen
  reopens :=
    if r.opening.status = .filled ∧ periodOver = false then some r.seen.jobOpeningId else none

/-- Whether who was accepted has let the time pass. -/
def JobRelease.lapsed (r : JobRelease) (periodOver : Bool) : Option JobInvite → Bool
  | none => true
  | some invite => invite.status != .pending || decide (invite.expiresAt < r.now) || periodOver

/-- Without its intent, no payment of it counts again. -/
def JobApplication.revoke (now : ℤ) (intentId : ℕ) (a : JobApplication) : JobApplication :=
  if a.feePaymentIntentId = some intentId ∧ a.feePaidAt.isSome = true ∧ a.feeRefundedAt = none then
    { a with
      feePaidAt := none
      feeRefundedAt := some now
      feePaymentIntentId := none }
  else a

namespace JobBooks

variable (s : JobBooks)

def setApplication (id : ℕ) (f : JobApplication → JobApplication) : JobBooks :=
  { s with applications := s.applications.modify id f }

def setOpening (id : ℕ) (status : OpeningStatus) : JobBooks :=
  { s with openings := s.openings.modify id fun o => { o with status := status } }

def setIntent (id : ℕ) (f : FeeIntent → FeeIntent) : JobBooks :=
  { s with intents := s.intents.modify id f }

/-- The lock of an opening is taken, or given back. -/
def hold (openingId : ℕ) (taken : Bool) : JobBooks :=
  { s with held := Function.update s.held openingId taken }

/-- Every pending application that satisfies `p` is answered. -/
def answerPending (p : JobApplication → Bool) (status : ApplicationStatus) : JobBooks :=
  { s with applications := s.applications.modifyAll fun _ a =>
      if a.status = .pending ∧ p a = true then { a with status := status } else a }

/-- How many have been accepted. -/
def accepted (openingId : ℕ) : ℕ :=
  (s.applications.filter fun _ a => a.jobOpeningId == openingId && a.status == .accepted).length

def succeeded (intentId : ℕ) : Bool := (s.intents.get? intentId).any (·.status == .succeeded)

/-- A refund of a paid intent, under its one key. -/
def giveBack (intentId : ℕ) : JobBooks :=
  s.setIntent intentId fun x => { x with refunded := x.status == .succeeded || x.refunded }

/-- `revokePlatformPurchase`, of a fee that was given back. -/
def revoke (intentId : ℕ) : JobBooks :=
  { s with applications := s.applications.modifyAll fun _ a => a.revoke s.now intentId }

/-- An application of a unit, with its opening. -/
def applicationOf (barbershopId applicationId : ℕ) : Option (JobApplication × JobOpening) :=
  (s.applications.get? applicationId).bind fun a =>
    ((s.openings.get? a.jobOpeningId).filter (·.barbershopId == barbershopId)).map fun o => (a, o)

/-- What `pendingApplication` and `acceptNow` ask of both. -/
def awaits (site : JobSite) (a : JobApplication) (o : JobOpening) : Bool :=
  a.status == .pending && o.status == .opened && decide (site.today o.barbershopId s.now ≤ o.endDate)

end JobBooks

def FeeOrder.intent (o : FeeOrder) : FeeIntent where
  amount := o.feeCents
  applicationId := o.applicationId
  status := .opened
  refunded := false

def newApplication (openingId userId : ℕ) : JobApplication where
  jobOpeningId := openingId
  userId := userId
  status := .pending
  inviteId := none
  feeCents := none
  feePaymentIntentId := none
  feePayerUserId := none
  feePaidAt := none
  feeRefundedAt := none
  joinedAt := none
  returnedOnce := false

namespace JobCall

/-- `granted`: whether Stripe carries out what it is asked for, and whether the plan of the unit and the
other checks of `createInvite` let the person in. `none`: the call waits for a lock. -/
def step (site : JobSite) (granted : Bool) (c : JobCall) (s : JobBooks) :
    Option (JobBooks × Option JobCall) :=
  match c with
  | starting userId barbershopId id =>
    match s.applicationOf barbershopId id with
    | none => some (s, none)
    | some (a, o) =>
      if s.awaits site a o && a.feePaidAt.isNone && granted then
        let order : FeeOrder := ⟨userId, id, s.feeCents⟩
        some (s, some (match a.feePaymentIntentId with
          | none => creating order
          | some intentId => retrieving order intentId))
      else some (s, none)
  | retrieving o intentId =>
    match s.intents.get? intentId with
    | none => some (s, none)
    | some x =>
      if x.status = .succeeded then some (s, some (finalizing intentId))
      else if x.status = .canceled then some (s, some (creating o))
      else if x.amount = o.feeCents then some (s, none)
      else some (s, some (canceling o intentId))
  | canceling o intentId =>
    -- an error of Stripe is swallowed
    some (if granted then s.setIntent intentId fun x =>
        { x with status := if x.status = .opened then .canceled else x.status }
      else s, some (creating o))
  | creating o =>
    if granted then
      some ({ s with intents := s.intents.insert o.intent }, some (recording o s.intents.next))
    else some (s, none)
  | recording o intentId =>
    some (s.setApplication o.applicationId fun a => { a with
      feePaymentIntentId := some intentId
      feeCents := some o.feeCents
      feePayerUserId := some o.userId }, none)
  | confirming intentId =>
    some (s, if s.succeeded intentId then some (finalizing intentId) else none)
  | finalizing intentId =>
    match s.intents.get? intentId with
    | none => some (s, none)
    | some x =>
      match s.applications.get? x.applicationId with
      | none => some (s, none)
      | some a =>
        match s.openings.get? a.jobOpeningId with
        | none => some (s, none)
        | some o =>
          if a.feePaymentIntentId = some intentId ∧ a.feePaidAt = none ∧
              a.feeCents.getD 0 ≤ x.amount then
            some (s, some (claimingFee intentId o.barbershopId a))
          else some (s, none)
  | claimingFee intentId barbershopId seen =>
    match s.intents.get? intentId with
    | none => some (s, none)
    | some x =>
      match s.applications.tryModify x.applicationId (·.feePaidAt.isNone) fun a =>
          { a with feePaidAt := some s.now } with
      | none => some (s, none)
      | some applications =>
        some ({ s with applications := applications }, some (match seen.feePayerUserId with
          | none => returning intentId x.applicationId
          | some userId => deciding ⟨userId, barbershopId, x.applicationId, some intentId⟩))
  | deciding q =>
    match s.applicationOf q.barbershopId q.applicationId with
    | none => some (s, q.failed)
    | some (a, o) =>
      if site.manages q.userId q.barbershopId && !s.deleted a.userId && s.awaits site a o then
        some (s, some (locking q a.jobOpeningId o.slots))
      else some (s, q.failed)
  | locking q openingId slots =>
    if s.held openingId then none
    else match s.openings.get? openingId with
      | none => some (s, q.failed)
      | some o =>
        if o.status = .opened then
          some (s.hold openingId true, some (counting q openingId slots o.slots))
        else some (s, q.failed)
  | counting q openingId slots places =>
    if s.accepted openingId < places then some (s, some (taking q openingId slots))
    else some (s.hold openingId false, q.failed)
  | taking q openingId slots =>
    match s.applications.tryModify q.applicationId (·.status == .pending) fun a =>
        { a with status := .accepted } with
    | none => some (s.hold openingId false, q.failed)
    | some applications =>
      some (({ s with applications := applications } : JobBooks).hold openingId false,
        some (inviting q openingId slots))
  | inviting q openingId slots =>
    match s.applications.get? q.applicationId with
    | none => some (s, some (undoing q))
    | some a =>
      let pendingInvite := s.invites.find? fun _ i => i.barbershopId == q.barbershopId &&
        i.userId == a.userId && i.status == .pending
      if granted && pendingInvite.all fun p => decide (p.2.expiresAt < s.now) then
        -- a lapsed invite gives way
        let invites := pendingInvite.elim s.invites fun p =>
          s.invites.modify p.1 fun i => { i with status := .expired }
        some ({ s with
            invites := invites.insert ⟨q.barbershopId, a.userId, .pending, s.now + inviteLasts⟩ },
          some (linking q openingId slots invites.next))
      else some (s, some (undoing q))
  | undoing q =>
    some (s.setApplication q.applicationId fun a => { a with status := .pending }, q.failed)
  | linking q openingId slots inviteId =>
    some (s.setApplication q.applicationId fun a => { a with inviteId := some inviteId },
      some (recounting openingId slots))
  | recounting openingId slots =>
    some (s, if slots ≤ s.accepted openingId then some (filling openingId) else none)
  | filling openingId => some (s.setOpening openingId .filled, some (clearing openingId))
  | clearing openingId =>
    some (s.answerPending (fun a => a.jobOpeningId == openingId) .rejected, none)
  | returning intentId id =>
    -- an error of Stripe is swallowed
    some (if granted then s.giveBack intentId else s, some (forgetting intentId id))
  | forgetting _ id =>
    some (s.setApplication id fun a => { a with
      feeRefundedAt := some s.now
      feePaidAt := none
      feePaymentIntentId := none }, none)
  | shutting openingId =>
    some ((s.setOpening openingId .closed).answerPending (fun a => a.jobOpeningId == openingId)
      .rejected, none)
  | applying openingId userId =>
    if s.applications.any fun _ a => a.jobOpeningId == openingId && a.userId == userId then
      some (s, none)
    else some ({ s with applications := s.applications.insert (newApplication openingId userId) }, none)
  | applyingAgain id =>
    some (s.setApplication id fun a => { a with status := .pending, returnedOnce := true }, none)
  | checking r => some (s, some (judging r (r.seen.inviteId.bind s.invites.get?)))
  | judging r invite =>
    let periodOver := decide (r.opening.endDate < site.today r.opening.barbershopId s.now)
    if invite.any (·.status == .accepted) then some (s, some (joining r.applicationId))
    else if r.lapsed periodOver invite then
      some (s, some (expiring r (invite.any (·.status == .pending)) periodOver))
    else some (s, none)
  | joining id =>
    some (s.setApplication id fun a => { a with joinedAt := a.joinedAt.or (some s.now) }, none)
  | expiring r pendingInvite periodOver =>
    match s.applications.tryModify r.applicationId (·.status == .accepted) fun a =>
        { a with status := .expired } with
    | none => some (s, none)
    | some applications =>
      let refund := r.refund periodOver
      some ({ s with applications := applications },
        some (if pendingInvite then withdrawing r.seen.inviteId refund else refunding refund))
  | withdrawing inviteId r =>
    some ({ s with invites := inviteId.elim s.invites fun id => s.invites.modify id fun i =>
      { i with status := if i.status = .pending then .expired else i.status } }, some (refunding r))
  | refunding r =>
    match r.seen.feePaymentIntentId with
    | none => some (s, r.done)
    | some intentId =>
      if r.seen.feePaidAt.isSome && r.seen.feeRefundedAt.isNone then
        match s.applications.tryModify r.applicationId (·.feeRefundedAt.isNone) fun a =>
            { a with feeRefundedAt := some s.now } with
        | none => some (s, r.done)
        | some applications => some ({ s with applications := applications }, some (sending r intentId))
      else some (s, r.done)
  | sending r intentId =>
    if granted then some (s.giveBack intentId, r.done) else some (s, some (unclaiming r))
  | unclaiming r =>
    some (s.setApplication r.applicationId fun a => { a with feeRefundedAt := none }, r.done)
  | reopening openingId =>
    some ({ s with openings := s.openings.modify openingId fun o =>
      { o with status := if o.status = .filled then .opened else o.status } }, none)

end JobCall

/-! ## Events -/

inductive JobEvent where
  | create (userId barbershopId slots endDate : ℕ)
  | startAcceptPayment (userId barbershopId applicationId : ℕ)
  | confirmAcceptPayment (userId barbershopId applicationId : ℕ)
  | accept (userId barbershopId applicationId : ℕ)
  | reject (userId barbershopId applicationId : ℕ)
  | close (userId barbershopId openingId : ℕ)
  | apply (userId openingId : ℕ)
  | withdraw (userId applicationId : ℕ)
  /-- The person joins, `acceptInvite` or `acceptInviteAsUser`. -/
  | acceptInvite (inviteId : ℕ)
  /-- `resendInvite` -/
  | reissue (inviteId : ℕ)
  | deleteAccount (userId : ℕ)
  /-- `releaseUnjoinedApplications`, for one application. -/
  | release (applicationId : ℕ)
  | retryFailedRefunds (applicationId : ℕ)
  | closeEnded (openingId : ℕ)
  /-- `closeOpeningsOfBarbershop`, for one opening. -/
  | closeOfBarbershop (openingId : ℕ)
  | approve (intentId : ℕ)
  /-- Stripe delivers `payment_intent.succeeded`, any number of times. -/
  | deliver (intentId : ℕ)
  /-- A whole charge goes back by the panel of Stripe, or a dispute over it is lost. -/
  | refundOutside (intentId : ℕ)
  /-- Stripe tells that a whole charge went back, any number of times. -/
  | revokePlatformPurchase (intentId : ℕ)
  | setFee (feeCents : ℕ)
  | pass (time : ℕ)

namespace JobEvent

/-- The opening closes if it is open, and the pending applications are answered after it. -/
def closing (s : JobBooks) (openingId : ℕ) (ends : JobOpening → Bool) :
    Option (JobBooks × Option JobCall) :=
  ((s.openings.get? openingId).filter fun o => o.status == .opened && ends o).map fun _ =>
    (s.setOpening openingId .closed, some (.clearing openingId))

/-- `none`: what does not happen. -/
def begin (site : JobSite) (e : JobEvent) (s : JobBooks) : Option (JobBooks × Option JobCall) :=
  match e with
  | create userId barbershopId slots endDate =>
    if site.manages userId barbershopId ∧ 1 ≤ slots ∧ slots ≤ 10 ∧
        site.today barbershopId s.now ≤ endDate then
      some ({ s with openings := s.openings.insert ⟨barbershopId, endDate, slots, .opened⟩ }, none)
    else none
  | startAcceptPayment userId barbershopId id =>
    if site.manages userId barbershopId ∧ 0 < s.feeCents then
      some (s, some (.starting userId barbershopId id))
    else none
  | confirmAcceptPayment userId barbershopId id =>
    if site.manages userId barbershopId then
      some (s, ((s.applicationOf barbershopId id).bind (·.1.feePaymentIntentId)).map .confirming)
    else none
  | accept userId barbershopId id =>
    if site.manages userId barbershopId ∧
        (s.feeCents = 0 ∨ (s.applications.get? id).any (·.feePaidAt.isSome) = true) then
      some (s, some (.deciding ⟨userId, barbershopId, id, none⟩))
    else none
  | reject userId barbershopId id =>
    if site.manages userId barbershopId ∧ (s.applicationOf barbershopId id).isSome then
      some (s.setApplication id fun a =>
        { a with status := if a.status = .pending then .rejected else a.status }, none)
    else none
  | close userId barbershopId id =>
    if site.manages userId barbershopId ∧ (s.openings.get? id).any (fun o =>
        o.barbershopId == barbershopId && o.status != .closed) = true then
      some (s, some (.shutting id))
    else none
  | apply userId openingId =>
    match s.openings.get? openingId with
    | none => none
    | some o =>
      if o.status = .opened ∧ site.today o.barbershopId s.now ≤ o.endDate ∧
          site.inTeam userId o.barbershopId = false then
        match s.applications.find? fun _ a => a.jobOpeningId == openingId && a.userId == userId with
        | none => some (s, some (.applying openingId userId))
        | some (id, a) =>
          if a.status = .withdrawn ∧ a.returnedOnce = false then some (s, some (.applyingAgain id))
          else none
      else none
  | withdraw userId id =>
    some (s.setApplication id fun a => { a with
      status := if a.status = .pending ∧ a.userId = userId then .withdrawn else a.status }, none)
  | acceptInvite id =>
    (s.invites.tryModify id (fun i => i.status == .pending && decide (s.now ≤ i.expiresAt)) fun i =>
      { i with status := .accepted }).map fun invites => ({ s with invites := invites }, none)
  | reissue id =>
    (s.invites.tryModify id (·.status == .pending) fun i =>
      { i with expiresAt := s.now + inviteLasts }).map fun invites =>
        ({ s with invites := invites }, none)
  | deleteAccount userId =>
    let answered := s.answerPending (fun a => a.userId == userId) .withdrawn
    some ({ answered with
      deleted := Function.update s.deleted userId true
      invites := s.invites.modifyAll fun _ i => { i with
        status := if i.userId = userId ∧ i.status = .pending then .cancelled else i.status } }, none)
  | release id =>
    match s.applications.get? id with
    | none => none
    | some a =>
      if a.status = .accepted ∧ a.joinedAt = none then
        (s.openings.get? a.jobOpeningId).map fun o => (s, some (.checking ⟨id, a, o, s.now⟩))
      else none
  | retryFailedRefunds id =>
    ((s.applications.get? id).filter fun a => a.status == .expired && a.feePaidAt.isSome &&
      a.feeRefundedAt.isNone && a.feePaymentIntentId.isSome).map fun a =>
        (s, some (.refunding ⟨id, a, none⟩))
  | closeEnded id =>
    closing s id fun o => decide (o.endDate < site.today o.barbershopId s.now)
  | closeOfBarbershop id => closing s id fun _ => true
  | approve id =>
    (s.intents.tryModify id (·.status == .opened) fun x =>
      { x with status := .succeeded }).map fun intents => ({ s with intents := intents }, none)
  | deliver id => if s.succeeded id then some (s, some (.finalizing id)) else none
  | refundOutside id => if s.succeeded id then some (s.giveBack id, none) else none
  | revokePlatformPurchase id =>
    if (s.intents.get? id).any (·.refunded) then some (s.revoke id, none) else none
  | setFee feeCents => some ({ s with feeCents := feeCents }, none)
  | pass time => some ({ s with now := s.now + time }, none)

end JobEvent

/-- Any number of managers, tabs, candidates and routines at once. -/
def jobCalls (site : JobSite) : CallSystem JobBooks JobCall JobEvent Bool where
  event e s := e.begin site s
  step k c s := c.step site k s

end Barbershop
