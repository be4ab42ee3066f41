import Barbershop.Platform.FriendInvite

/-!
# Approvals of the staff

What cannot be undone is asked for by one and confirmed by another. `decide` confirms and executes;
the API of the backoffice confirms as well, marks the request as executing and sends a job, which
`executeConfirmed` may see any number of times. A direct e-mail to many is not asked for while the
recipients of a day stay below a limit.

Every statement is a step. What an execution does is not modelled: it is counted when it begins, and
it succeeds or fails. A call may be cut off at any point; a transaction is then rolled back.
-/

namespace Barbershop

open Lib

/-! ## Rows -/

def MASS_EMAIL_LIMIT : ℕ := 1000

def MASS_EMAIL_WINDOW_MS : ℤ := 24 * 60 * 60000

def APPROVAL_TTL_MS : ℤ := 7 * 24 * 60 * 60 * 1000

def TEAM_ROLES : List String := ["SystemAdmin", "SystemManager"]

structure StaffActor where
  id : ℕ
  email : EmailText
  role : String
  admin : Bool

structure StaffUser where
  email : EmailText
  isActive : Bool
  deleted : Bool
  role : String

inductive ApprovalPayload where
  | userDelete (userId : ℕ)
  | paymentRefund (kind : String) (id : ℕ) (amount : Option ℚ) (reason : String)
  | emailMass (userIds : List ℕ) (subject message : String)

/-- `sameApprovalTarget`; the recipients of an e-mail in any order. -/
def ApprovalPayload.sameTarget : ApprovalPayload → ApprovalPayload → Bool
  | userDelete userId, userDelete userId' => userId == userId'
  | paymentRefund kind id _ _, paymentRefund kind' id' _ _ => kind == kind' && id == id'
  | emailMass userIds subject _, emailMass userIds' subject' _ =>
    userIds.isPerm userIds' && subject == subject'
  | _, _ => false

inductive ApprovalStatus where
  | pending | executing | executed | failed | rejected | cancelled | expired
  deriving DecidableEq

/-- Who confirmed a request, and when it was looked at for that. -/
structure Confirmation where
  email : EmailText
  admin : Bool
  seenAt : ℤ
  /-- By the API of the backoffice. -/
  byApi : Bool

/-- `confirmation`, `executions` and the statuses it `went` through are kept beside the columns. -/
structure Approval where
  createdAt : ℤ
  payload : ApprovalPayload
  summary : List Char
  reason : List Char
  status : ApprovalStatus
  requestedById : Option ℕ
  requestedByEmail : EmailText
  requestedByRole : String
  decidedById : Option ℕ
  decidedByEmail : Option EmailText
  decidedAt : Option ℤ
  decisionNote : Option (List Char)
  error : Option (List Char)
  confirmation : Option Confirmation
  executions : ℕ
  went : List ApprovalStatus

structure EmailSend where
  createdAt : ℤ
  requestedByEmail : EmailText
  recipients : ℕ

/-- `sending` says whose advisory locks are taken. -/
structure Board where
  now : ℤ
  users : Table StaffUser
  approvals : Table Approval
  sends : Table EmailSend
  sending : EmailText → Bool

def Approval.move (status : ApprovalStatus) (x : Approval) : Approval :=
  { x with
    status := status
    went := x.went ++ [status] }

/-- An id that is there. -/
def StaffActor.idOrNull (actor : StaffActor) : Option ℕ :=
  if actor.id = 0 then none else some actor.id

def Approval.decided (actor : StaffActor) (now : ℤ) (note : Option (List Char)) (x : Approval) :
    Approval :=
  { x with
    decidedById := actor.idOrNull
    decidedByEmail := some actor.email
    decidedAt := some now
    decisionNote := note }

namespace Board

variable (s : Board)

/-- `requesterOnTeam` -/
def requesterOnTeam (userId : Option ℕ) (email : EmailText) : Bool :=
  let who := match userId with
    | some id => s.users.get? id
    | none => (s.users.find? fun _ u => lowerCase u.email == lowerCase email).map Prod.snd
  who.all fun u => u.isActive && !u.deleted && TEAM_ROLES.contains u.role

/-- A row that is still in a status is written; `none`: it is not. -/
def claim (id : ℕ) (status : ApprovalStatus) (f : Approval → Approval) : Option Board :=
  (s.approvals.tryModify id (fun x => x.status == status) f).map fun t => { s with approvals := t }

def write (id : ℕ) (f : Approval → Approval) : Board :=
  { s with approvals := s.approvals.modify id f }

/-- `expireStale` -/
def expireStale : Board :=
  { s with approvals := s.approvals.modifyAll fun _ x =>
      if x.status = .pending ∧ x.createdAt < s.now - APPROVAL_TTL_MS then { x.move .expired with
        decidedAt := some s.now }
      else x }

/-- The recipients of the sends of an actor from an instant on. -/
def sentSince (email : EmailText) (since : ℤ) : ℕ :=
  s.sends.sum fun _ r => if r.requestedByEmail = email ∧ since ≤ r.createdAt then r.recipients else 0

def unlock (email : EmailText) : Board := { s with sending := Function.update s.sending email false }

end Board

/-! ## Calls -/

/-- Where a call is. -/
inductive StaffCall where
  /-- `request`, before `expireStale`. -/
  | asking (payload : ApprovalPayload) (summary reason : List Char) (actor : StaffActor)
  | comparing (payload : ApprovalPayload) (summary reason : List Char) (actor : StaffActor)
  | filing (payload : ApprovalPayload) (summary reason : List Char) (actor : StaffActor)
  /-- `decide`, before its read. -/
  | deciding (id : ℕ) (approve : Bool) (note : Option (List Char)) (actor : StaffActor)
  | expiring (id : ℕ)
  | vetting (id : ℕ) (approve : Bool) (note : Option (List Char)) (actor : StaffActor) (seenAt : ℤ)
      (requestedById : Option ℕ) (requestedByEmail : EmailText)
  | claiming (id : ℕ) (approve : Bool) (note : Option (List Char)) (actor : StaffActor) (seenAt : ℤ)
  | executing (id : ℕ)
  | recording (id : ℕ)
  /-- `cancel`, before its read. -/
  | withdrawing (id : ℕ) (actor : StaffActor)
  | cancelling (id : ℕ) (actor : StaffActor)
  /-- `executeConfirmed`, before its read. -/
  | fetching (id : ℕ)
  | taking (id : ℕ)
  | running (id : ℕ)
  | reporting (id : ℕ)
  /-- `reserveDirectEmail`, begun at an instant. -/
  | locking (email : EmailText) (recipients : ℕ) (begun : ℤ)
  | summing (email : EmailText) (recipients : ℕ) (begun : ℤ)
  | noting (email : EmailText) (recipients : ℕ) (begun : ℤ)

/-- How a step goes: an execution ends well or fails, the row of a send is stamped by a clock
between the begin of its request and now, or the call is cut off. -/
inductive StaffStep where
  | next
  | failed (message : List Char)
  | stamped (createdAt : ℤ)
  | cut
  deriving DecidableEq

def trimmedNote (note : Option (List Char)) : Option (List Char) :=
  (note.map fun text => (trimmed text).take 1000).filter fun text => !text.isEmpty

def Board.newApproval (s : Board) (payload : ApprovalPayload) (summary reason : List Char)
    (actor : StaffActor) : Approval where
  createdAt := s.now
  payload := payload
  summary := summary.take 300
  reason := (trimmed reason).take 1000
  status := .pending
  requestedById := actor.idOrNull
  requestedByEmail := actor.email
  requestedByRole := actor.role
  decidedById := none
  decidedByEmail := none
  decidedAt := none
  decisionNote := none
  error := none
  confirmation := none
  executions := 0
  went := [.pending]

namespace StaffCall

/-- The read of `decide`. -/
def read (s : Board) (id : ℕ) (approve : Bool) (note : Option (List Char)) (actor : StaffActor) :
    Result StaffCall := do
  refuseIf (actor.admin = false) (.forbidden "Só um Administrador confirma")
  let row ← orRefuse (s.approvals.get? id) (.notFound "Pedido não encontrado")
  refuseIf (row.status ≠ .pending) (.badRequest "Este pedido já foi decidido")
  refuseIf (lowerCase row.requestedByEmail = lowerCase actor.email)
    (.forbidden "Quem pediu não confirma o próprio pedido")
  return if row.createdAt < s.now - APPROVAL_TTL_MS then expiring id
    else vetting id approve note actor s.now row.requestedById row.requestedByEmail

/-- The read of `cancel`. -/
def readOwn (s : Board) (id : ℕ) (actor : StaffActor) : Result StaffCall := do
  let row ← orRefuse (s.approvals.get? id) (.notFound "Pedido não encontrado")
  refuseIf (lowerCase row.requestedByEmail ≠ lowerCase actor.email)
    (.forbidden "Só quem pediu cancela o próprio pedido.")
  return cancelling id actor

/-- The decision of `decide`, on a row that is pending. -/
def decision (s : Board) (approve : Bool) (note : Option (List Char)) (actor : StaffActor)
    (seenAt : ℤ) (x : Approval) : Approval :=
  let row := x.decided actor s.now (trimmedNote note)
  if approve then { row.move .executing with
    confirmation := some {
      email := actor.email
      admin := actor.admin
      seenAt := seenAt
      byApi := false } }
  else row.move .rejected

def rollback (c : StaffCall) (s : Board) : Board :=
  match c with
  | summing email _ _ | noting email _ _ => s.unlock email
  | _ => s

/-- A step that goes on. -/
def next (c : StaffCall) (s : Board) : Option (Board × Option StaffCall) :=
  match c with
  | asking payload summary reason actor =>
    some (s.expireStale, some (comparing payload summary reason actor))
  | comparing payload summary reason actor =>
    if s.approvals.any fun _ x => x.status == .pending && payload.sameTarget x.payload then
      some (s, none)
    else some (s, some (filing payload summary reason actor))
  | filing payload summary reason actor =>
    some ({ s with approvals := s.approvals.insert (s.newApproval payload summary reason actor) },
      none)
  | deciding id approve note actor => some (s, (read s id approve note actor).toOption)
  | expiring id =>
    some ((s.claim id .pending fun x => { x.move .expired with
      decidedAt := some s.now }).getD s, none)
  | vetting id approve note actor seenAt requestedById requestedByEmail =>
    if s.requesterOnTeam requestedById requestedByEmail then
      some (s, some (claiming id approve note actor seenAt))
    else some (s, none)
  | claiming id approve note actor seenAt =>
    match s.claim id .pending (decision s approve note actor seenAt) with
    | none => some (s, none)
    | some s' => some (s', if approve then some (executing id) else none)
  | executing id =>
    some (s.write id fun x => { x with executions := x.executions + 1 }, some (recording id))
  | recording id => some (s.write id fun x => x.move .executed, none)
  | withdrawing id actor => some (s, (readOwn s id actor).toOption)
  | cancelling id actor =>
    some ((s.claim id .pending fun x => (x.decided actor s.now
      (some "Cancelado por quem pediu.".toList)).move .cancelled).getD s, none)
  | fetching id =>
    if (s.approvals.get? id).any (·.status == .executing) then some (s, some (taking id))
    else some (s, none)
  | taking id =>
    match s.claim id .executing (·.move .executed) with
    | none => some (s, none)
    | some s' => some (s', some (running id))
  | running id =>
    some (s.write id fun x => { x with executions := x.executions + 1 }, some (reporting id))
  | reporting _ => some (s, none)
  | locking email recipients begun =>
    if s.sending email then none
    else some ({ s with sending := Function.update s.sending email true },
      some (summing email recipients begun))
  | summing email recipients begun =>
    if MASS_EMAIL_LIMIT < s.sentSince email (begun - MASS_EMAIL_WINDOW_MS) + recipients then
      some (s.unlock email, none)
    else some (s, some (noting email recipients begun))
  | noting .. => none

/-- `none`: the step is not one of this call, or waits for a lock. -/
def step (k : StaffStep) (c : StaffCall) (s : Board) : Option (Board × Option StaffCall) :=
  match k, c with
  | .cut, c => some (c.rollback s, none)
  | .next, c => c.next s
  | .failed message, recording id | .failed message, reporting id =>
    some (s.write id fun x => { x.move .failed with error := some (message.take 500) }, none)
  | .stamped createdAt, noting email recipients begun =>
    if begun ≤ createdAt ∧ createdAt ≤ s.now then
      some ({ s.unlock email with
        sends := s.sends.insert {
          createdAt := createdAt
          requestedByEmail := email
          recipients := recipients } }, none)
    else none
  | _, _ => none

end StaffCall

inductive StaffEvent where
  | request (payload : ApprovalPayload) (summary reason : List Char) (actor : StaffActor)
  | decide (id : ℕ) (approve : Bool) (note : Option (List Char)) (actor : StaffActor)
  | cancel (id : ℕ) (actor : StaffActor)
  | executeConfirmed (id : ℕ)
  /-- The API of the backoffice confirms, by the rules of `decide`. -/
  | confirmByApi (id : ℕ) (actor : StaffActor)
  | reserveDirectEmail (actor : StaffActor) (recipients : ℕ)
  | releaseDirectEmail (id : ℕ)
  | addUser (u : StaffUser)
  | editUser (id : ℕ) (u : StaffUser)
  | pass (time : ℕ)

/-- The API finds the request pending and in time, and the actor an administrator and another. -/
def Board.confirmedByApi (s : Board) (id : ℕ) (actor : StaffActor) : Board :=
  { s with approvals := s.approvals.modify id fun x =>
      if x.status = .pending ∧ actor.admin = true ∧
          lowerCase x.requestedByEmail ≠ lowerCase actor.email ∧
          s.now - APPROVAL_TTL_MS ≤ x.createdAt then
        { (x.decided actor s.now none).move .executing with
          confirmation := some {
            email := actor.email
            admin := true
            seenAt := s.now
            byApi := true } }
      else x }

def StaffEvent.begin (e : StaffEvent) (s : Board) : Board × Option StaffCall :=
  match e with
  | request payload summary reason actor =>
    (s, if (trimmed reason).length < 5 then none else some (.asking payload summary reason actor))
  | decide id approve note actor => (s, some (.deciding id approve note actor))
  | cancel id actor => (s, some (.withdrawing id actor))
  | executeConfirmed id => (s, some (.fetching id))
  | confirmByApi id actor => (s.confirmedByApi id actor, none)
  | reserveDirectEmail actor recipients =>
    (s, if MASS_EMAIL_LIMIT < recipients then none
      else some (.locking actor.email recipients s.now))
  | releaseDirectEmail id => ({ s with sends := s.sends.eraseAll fun j _ => j == id }, none)
  | addUser u => ({ s with users := s.users.insert u }, none)
  | editUser id u => ({ s with users := s.users.modify id fun _ => u }, none)
  | pass time => ({ s with now := s.now + time }, none)

/-- Any requests and jobs at once. -/
def staffCalls : CallSystem Board StaffCall StaffEvent StaffStep where
  event e s := some (e.begin s)
  step k c s := c.step k s

/-! ## The law -/

/-- The moves of a status; a job marks what it is about to execute as executed, and then as failed
if it fails. -/
inductive ApprovalStatus.Moves : ApprovalStatus → ApprovalStatus → Prop where
  | confirm : Moves pending executing
  | reject : Moves pending rejected
  | cancel : Moves pending cancelled
  | expire : Moves pending expired
  | execute : Moves executing executed
  | fail : Moves executing failed
  | report : Moves executed failed

/-- An administrator with another e-mail found the request pending, within its time, and
confirmed. -/
def Approval.Confirmed (x : Approval) : Prop :=
  ∃ c, x.confirmation = some c ∧ c.admin = true ∧
    lowerCase c.email ≠ lowerCase x.requestedByEmail ∧ c.seenAt ≤ x.createdAt + APPROVAL_TTL_MS

structure Approval.Lawful (x : Approval) : Prop where
  once : x.executions ≤ 1
  confirmed : 0 < x.executions → x.Confirmed ∧ [.pending, .executing] <+: x.went
  went : x.went.IsChain ApprovalStatus.Moves
  status : x.went.getLast? = some x.status

/-- The recipients of the sends of an actor that were made within a window. -/
def Board.sentIn (s : Board) (email : EmailText) (start : ℤ) : ℕ :=
  s.sends.sum fun _ r => if r.requestedByEmail = email ∧ start ≤ r.createdAt ∧
    r.createdAt ≤ start + MASS_EMAIL_WINDOW_MS then r.recipients else 0

def Board.WindowLaw (s : Board) : Prop :=
  ∀ email start, s.sentIn email start ≤ MASS_EMAIL_LIMIT

def Board.ApprovalLaw (s : Board) : Prop := ∀ {id x}, s.approvals.get? id = some x → x.Lawful

/-- A job comes to execute a request only if the API has confirmed it. -/
def StaffCall.ofApi (c : StaffCall) (s : Board) : Bool :=
  match c with
  | taking id => (s.approvals.get? id).all fun x =>
    x.status != .executing || x.confirmation.any (·.byApi)
  | _ => true

/-! ## The invariant -/

/-- A request that may be executed, or was. -/
def ApprovalStatus.confirmed : ApprovalStatus → Bool
  | executing | executed | failed => true
  | _ => false

/-- A row as the calls leave it. -/
structure Approval.Good (x : Approval) : Prop where
  once : x.executions ≤ 1
  confirmed : x.status.confirmed = true → x.Confirmed ∧ [.pending, .executing] <+: x.went
  unconfirmed : x.status.confirmed = false → x.executions = 0
  /-- What waits for its job is not executed yet. -/
  waits : x.status = .executing → x.confirmation.any (·.byApi) = true → x.executions = 0
  pending : x.status = .pending → x.went = [.pending]
  went : x.went.IsChain ApprovalStatus.Moves
  status : x.went.getLast? = some x.status

theorem Approval.Good.lawful {x : Approval} (h : x.Good) : x.Lawful where
  once := h.once
  confirmed hrun := by
    cases hstatus : x.status.confirmed with
    | true => exact h.confirmed hstatus
    | false =>
      rw [h.unconfirmed hstatus] at hrun
      cases hrun
  went := h.went
  status := h.status

/-- A row that a call executes: `decide` keeps it as executing, a job as executed. -/
def Approval.held (x : Approval) : Bool :=
  match x.status with
  | .executing => !x.confirmation.any (·.byApi)
  | .executed => true
  | _ => false

structure Board.Sound (s : Board) : Prop where
  rows : ∀ {id x}, s.approvals.get? id = some x → x.Good

namespace StaffCall

/-- The request that a call executes. -/
def holds : StaffCall → Option ℕ
  | executing id | recording id | running id | reporting id => some id
  | _ => none

/-- An actor may confirm a request: found in time, and of another. -/
def MayConfirm (s : Board) (id : ℕ) (actor : StaffActor) (seenAt : ℤ) : Prop :=
  actor.admin = true ∧ ∃ x, s.approvals.get? id = some x ∧
    lowerCase actor.email ≠ lowerCase x.requestedByEmail ∧ seenAt ≤ x.createdAt + APPROVAL_TTL_MS

/-- What a call knows of the request. -/
def Known (s : Board) : StaffCall → Prop
  | vetting id _ _ actor seenAt _ _ => MayConfirm s id actor seenAt
  | claiming id _ _ actor seenAt => MayConfirm s id actor seenAt
  | executing id => ∃ x, s.approvals.get? id = some x ∧ x.held = true ∧ x.status = .executing ∧
    x.executions = 0
  | recording id => ∃ x, s.approvals.get? id = some x ∧ x.held = true ∧ x.status = .executing
  | running id => ∃ x, s.approvals.get? id = some x ∧ x.held = true ∧ x.status = .executed ∧
    x.executions = 0
  | reporting id => ∃ x, s.approvals.get? id = some x ∧ x.held = true ∧ x.status = .executed
  | _ => True

end StaffCall

def staffInv : CallInv Board StaffCall ℕ where
  weight _ := 0
  whole s _ := s.Sound
  each s c := c.Known s
  pair c d := ∀ i ∈ c.holds, ∀ j ∈ d.holds, i ≠ j
  symm h i hi j hj := (h j hj i hi).symm

/-! ## What a step leaves to the others -/

section Moves

variable {s s' : Board} {mine : Option ℕ}

/-- What stays of a row for the calls that do not execute it. -/
structure Approval.Stays (x y : Approval) : Prop where
  createdAt : y.createdAt = x.createdAt
  requestedByEmail : y.requestedByEmail = x.requestedByEmail
  held : x.held = true → y = x

theorem Approval.Stays.refl (x : Approval) : x.Stays x := ⟨rfl, rfl, fun _ => rfl⟩

/-- A step of a call that executes `mine` at most. -/
structure Board.Frame (s s' : Board) (mine : Option ℕ) : Prop where
  rows : ∀ {id x}, s.approvals.get? id = some x → ∃ y, s'.approvals.get? id = some y ∧
    y.createdAt = x.createdAt ∧ y.requestedByEmail = x.requestedByEmail ∧
      (mine ≠ some id → x.held = true → y = x)

namespace Board.Frame

theorem same (h : s'.approvals = s.approvals) : s.Frame s' none :=
  ⟨fun hx => ⟨_, by rwa [h], rfl, rfl, fun _ _ => rfl⟩⟩

/-- Rows are written that nobody else executes. -/
theorem rewrite (hrows : s.approvals.Lasts Approval.Stays s'.approvals) : s.Frame s' none := by
  refine ⟨fun hx => ?_⟩
  obtain ⟨y, hy, hstays⟩ := hrows hx
  exact ⟨y, hy, hstays.createdAt, hstays.requestedByEmail, fun _ => hstays.held⟩

/-- The row that a call executes is written. -/
theorem write {id : ℕ} {f : Approval → Approval}
    (hf : ∀ x, (f x).createdAt = x.createdAt ∧ (f x).requestedByEmail = x.requestedByEmail) :
    s.Frame (s.write id f) (some id) := by
  refine ⟨fun {j x} hx => ?_⟩
  by_cases hj : j = id
  · subst hj
    refine ⟨f x, ?_, (hf x).1, (hf x).2, fun h => absurd rfl h⟩
    rw [Board.write, Table.get?_modify, if_pos rfl, hx, Option.map_some]
  · exact ⟨x, (Table.get?_modify_of_ne _ _ hj).trans hx, rfl, rfl, fun _ _ => rfl⟩

end Board.Frame

theorem StaffCall.MayConfirm.frame {id : ℕ} {actor : StaffActor} {seenAt : ℤ}
    (h : MayConfirm s id actor seenAt) (hframe : s.Frame s' mine) :
    MayConfirm s' id actor seenAt := by
  obtain ⟨hadmin, x, hx, hother, hseen⟩ := h
  obtain ⟨y, hy, hcreated, hemail, -⟩ := hframe.rows hx
  exact ⟨hadmin, y, hy, by rwa [hemail], by rwa [hcreated]⟩

/-- What a call knows lasts through the steps of those that execute another request. -/
theorem StaffCall.Known.frame {c : StaffCall} (h : c.Known s) (hframe : s.Frame s' mine)
    (hmine : ∀ id ∈ c.holds, mine ≠ some id) : c.Known s' := by
  have hrow : ∀ {id x}, c.holds = some id → s.approvals.get? id = some x → x.held = true →
      s'.approvals.get? id = some x := by
    intro id x hid hx hheld
    obtain ⟨y, hy, -, -, hsame⟩ := hframe.rows hx
    rwa [hsame (hmine id hid) hheld] at hy
  cases c with
  | vetting id approve note actor seenAt userId email => exact MayConfirm.frame h hframe
  | claiming id approve note actor seenAt => exact MayConfirm.frame h hframe
  | executing id =>
    obtain ⟨x, hx, hheld, hrest⟩ := h
    exact ⟨x, hrow rfl hx hheld, hheld, hrest⟩
  | recording id =>
    obtain ⟨x, hx, hheld, hrest⟩ := h
    exact ⟨x, hrow rfl hx hheld, hheld, hrest⟩
  | running id =>
    obtain ⟨x, hx, hheld, hrest⟩ := h
    exact ⟨x, hrow rfl hx hheld, hheld, hrest⟩
  | reporting id =>
    obtain ⟨x, hx, hheld, hrest⟩ := h
    exact ⟨x, hrow rfl hx hheld, hheld, hrest⟩
  | asking | comparing | filing | deciding | expiring | withdrawing | cancelling | fetching
  | taking | locking | summing | noting => trivial

/-- A move leaves the law and what the others know. -/
theorem staffInv_kept {c c' : Option StaffCall} {m : ℕ} (hsound : s'.Sound)
    (hframe : s.Frame s' mine) (hmine : ∀ id, mine = some id → ∃ a ∈ c, a.holds = some id)
    (hnext : ∀ a ∈ c', a.Known s')
    (hpair : ∀ d : StaffCall, d.Known s → (∀ a ∈ c, staffInv.pair a d) →
      ∀ a ∈ c', staffInv.pair a d) : staffInv.Kept s c m s' c' where
  whole := hsound
  mine := hnext
  others d hd hwith := by
    refine StaffCall.Known.frame hd hframe fun id hid heq => ?_
    obtain ⟨a, ha, hholds⟩ := hmine id heq
    exact hwith a ha id hholds id hid rfl
  apart := hpair

/-- A call that goes on without a request, after a write that concerns nobody. -/
theorem staffInv_free {c c' : Option StaffCall} {m : ℕ} (hsound : s'.Sound)
    (hframe : s.Frame s' none) (hnext : ∀ a ∈ c', a.Known s' ∧ a.holds = none) :
    staffInv.Kept s c m s' c' := by
  refine staffInv_kept hsound hframe (fun _ h => by cases h) (fun a ha => (hnext a ha).1)
    fun d _ _ a ha i hi => ?_
  rw [(hnext a ha).2] at hi
  cases hi

/-- A call that goes on with the request it executes. -/
theorem staffInv_mine {c : StaffCall} {c' : Option StaffCall} {m id : ℕ} (hid : c.holds = some id)
    (hsound : s'.Sound) (hframe : s.Frame s' (some id))
    (hnext : ∀ a ∈ c', a.Known s' ∧ a.holds = some id) : staffInv.Kept s (some c) m s' c' := by
  refine staffInv_kept hsound hframe (fun i hi => ⟨c, rfl, hid.trans hi⟩)
    (fun a ha => (hnext a ha).1) fun d _ hwith a ha i hi => ?_
  rw [(hnext a ha).2] at hi
  obtain rfl := Option.mem_some.1 hi
  exact hwith c rfl id hid

/-- A call that takes a request which nobody executes. -/
theorem staffInv_take {c c' : StaffCall} {m id : ℕ} {x : Approval}
    (hx : s.approvals.get? id = some x) (hfree : x.held = false) (hsound : s'.Sound)
    (hframe : s.Frame s' none) (hnext : c'.Known s') (hid : c'.holds = some id) :
    staffInv.Kept s (some c) m s' (some c') := by
  refine staffInv_kept hsound hframe (fun _ h => by cases h) (fun a ha => ?_)
    fun d hd _ a ha i hi j hj => ?_
  · obtain rfl := Option.mem_some.1 ha
    exact hnext
  · obtain rfl := Option.mem_some.1 ha
    rw [hid] at hi
    obtain rfl := Option.mem_some.1 hi
    rintro rfl
    -- what another executes is held
    have hheld : ∃ z, s.approvals.get? id = some z ∧ z.held = true := by
      cases d with
      | executing k =>
        obtain rfl := Option.some.inj hj
        obtain ⟨z, hz, hheld, -⟩ := hd
        exact ⟨z, hz, hheld⟩
      | recording k =>
        obtain rfl := Option.some.inj hj
        obtain ⟨z, hz, hheld, -⟩ := hd
        exact ⟨z, hz, hheld⟩
      | running k =>
        obtain rfl := Option.some.inj hj
        obtain ⟨z, hz, hheld, -⟩ := hd
        exact ⟨z, hz, hheld⟩
      | reporting k =>
        obtain rfl := Option.some.inj hj
        obtain ⟨z, hz, hheld, -⟩ := hd
        exact ⟨z, hz, hheld⟩
      | _ => cases hj
    obtain ⟨z, hz, hheld⟩ := hheld
    rw [hx] at hz
    rw [← Option.some.inj hz, hfree] at hheld
    cases hheld

end Moves

/-! ## Rows that are written -/

section Writes

variable {s s' : Board} {x y : Approval}

namespace ApprovalStatus.Moves

variable {a b : ApprovalStatus}

theorem of_pending (h : Moves a b) (hb : b.confirmed = false ∨ b = .executing) : a = .pending := by
  cases h with
  | confirm | reject | cancel | expire => rfl
  | execute | fail | report => rcases hb with hb | hb <;> cases hb

theorem first (h : Moves a b) (hb : b.confirmed = true) (ha : a.confirmed = false) :
    a = .pending ∧ b = .executing := by
  cases h with
  | confirm => exact ⟨rfl, rfl⟩
  | reject | cancel | expire => cases hb
  | execute | fail | report => cases ha

theorem ne_pending (h : Moves a b) : b ≠ .pending := by
  rintro rfl
  cases h

end ApprovalStatus.Moves

/-- A row moves on. -/
theorem Approval.Good.moved (h : x.Good) (hmove : ApprovalStatus.Moves x.status y.status)
    (hwent : y.went = x.went ++ [y.status]) (hexecutions : y.executions = x.executions)
    (hconfirmed : y.status.confirmed = true → y.Confirmed) : y.Good := by
  constructor
  · rw [hexecutions]
    exact h.once
  · intro hy
    refine ⟨hconfirmed hy, ?_⟩
    cases hx : x.status.confirmed with
    | true =>
      rw [hwent]
      exact (h.confirmed hx).2.trans (List.prefix_append ..)
    | false =>
      obtain ⟨hpending, hexecuting⟩ := hmove.first hy hx
      rw [hwent, h.pending hpending, hexecuting]
      exact List.prefix_rfl
  · intro hy
    rw [hexecutions]
    exact h.unconfirmed (by rw [hmove.of_pending (.inl hy)]; rfl)
  · intro hy _
    rw [hexecutions]
    exact h.unconfirmed (by rw [hmove.of_pending (.inr hy)]; rfl)
  · exact fun hy => absurd hy hmove.ne_pending
  · rw [hwent, List.isChain_append]
    refine ⟨h.went, List.isChain_singleton _, fun a ha b hb => ?_⟩
    rw [h.status] at ha
    obtain rfl := Option.mem_some.1 ha
    obtain rfl := Option.mem_some.1 hb
    exact hmove
  · rw [hwent, List.getLast?_append, List.getLast?_singleton, Option.some_or]

/-- One row is rewritten, if a condition on it holds. -/
theorem Board.Sound.modify (h : s.Sound) {id : ℕ} {f : Approval → Approval}
    (hf : ∀ {x}, s.approvals.get? id = some x → (f x).Good) : (s.write id f).Sound where
  rows {j y} hy := by
    rw [Board.write, Table.get?_modify] at hy
    split at hy
    · next hj =>
      subst hj
      obtain ⟨x, hx, rfl⟩ := Option.map_eq_some_iff.1 hy
      exact hf hx
    · exact h.rows hy

theorem Board.claim_some {id : ℕ} {status : ApprovalStatus} {f : Approval → Approval}
    (h : s.claim id status f = some s') : s' = s.write id f ∧
      ∃ x, s.approvals.get? id = some x ∧ x.status = status := by
  simp only [claim, Option.map_eq_some_iff] at h
  obtain ⟨t, ht, rfl⟩ := h
  obtain ⟨x, hx, hstatus, rfl⟩ := Table.tryModify_eq_some.1 ht
  exact ⟨rfl, x, hx, beq_iff_eq.1 hstatus⟩

/-- A pending row is settled, and concerns nobody. -/
theorem Board.claim_pending {id : ℕ} {f : Approval → Approval} (h : s.Sound)
    (hclaim : s.claim id .pending f = some s')
    (hf : ∀ {x}, s.approvals.get? id = some x → x.status = .pending → (f x).Good ∧
      (f x).createdAt = x.createdAt ∧ (f x).requestedByEmail = x.requestedByEmail) :
    s'.Sound ∧ s.Frame s' none := by
  obtain ⟨rfl, x, hx, hpending⟩ := claim_some hclaim
  have hrow : ∀ {z}, s.approvals.get? id = some z → z.status = .pending := by
    intro z hz
    rw [hx] at hz
    rw [← Option.some.inj hz]
    exact hpending
  refine ⟨h.modify fun hz => (hf hz (hrow hz)).1, .rewrite ?_⟩
  refine .modify Approval.Stays.refl fun z hz => ?_
  obtain ⟨-, hcreated, hemail⟩ := hf hz (hrow hz)
  refine ⟨hcreated, hemail, fun hheld => ?_⟩
  rw [Approval.held, hrow hz] at hheld
  cases hheld

theorem Approval.good_expired (h : x.Good) (hpending : x.status = .pending) (now : ℤ) :
    ({ x.move .expired with decidedAt := some now } : Approval).Good := by
  refine h.moved ?_ rfl rfl fun hy => by cases hy
  rw [hpending]
  exact .expire

theorem Board.Sound.expireStale (h : s.Sound) :
    s.expireStale.Sound ∧ s.Frame s.expireStale none := by
  constructor
  · refine ⟨fun {id y} hy => ?_⟩
    rw [Board.expireStale, Table.get?_modifyAll] at hy
    obtain ⟨x, hx, rfl⟩ := Option.map_eq_some_iff.1 hy
    split
    · next hstale => exact Approval.good_expired (h.rows hx) hstale.1 _
    · exact h.rows hx
  · refine .rewrite (.modifyAll fun id x hx => ?_)
    split
    · next hstale =>
      refine ⟨rfl, rfl, fun hheld => ?_⟩
      rw [Approval.held, hstale.1] at hheld
      cases hheld
    · exact .refl x

theorem Board.newApproval_good (s : Board) (payload : ApprovalPayload) (summary reason : List Char)
    (actor : StaffActor) : (s.newApproval payload summary reason actor).Good where
  once := Nat.zero_le _
  confirmed hy := by cases hy
  unconfirmed _ := rfl
  waits hy := by cases hy
  pending _ := rfl
  went := List.isChain_singleton _
  status := rfl

theorem Board.Sound.file (h : s.Sound) (payload : ApprovalPayload) (summary reason : List Char)
    (actor : StaffActor) :
    Board.Sound { s with
      approvals := s.approvals.insert (s.newApproval payload summary reason actor) } where
  rows hy := by
    rw [Table.get?_insert] at hy
    split at hy
    · obtain rfl := Option.some.inj hy
      exact s.newApproval_good payload summary reason actor
    · exact h.rows hy

/-- A decision on a pending row. -/
theorem StaffCall.decision_good {approve : Bool} {note : Option (List Char)} {actor : StaffActor}
    {seenAt : ℤ} {id : ℕ} (h : x.Good) (hpending : x.status = .pending)
    (hmay : MayConfirm s id actor seenAt) (hx : s.approvals.get? id = some x) :
    (decision s approve note actor seenAt x).Good := by
  obtain ⟨hadmin, z, hz, hother, hseen⟩ := hmay
  obtain rfl := Option.some.inj (hx.symm.trans hz)
  cases approve with
  | true =>
    refine h.moved ?_ rfl rfl fun _ => ⟨_, rfl, hadmin, hother, hseen⟩
    rw [hpending]
    exact .confirm
  | false =>
    refine h.moved ?_ rfl rfl fun hy => by cases hy
    rw [hpending]
    exact .reject

/-- The API confirms. -/
theorem Board.Sound.confirmedByApi (h : s.Sound) (id : ℕ) (actor : StaffActor) :
    (s.confirmedByApi id actor).Sound ∧ s.Frame (s.confirmedByApi id actor) none := by
  constructor
  · refine h.modify fun {x} hx => ?_
    split
    · next hok =>
      obtain ⟨hpending, -, hother, hseen⟩ := hok
      refine (h.rows hx).moved ?_ rfl rfl fun _ => ⟨_, rfl, rfl, hother.symm, ?_⟩
      · rw [hpending]
        exact .confirm
      · change s.now ≤ x.createdAt + APPROVAL_TTL_MS
        omega
    · exact h.rows hx
  · refine .rewrite (.modify Approval.Stays.refl fun x hx => ?_)
    split
    · next hok =>
      refine ⟨rfl, rfl, fun hheld => ?_⟩
      rw [Approval.held, hok.1] at hheld
      cases hheld
    · exact .refl x

/-- A job takes a request that the API has confirmed. -/
theorem Board.Sound.take {id : ℕ} (h : s.Sound) (hapi : (StaffCall.taking id).ofApi s = true)
    (hclaim : s.claim id .executing (·.move .executed) = some s') :
    s'.Sound ∧ s.Frame s' none ∧ (StaffCall.running id).Known s' ∧
      ∃ x, s.approvals.get? id = some x ∧ x.held = false := by
  obtain ⟨rfl, x, hx, hexecuting⟩ := claim_some hclaim
  have hbyApi : x.confirmation.any (·.byApi) = true := by
    rw [StaffCall.ofApi, hx, Option.all_some, hexecuting] at hapi
    simpa using hapi
  have hrow : ∀ {z}, s.approvals.get? id = some z → z = x := by
    intro z hz
    exact Option.some.inj (hz.symm.trans hx)
  have hfree : x.held = false := by
    rw [Approval.held, hexecuting]
    simp [hbyApi]
  refine ⟨h.modify fun hz => ?_, .rewrite (.modify Approval.Stays.refl fun z hz => ?_),
    ⟨x.move .executed, ?_, rfl, rfl, (h.rows hx).waits hexecuting hbyApi⟩, x, hx, hfree⟩
  · obtain rfl := hrow hz
    have hgood := h.rows hx
    refine hgood.moved ?_ rfl rfl fun _ => ?_
    · rw [hexecuting]
      exact .execute
    · exact (hgood.confirmed (by rw [hexecuting]; rfl)).1
  · obtain rfl := hrow hz
    refine ⟨rfl, rfl, fun hheld => ?_⟩
    rw [hfree] at hheld
    cases hheld
  · rw [Board.write, Table.get?_modify, if_pos rfl, hx, Option.map_some]

/-- An execution begins. -/
theorem Approval.Good.execute (h : x.Good) (hheld : x.held = true) (hnone : x.executions = 0) :
    ({ x with executions := x.executions + 1 } : Approval).Good where
  once := by
    change x.executions + 1 ≤ 1
    omega
  confirmed := h.confirmed
  unconfirmed hy := by
    change x.status.confirmed = false at hy
    unfold Approval.held at hheld
    split at hheld <;> simp_all [ApprovalStatus.confirmed]
  waits hy hapi := by
    change x.status = .executing at hy
    change x.confirmation.any (·.byApi) = true at hapi
    rw [Approval.held, hy] at hheld
    simp [hapi] at hheld
  pending := h.pending
  went := h.went
  status := h.status

/-- An execution ends. -/
theorem Approval.Good.end (h : x.Good) (hheld : x.held = true)
    (hmove : ApprovalStatus.Moves x.status y.status) (hwent : y.went = x.went ++ [y.status])
    (hexecutions : y.executions = x.executions) (hconfirmation : y.confirmation = x.confirmation)
    (hcreated : y.createdAt = x.createdAt) (hemail : y.requestedByEmail = x.requestedByEmail) :
    y.Good := by
  refine h.moved hmove hwent hexecutions fun _ => ?_
  have hstatus : x.status.confirmed = true := by
    unfold Approval.held at hheld
    split at hheld <;> simp_all [ApprovalStatus.confirmed]
  obtain ⟨c, hc, hadmin, hother, hseen⟩ := (h.confirmed hstatus).1
  exact ⟨c, hconfirmation.trans hc, hadmin, by rwa [hemail], by rwa [hcreated]⟩

end Writes

/-! ## Steps -/

section Steps

variable {s s' : Board} {m : ℕ}

theorem StaffCall.read_ok {id : ℕ} {approve : Bool} {note : Option (List Char)} {actor : StaffActor}
    {c : StaffCall} (h : read s id approve note actor = .ok c) : c.Known s ∧ c.holds = none := by
  simp only [read, bind_eq_ok, exists_punit, refuseIf_eq_ok, orRefuse_eq_ok, pure_eq_ok] at h
  obtain ⟨hadmin, row, hrow, -, hother, rfl⟩ := h
  split
  · exact ⟨trivial, rfl⟩
  · next hfresh =>
    refine ⟨⟨?_, row, hrow, fun heq => hother heq.symm, ?_⟩, rfl⟩
    · simpa using hadmin
    · have hle := not_lt.1 hfresh
      omega

theorem StaffCall.readOwn_ok {id : ℕ} {actor : StaffActor} {c : StaffCall}
    (h : readOwn s id actor = .ok c) : c.Known s ∧ c.holds = none := by
  simp only [readOwn, bind_eq_ok, exists_punit, refuseIf_eq_ok, orRefuse_eq_ok, pure_eq_ok] at h
  obtain ⟨-, -, -, rfl⟩ := h
  exact ⟨trivial, rfl⟩

/-- An execution ends, well or not. -/
theorem StaffCall.end_kept {c : StaffCall} {id : ℕ} {f : Approval → Approval} {x : Approval}
    (hsound : s.Sound) (hid : c.holds = some id) (hx : s.approvals.get? id = some x)
    (hgood : (f x).Good)
    (hf : ∀ x, (f x).createdAt = x.createdAt ∧ (f x).requestedByEmail = x.requestedByEmail) :
    staffInv.Kept s (some c) m (s.write id f) none := by
  refine staffInv_mine hid (hsound.modify fun hz => ?_) (.write hf) fun _ ha => by cases ha
  rw [Option.some.inj (hz.symm.trans hx)]
  exact hgood

theorem StaffCall.next_keeps {c : StaffCall} {r : Board × Option StaffCall}
    (hapi : c.ofApi s = true) (hr : c.next s = some r) : staffInv.Keeps s (some c) r := by
  intro m hs hmine
  have hsound : s.Sound := hs
  have hknown := hmine c rfl
  have hstay : ∀ {c' : Option StaffCall}, (∀ a ∈ c', a.Known s ∧ a.holds = none) →
      staffInv.Kept s (some c) m s c' := fun h => staffInv_free hsound (.same rfl) h
  cases c with
  | asking payload summary reason actor =>
    obtain rfl := Option.some.inj hr
    obtain ⟨hnext, hframe⟩ := hsound.expireStale
    refine staffInv_free hnext hframe fun a ha => ?_
    obtain rfl := Option.mem_some.1 ha
    exact ⟨trivial, rfl⟩
  | comparing payload summary reason actor =>
    simp only [next] at hr
    split at hr
    · obtain rfl := Option.some.inj hr
      exact hstay fun a ha => by cases ha
    · obtain rfl := Option.some.inj hr
      refine hstay fun a ha => ?_
      obtain rfl := Option.mem_some.1 ha
      exact ⟨trivial, rfl⟩
  | filing payload summary reason actor =>
    obtain rfl := Option.some.inj hr
    refine staffInv_free (hsound.file payload summary reason actor) (.rewrite ?_)
      fun a ha => by cases ha
    exact .insert Approval.Stays.refl _ _
  | deciding id approve note actor =>
    obtain rfl := Option.some.inj hr
    exact hstay fun a ha => read_ok (toOption_eq_some.1 ha)
  | expiring id =>
    obtain rfl := Option.some.inj hr
    cases hclaim : s.claim id .pending fun x => { x.move .expired with decidedAt := some s.now } with
    | none => exact hstay fun a ha => by cases ha
    | some s' =>
      obtain ⟨hnext, hframe⟩ := Board.claim_pending hsound hclaim fun hx hpending =>
        ⟨Approval.good_expired (hsound.rows hx) hpending _, rfl, rfl⟩
      exact staffInv_free hnext hframe fun a ha => by cases ha
  | vetting id approve note actor seenAt userId email =>
    simp only [next] at hr
    split at hr
    · obtain rfl := Option.some.inj hr
      refine hstay fun a ha => ?_
      obtain rfl := Option.mem_some.1 ha
      exact ⟨hknown, rfl⟩
    · obtain rfl := Option.some.inj hr
      exact hstay fun a ha => by cases ha
  | claiming id approve note actor seenAt =>
    simp only [next] at hr
    split at hr
    · obtain rfl := Option.some.inj hr
      exact hstay fun a ha => by cases ha
    · next s' hclaim =>
      obtain rfl := Option.some.inj hr
      obtain ⟨hnext, hframe⟩ := Board.claim_pending hsound hclaim fun hx hpending =>
        ⟨decision_good (hsound.rows hx) hpending hknown hx, by
          cases approve <;> exact ⟨rfl, rfl⟩⟩
      cases approve with
      | false => exact staffInv_free hnext hframe fun a ha => by cases ha
      | true =>
        obtain ⟨rfl, x, hx, hpending⟩ := Board.claim_some hclaim
        have hfree : x.held = false := by rw [Approval.held, hpending]
        refine staffInv_take hx hfree hnext hframe ⟨decision s true note actor seenAt x, ?_, rfl, rfl,
          (hsound.rows hx).unconfirmed (by rw [hpending]; rfl)⟩ rfl
        rw [Board.write, Table.get?_modify, if_pos rfl, hx, Option.map_some]
  | executing id =>
    obtain rfl := Option.some.inj hr
    obtain ⟨x, hx, hheld, hstatus, hnone⟩ := hknown
    refine staffInv_mine rfl (hsound.modify fun hz => ?_) (.write fun _ => ⟨rfl, rfl⟩) fun a ha => ?_
    · rw [Option.some.inj (hz.symm.trans hx)]
      exact (hsound.rows hx).execute hheld hnone
    · obtain rfl := Option.mem_some.1 ha
      refine ⟨⟨{ x with executions := x.executions + 1 }, ?_, hheld, hstatus⟩, rfl⟩
      rw [Board.write, Table.get?_modify, if_pos rfl, hx, Option.map_some]
  | recording id =>
    obtain rfl := Option.some.inj hr
    obtain ⟨x, hx, hheld, hstatus⟩ := hknown
    refine end_kept hsound rfl hx ?_ fun _ => ⟨rfl, rfl⟩
    exact (hsound.rows hx).end hheld (by rw [hstatus]; exact .execute) rfl rfl rfl rfl rfl
  | withdrawing id actor =>
    obtain rfl := Option.some.inj hr
    exact hstay fun a ha => readOwn_ok (toOption_eq_some.1 ha)
  | cancelling id actor =>
    obtain rfl := Option.some.inj hr
    cases hclaim : s.claim id .pending fun x => (x.decided actor s.now
        (some "Cancelado por quem pediu.".toList)).move .cancelled with
    | none => exact hstay fun a ha => by cases ha
    | some s' =>
      obtain ⟨hnext, hframe⟩ := Board.claim_pending hsound hclaim fun hx hpending =>
        ⟨(hsound.rows hx).moved (by rw [hpending]; exact .cancel) rfl rfl fun h => (by cases h),
          rfl, rfl⟩
      exact staffInv_free hnext hframe fun a ha => by cases ha
  | fetching id =>
    simp only [next] at hr
    split at hr
    · obtain rfl := Option.some.inj hr
      refine hstay fun a ha => ?_
      obtain rfl := Option.mem_some.1 ha
      exact ⟨trivial, rfl⟩
    · obtain rfl := Option.some.inj hr
      exact hstay fun a ha => by cases ha
  | taking id =>
    simp only [next] at hr
    split at hr
    · obtain rfl := Option.some.inj hr
      exact hstay fun a ha => by cases ha
    · next s' hclaim =>
      obtain rfl := Option.some.inj hr
      obtain ⟨hnext, hframe, hrunning, x, hx, hfree⟩ := hsound.take hapi hclaim
      exact staffInv_take hx hfree hnext hframe hrunning rfl
  | running id =>
    obtain rfl := Option.some.inj hr
    obtain ⟨x, hx, hheld, hstatus, hnone⟩ := hknown
    refine staffInv_mine rfl (hsound.modify fun hz => ?_) (.write fun _ => ⟨rfl, rfl⟩) fun a ha => ?_
    · rw [Option.some.inj (hz.symm.trans hx)]
      exact (hsound.rows hx).execute hheld hnone
    · obtain rfl := Option.mem_some.1 ha
      refine ⟨⟨{ x with executions := x.executions + 1 }, ?_, hheld, hstatus⟩, rfl⟩
      rw [Board.write, Table.get?_modify, if_pos rfl, hx, Option.map_some]
  | reporting id =>
    obtain rfl := Option.some.inj hr
    exact hstay fun a ha => by cases ha
  | locking email recipients begun =>
    simp only [next] at hr
    split at hr
    · cases hr
    · obtain rfl := Option.some.inj hr
      refine staffInv_free ⟨hsound.rows⟩ (.same rfl) fun a ha => ?_
      obtain rfl := Option.mem_some.1 ha
      exact ⟨trivial, rfl⟩
  | summing email recipients begun =>
    simp only [next] at hr
    split at hr
    · obtain rfl := Option.some.inj hr
      exact staffInv_free ⟨hsound.rows⟩ (.same rfl) fun a ha => by cases ha
    · obtain rfl := Option.some.inj hr
      refine hstay fun a ha => ?_
      obtain rfl := Option.mem_some.1 ha
      exact ⟨trivial, rfl⟩
  | noting email recipients begun => cases hr

theorem StaffCall.rollback_approvals (c : StaffCall) (s : Board) :
    (c.rollback s).approvals = s.approvals := by
  cases c <;> rfl

theorem StaffCall.keeps {k : StaffStep} {c : StaffCall} {r : Board × Option StaffCall}
    (hapi : c.ofApi s = true) (hr : c.step k s = some r) : staffInv.Keeps s (some c) r := by
  have hcut : ∀ {t : Board}, t.approvals = s.approvals → staffInv.Keeps s (some c) (t, none) := by
    intro t ht m hs _
    have hsound : s.Sound := hs
    have hnext : t.Sound := ⟨by
      rw [ht]
      exact hsound.rows⟩
    exact staffInv_free hnext (.same ht) fun a ha => by cases ha
  unfold step at hr
  split at hr
  · obtain rfl := Option.some.inj hr
    exact hcut (rollback_approvals ..)
  · exact next_keeps hapi hr
  · next message id =>
    obtain rfl := Option.some.inj hr
    intro m hs hmine
    have hsound : s.Sound := hs
    obtain ⟨x, hx, hheld, hstatus⟩ := hmine _ rfl
    refine end_kept hsound rfl hx ?_ fun _ => ⟨rfl, rfl⟩
    exact (hsound.rows hx).end hheld (by rw [hstatus]; exact .fail) rfl rfl rfl rfl rfl
  · next message id =>
    obtain rfl := Option.some.inj hr
    intro m hs hmine
    have hsound : s.Sound := hs
    obtain ⟨x, hx, hheld, hstatus⟩ := hmine _ rfl
    refine end_kept hsound rfl hx ?_ fun _ => ⟨rfl, rfl⟩
    exact (hsound.rows hx).end hheld (by rw [hstatus]; exact .report) rfl rfl rfl rfl rfl
  · split at hr
    · obtain rfl := Option.some.inj hr
      exact hcut rfl
    · cases hr
  · cases hr

theorem StaffEvent.keeps {e : StaffEvent} {r : Board × Option StaffCall}
    (hr : staffCalls.event e s = some r) : staffInv.Keeps s none r := by
  obtain rfl := Option.some.inj hr
  intro m hs _
  have hsound : s.Sound := hs
  have hbegin : ∀ {t : Board} {c' : Option StaffCall}, t.approvals = s.approvals →
      (∀ a ∈ c', a.Known t ∧ a.holds = none) → staffInv.Kept s none m t c' := by
    intro t c' ht hnext
    have hsound' : t.Sound := ⟨by
      rw [ht]
      exact hsound.rows⟩
    exact staffInv_free hsound' (.same ht) hnext
  cases e with
  | request payload summary reason actor =>
    refine hbegin rfl fun a ha => ?_
    simp only [begin] at ha
    split at ha
    · cases ha
    · obtain rfl := Option.mem_some.1 ha
      exact ⟨trivial, rfl⟩
  | decide id approve note actor =>
    refine hbegin rfl fun a ha => ?_
    obtain rfl := Option.mem_some.1 ha
    exact ⟨trivial, rfl⟩
  | cancel id actor =>
    refine hbegin rfl fun a ha => ?_
    obtain rfl := Option.mem_some.1 ha
    exact ⟨trivial, rfl⟩
  | executeConfirmed id =>
    refine hbegin rfl fun a ha => ?_
    obtain rfl := Option.mem_some.1 ha
    exact ⟨trivial, rfl⟩
  | confirmByApi id actor =>
    obtain ⟨hnext, hframe⟩ := hsound.confirmedByApi id actor
    exact staffInv_free hnext hframe fun a ha => by cases ha
  | reserveDirectEmail actor recipients =>
    refine hbegin rfl fun a ha => ?_
    simp only [begin] at ha
    split at ha
    · cases ha
    · obtain rfl := Option.mem_some.1 ha
      exact ⟨trivial, rfl⟩
  | releaseDirectEmail | addUser | editUser | pass => exact hbegin rfl fun a ha => by cases ha

end Steps

/-! ## Direct e-mails -/

namespace StaffCall

/-- The call reserves a direct e-mail. -/
def reserves : StaffCall → Bool
  | locking .. | summing .. | noting .. => true
  | _ => false

/-- The actor whose lock a call has. -/
def locks : StaffCall → Option EmailText
  | summing email _ _ | noting email _ _ => some email
  | _ => none

/-- What a reservation knows. -/
def KnownSends (s : Board) : StaffCall → Prop
  | locking _ _ begun => begun ≤ s.now
  | summing email _ begun => s.sending email = true ∧ begun ≤ s.now
  | noting email recipients begun => s.sending email = true ∧ begun ≤ s.now ∧
    s.sentSince email (begun - MASS_EMAIL_WINDOW_MS) + recipients ≤ MASS_EMAIL_LIMIT
  | _ => True

end StaffCall

def sendInv : CallInv Board StaffCall ℕ where
  weight _ := 0
  whole s _ := s.WindowLaw
  each s c := c.KnownSends s
  pair c d := ∀ e ∈ c.locks, ∀ f ∈ d.locks, e ≠ f
  symm h e he f hf := (h f hf e he).symm

section Sends

variable {s s' : Board} {lock : Option EmailText} {m : ℕ}

/-- A step of a call that has the lock of `lock` at most. -/
structure Board.SendFrame (s s' : Board) (lock : Option EmailText) : Prop where
  now : s.now ≤ s'.now
  sent : ∀ email since, lock ≠ some email → s'.sentSince email since ≤ s.sentSince email since
  sending : ∀ email, lock ≠ some email → s.sending email = true → s'.sending email = true

theorem Board.SendFrame.same (hnow : s.now ≤ s'.now) (hsends : s'.sends = s.sends)
    (hsending : s'.sending = s.sending) : s.SendFrame s' none where
  now := hnow
  sent _ _ _ := by
    unfold Board.sentSince
    rw [hsends]
  sending _ _ h := by rwa [hsending]

theorem Board.SendFrame.unlock (email : EmailText) : s.SendFrame (s.unlock email) (some email) where
  now := le_rfl
  sent _ _ _ := le_rfl
  sending e hne h := (Function.update_of_ne (fun heq => hne (by rw [heq])) _ _).trans h

theorem StaffCall.KnownSends.frame {c : StaffCall} (h : c.KnownSends s) (hframe : s.SendFrame s' lock)
    (hlock : ∀ email ∈ c.locks, lock ≠ some email) : c.KnownSends s' := by
  cases c with
  | locking email recipients begun => exact le_trans h hframe.now
  | summing email recipients begun =>
    exact ⟨hframe.sending email (hlock email rfl) h.1, h.2.trans hframe.now⟩
  | noting email recipients begun =>
    obtain ⟨hlocked, hbegun, hroom⟩ := h
    have hsent := hframe.sent email (begun - MASS_EMAIL_WINDOW_MS) (hlock email rfl)
    exact ⟨hframe.sending email (hlock email rfl) hlocked, hbegun.trans hframe.now,
      (Nat.add_le_add_right hsent recipients).trans hroom⟩
  | _ => trivial

theorem sendInv_kept {c c' : Option StaffCall} (hwindows : s'.WindowLaw)
    (hframe : s.SendFrame s' lock) (hlock : ∀ email, lock = some email → ∃ a ∈ c, a.locks = some email)
    (hnext : ∀ a ∈ c', a.KnownSends s')
    (hpair : ∀ d : StaffCall, d.KnownSends s → (∀ a ∈ c, sendInv.pair a d) →
      ∀ a ∈ c', sendInv.pair a d) : sendInv.Kept s c m s' c' where
  whole := hwindows
  mine := hnext
  others d hd hwith := by
    refine StaffCall.KnownSends.frame hd hframe fun email hemail heq => ?_
    obtain ⟨a, ha, hlocks⟩ := hlock email heq
    exact hwith a ha email hlocks email hemail rfl
  apart := hpair

/-- A call that goes on without a lock. -/
theorem sendInv_free {c c' : Option StaffCall} (hwindows : s'.WindowLaw)
    (hframe : s.SendFrame s' lock) (hlock : ∀ email, lock = some email → ∃ a ∈ c, a.locks = some email)
    (hnext : ∀ a ∈ c', a.KnownSends s' ∧ a.locks = none) : sendInv.Kept s c m s' c' := by
  refine sendInv_kept hwindows hframe hlock (fun a ha => (hnext a ha).1) fun d _ _ a ha e he => ?_
  rw [(hnext a ha).2] at he
  cases he

/-- Neither the sends nor their locks are written. -/
structure Board.Aside (s s' : Board) : Prop where
  now : s'.now = s.now
  sends : s'.sends = s.sends
  sending : s'.sending = s.sending

theorem Board.Aside.claim {id : ℕ} {status : ApprovalStatus} {f : Approval → Approval}
    (h : s.claim id status f = some s') : s.Aside s' := by
  obtain ⟨rfl, -⟩ := claim_some h
  exact ⟨rfl, rfl, rfl⟩

theorem Board.Aside.claim_getD (s : Board) (id : ℕ) (status : ApprovalStatus)
    (f : Approval → Approval) : s.Aside ((s.claim id status f).getD s) := by
  cases h : s.claim id status f with
  | none => exact ⟨rfl, rfl, rfl⟩
  | some s' => exact claim h

theorem StaffCall.read_reserves {id : ℕ} {approve : Bool} {note : Option (List Char)}
    {actor : StaffActor} {c : StaffCall} (h : read s id approve note actor = .ok c) :
    c.reserves = false := by
  simp only [read, bind_eq_ok, exists_punit, refuseIf_eq_ok, orRefuse_eq_ok, pure_eq_ok] at h
  obtain ⟨-, row, -, -, -, rfl⟩ := h
  split <;> rfl

theorem StaffCall.readOwn_reserves {id : ℕ} {actor : StaffActor} {c : StaffCall}
    (h : readOwn s id actor = .ok c) : c.reserves = false := by
  simp only [readOwn, bind_eq_ok, exists_punit, refuseIf_eq_ok, orRefuse_eq_ok, pure_eq_ok] at h
  obtain ⟨-, -, -, rfl⟩ := h
  rfl

/-- A call about a request writes no send. -/
theorem StaffCall.next_aside {c : StaffCall} {r : Board × Option StaffCall} (hc : c.reserves = false)
    (hr : c.next s = some r) : s.Aside r.1 ∧ ∀ a ∈ r.2, a.reserves = false := by
  have hgo : ∀ {c' : StaffCall}, c'.reserves = false → ∀ a ∈ some c', a.reserves = false := by
    intro c' hc' a ha
    rwa [← Option.mem_some.1 ha]
  have hend : ∀ a ∈ (none : Option StaffCall), a.reserves = false := fun a ha => by cases ha
  cases c with
  | asking payload summary reason actor =>
    obtain rfl := Option.some.inj hr
    exact ⟨⟨rfl, rfl, rfl⟩, hgo rfl⟩
  | comparing payload summary reason actor =>
    simp only [next] at hr
    split at hr
    · obtain rfl := Option.some.inj hr
      exact ⟨⟨rfl, rfl, rfl⟩, hend⟩
    · obtain rfl := Option.some.inj hr
      exact ⟨⟨rfl, rfl, rfl⟩, hgo rfl⟩
  | filing payload summary reason actor =>
    obtain rfl := Option.some.inj hr
    exact ⟨⟨rfl, rfl, rfl⟩, hend⟩
  | deciding id approve note actor =>
    obtain rfl := Option.some.inj hr
    exact ⟨⟨rfl, rfl, rfl⟩, fun a ha => read_reserves (toOption_eq_some.1 ha)⟩
  | expiring id =>
    obtain rfl := Option.some.inj hr
    exact ⟨.claim_getD .., hend⟩
  | vetting id approve note actor seenAt userId email =>
    simp only [next] at hr
    split at hr
    · obtain rfl := Option.some.inj hr
      exact ⟨⟨rfl, rfl, rfl⟩, hgo rfl⟩
    · obtain rfl := Option.some.inj hr
      exact ⟨⟨rfl, rfl, rfl⟩, hend⟩
  | claiming id approve note actor seenAt =>
    simp only [next] at hr
    split at hr
    · obtain rfl := Option.some.inj hr
      exact ⟨⟨rfl, rfl, rfl⟩, hend⟩
    · next s' hclaim =>
      obtain rfl := Option.some.inj hr
      refine ⟨.claim hclaim, ?_⟩
      split
      · exact hgo rfl
      · exact hend
  | executing id =>
    obtain rfl := Option.some.inj hr
    exact ⟨⟨rfl, rfl, rfl⟩, hgo rfl⟩
  | recording id =>
    obtain rfl := Option.some.inj hr
    exact ⟨⟨rfl, rfl, rfl⟩, hend⟩
  | withdrawing id actor =>
    obtain rfl := Option.some.inj hr
    exact ⟨⟨rfl, rfl, rfl⟩, fun a ha => readOwn_reserves (toOption_eq_some.1 ha)⟩
  | cancelling id actor =>
    obtain rfl := Option.some.inj hr
    exact ⟨.claim_getD .., hend⟩
  | fetching id =>
    simp only [next] at hr
    split at hr
    · obtain rfl := Option.some.inj hr
      exact ⟨⟨rfl, rfl, rfl⟩, hgo rfl⟩
    · obtain rfl := Option.some.inj hr
      exact ⟨⟨rfl, rfl, rfl⟩, hend⟩
  | taking id =>
    simp only [next] at hr
    split at hr
    · obtain rfl := Option.some.inj hr
      exact ⟨⟨rfl, rfl, rfl⟩, hend⟩
    · next s' hclaim =>
      obtain rfl := Option.some.inj hr
      exact ⟨.claim hclaim, hgo rfl⟩
  | running id =>
    obtain rfl := Option.some.inj hr
    exact ⟨⟨rfl, rfl, rfl⟩, hgo rfl⟩
  | reporting id =>
    obtain rfl := Option.some.inj hr
    exact ⟨⟨rfl, rfl, rfl⟩, hend⟩
  | locking | summing | noting => cases hc

theorem Board.WindowLaw.same (h : s.WindowLaw) (hsends : s'.sends = s.sends) : s'.WindowLaw := by
  intro email start
  unfold Board.sentIn
  rw [hsends]
  exact h email start

theorem StaffCall.locks_of_reserves {c : StaffCall} (h : c.reserves = false) :
    c.locks = none ∧ ∀ s, c.KnownSends s := by
  cases c with
  | locking | summing | noting => cases h
  | _ => exact ⟨rfl, fun _ => trivial⟩

/-- What a call about a request leaves to the reservations. -/
theorem sendInv_aside {c c' : Option StaffCall} (h : s.WindowLaw) (haside : s.Aside s')
    (hnext : ∀ a ∈ c', a.reserves = false) : sendInv.Kept s c m s' c' :=
  sendInv_free (h.same haside.sends) (.same haside.now.ge haside.sends haside.sending)
    (fun _ h => by cases h) fun a ha =>
      ⟨(StaffCall.locks_of_reserves (hnext a ha)).2 _, (StaffCall.locks_of_reserves (hnext a ha)).1⟩

/-- A send is noted, within the room that its sum has found. -/
theorem Board.WindowLaw.note {email : EmailText} {recipients : ℕ} {begun createdAt : ℤ} (h : s.WindowLaw)
    (hroom : s.sentSince email (begun - MASS_EMAIL_WINDOW_MS) + recipients ≤ MASS_EMAIL_LIMIT)
    (hstamp : begun ≤ createdAt) :
    Board.WindowLaw { s.unlock email with
      sends := s.sends.insert {
        createdAt := createdAt
        requestedByEmail := email
        recipients := recipients } } := by
  intro email' start
  have hold := h email' start
  simp only [Board.sentIn] at hold ⊢
  rw [Table.sum_insert]
  split
  · next hin =>
    obtain ⟨heq, -, hlast⟩ := hin
    obtain rfl : email = email' := heq
    change createdAt ≤ start + MASS_EMAIL_WINDOW_MS at hlast
    change _ + recipients ≤ MASS_EMAIL_LIMIT
    -- what the window has, the sum has seen
    have hseen : s.sentIn email start ≤ s.sentSince email (begun - MASS_EMAIL_WINDOW_MS) := by
      refine Table.sum_le_sum fun k r _ => ?_
      split
      · next hmem =>
        have hsince : begun - MASS_EMAIL_WINDOW_MS ≤ r.createdAt := by omega
        rw [if_pos ⟨hmem.1, hsince⟩]
      · exact Nat.zero_le _
    exact (Nat.add_le_add_right hseen recipients).trans hroom
  · exact hold

/-- A step of a reservation, and any other. -/
theorem StaffCall.keeps_sends {k : StaffStep} {c : StaffCall} {r : Board × Option StaffCall}
    (hr : c.step k s = some r) : sendInv.Keeps s (some c) r := by
  intro m hs hmine
  have hwindows : s.WindowLaw := hs
  have hknown := hmine c rfl
  have hend : ∀ a ∈ (none : Option StaffCall), a.reserves = false := fun a ha => by cases ha
  have hunlock : ∀ {email : EmailText}, c.locks = some email →
      sendInv.Kept s (some c) m (s.unlock email) none := by
    intro email hlocks
    refine sendInv_free (hwindows.same rfl) (.unlock email) (fun e he => ⟨c, rfl, ?_⟩)
      fun a ha => by cases ha
    rw [hlocks, he]
  unfold step at hr
  split at hr
  · obtain rfl := Option.some.inj hr
    cases c with
    | summing email recipients begun => exact hunlock rfl
    | noting email recipients begun => exact hunlock rfl
    | _ => exact sendInv_aside hwindows ⟨rfl, rfl, rfl⟩ hend
  · cases hc : c.reserves with
    | false =>
      obtain ⟨haside, hnext⟩ := next_aside hc hr
      exact sendInv_aside hwindows haside hnext
    | true =>
      cases c with
      | locking email recipients begun =>
        simp only [next] at hr
        split at hr
        · cases hr
        · next hfree =>
          obtain rfl := Option.some.inj hr
          have hframe : s.SendFrame
              { s with sending := Function.update s.sending email true } none := by
            refine ⟨le_rfl, fun _ _ _ => le_rfl, fun e _ he => ?_⟩
            simp only
            rw [Function.update_apply]
            split
            · rfl
            · exact he
          refine sendInv_kept (hwindows.same rfl) hframe (fun _ h => by cases h) (fun a ha => ?_)
            fun d hd _ a ha e he f hf => ?_
          · obtain rfl := Option.mem_some.1 ha
            exact ⟨Function.update_self .., hknown⟩
          · obtain rfl := Option.mem_some.1 ha
            obtain rfl := Option.some.inj he
            rintro rfl
            -- another that has the lock would have taken it
            refine hfree ?_
            cases d with
            | summing email' recipients' begun' =>
              obtain rfl := Option.some.inj hf
              exact hd.1
            | noting email' recipients' begun' =>
              obtain rfl := Option.some.inj hf
              exact hd.1
            | _ => cases hf
      | summing email recipients begun =>
        simp only [next] at hr
        split at hr
        · obtain rfl := Option.some.inj hr
          exact hunlock rfl
        · next hroom =>
          obtain rfl := Option.some.inj hr
          refine sendInv_kept hwindows (.same le_rfl rfl rfl) (fun _ h => by cases h) (fun a ha => ?_)
            fun d _ hwith a ha => ?_
          · obtain rfl := Option.mem_some.1 ha
            exact ⟨hknown.1, hknown.2, not_lt.1 hroom⟩
          · obtain rfl := Option.mem_some.1 ha
            exact hwith (summing email recipients begun) rfl
      | noting email recipients begun => cases hr
      | _ => cases hc
  · obtain rfl := Option.some.inj hr
    exact sendInv_aside hwindows ⟨rfl, rfl, rfl⟩ hend
  · obtain rfl := Option.some.inj hr
    exact sendInv_aside hwindows ⟨rfl, rfl, rfl⟩ hend
  · next createdAt email recipients begun =>
    split at hr
    · next hstamp =>
      obtain rfl := Option.some.inj hr
      have hframe : s.SendFrame { s.unlock email with
          sends := s.sends.insert ⟨createdAt, email, recipients⟩ } (some email) := by
        refine ⟨le_rfl, fun e since hne => ?_, fun e hne he => ?_⟩
        · have hother : email ≠ e := fun heq => hne (by rw [heq])
          simp only [Board.sentSince]
          rw [Table.sum_insert, if_neg fun h => hother h.1, Nat.add_zero]
        · exact (Function.update_of_ne (fun heq => hne (by rw [heq])) _ _).trans he
      exact sendInv_free (hwindows.note hknown.2.2 hstamp.1) hframe (fun e he => ⟨_, rfl, he⟩)
        fun a ha => by cases ha
    · cases hr
  · cases hr

theorem StaffEvent.keeps_sends {e : StaffEvent} {r : Board × Option StaffCall}
    (hr : staffCalls.event e s = some r) : sendInv.Keeps s none r := by
  obtain rfl := Option.some.inj hr
  intro m hs _
  have hwindows : s.WindowLaw := hs
  have hend : ∀ a ∈ (none : Option StaffCall), a.reserves = false := fun a ha => by cases ha
  have hgo : ∀ {c' : StaffCall}, c'.reserves = false → ∀ a ∈ some c', a.reserves = false := by
    intro c' hc' a ha
    rwa [← Option.mem_some.1 ha]
  cases e with
  | request payload summary reason actor =>
    refine sendInv_aside hwindows ⟨rfl, rfl, rfl⟩ ?_
    simp only [begin]
    split
    · exact hend
    · exact hgo rfl
  | decide | cancel | executeConfirmed =>
    exact sendInv_aside hwindows ⟨rfl, rfl, rfl⟩ (hgo rfl)
  | confirmByApi | addUser | editUser => exact sendInv_aside hwindows ⟨rfl, rfl, rfl⟩ hend
  | reserveDirectEmail actor recipients =>
    refine sendInv_free hwindows (.same le_rfl rfl rfl) (fun _ h => by cases h) fun a ha => ?_
    simp only [begin] at ha
    split at ha
    · cases ha
    · obtain rfl := Option.mem_some.1 ha
      exact ⟨le_rfl, rfl⟩
  | releaseDirectEmail id =>
    have hfewer : ∀ (p : EmailSend → Prop) [DecidablePred p],
        ((s.sends.eraseAll fun j _ => j == id).sum fun _ r => if p r then r.recipients else 0) ≤
          s.sends.sum fun _ r => if p r then r.recipients else 0 := by
      intro p _
      rw [Table.sum_eraseAll]
      refine Table.sum_le_sum fun k r _ => ?_
      split
      · exact Nat.zero_le _
      · exact le_rfl
    have hframe : s.SendFrame { s with sends := s.sends.eraseAll fun j _ => j == id } none :=
      ⟨le_rfl, fun email since _ => hfewer _, fun _ _ h => h⟩
    exact sendInv_free (fun email start => (hfewer _).trans (hwindows email start)) hframe
      (fun _ h => by cases h) fun a ha => by cases ha
  | pass time =>
    exact sendInv_free hwindows (.same (by simp only [begin]; omega) rfl rfl)
      (fun _ h => by cases h) fun a ha => by cases ha

end Sends

/-! ## Runs -/

/-- Before the first request. -/
def noRequests : Board where
  now := 0
  users := .empty
  approvals := .empty
  sends := .empty
  sending _ := false

/-- In every state that any calls reach the windows hold, and so does the law of the requests if
jobs come for those only that the API has confirmed. -/
theorem staff_lawful {moves : List (Move StaffEvent StaffStep)} {x : Calls Board StaffCall}
    (hrun : staffCalls.machine.run (.idle noRequests) moves = some x) : x.shared.WindowLaw ∧
      (staffCalls.machine.Meets (CallSystem.When (fun _ _ => True) fun _ c s => c.ofApi s = true)
        (.idle noRequests) moves → x.shared.ApprovalLaw) := by
  have hany : staffCalls.machine.Meets (CallSystem.When (fun _ _ => True) fun _ _ _ => True)
      (.idle noRequests) moves := by
    rw [Machine.meets_iff]
    rintro before a after s' - -
    cases a with
    | event e => trivial
    | step i k => exact fun _ _ => trivial
  have hwindows : sendInv.Holds (.idle noRequests) :=
    CallInv.holds_idle fun _ _ => Nat.zero_le _
  have hrows : staffInv.Holds (.idle noRequests) :=
    CallInv.holds_idle ⟨fun hx => by cases hx⟩
  refine ⟨?_, fun hmeets => ?_⟩
  · have hend := hwindows.run (fun _ he => StaffEvent.keeps_sends he)
      (fun _ hc => StaffCall.keeps_sends hc) hany hrun
    exact hend.whole
  · have hend := hrows.run (fun _ he => StaffEvent.keeps he)
      (fun hapi hc => StaffCall.keeps hapi hc) hmeets hrun
    have hsound : x.shared.Sound := hend.whole
    intro id y hx
    exact (hsound.rows hx).lawful

/-! A manager who asks, and an administrator. -/
def manager : StaffActor where
  id := 1
  email := "bia@x.br".toList
  role := "SystemManager"
  admin := false

def admin : StaffActor where
  id := 2
  email := "caio@x.br".toList
  role := "SystemAdmin"
  admin := true

/-- The manager asks for an account to be deleted. -/
def asked : List (Move StaffEvent StaffStep) :=
  [.event (.request (.userDelete 7) "Apagar a conta #7".toList "pedido do titular".toList manager),
    .step 1 .next, .step 1 .next, .step 1 .next]

/-- The API confirms, and the job comes twice; e-mails are reserved beside it. -/
def jobComesTwice : List (Move StaffEvent StaffStep) :=
  asked ++ [.event (.confirmByApi 1 admin), .event (.executeConfirmed 1),
    .event (.executeConfirmed 1), .step 2 .next, .step 3 .next, .step 2 .next, .step 3 .next,
    .step 2 .next, .step 2 .next, .event (.reserveDirectEmail manager 600),
    .event (.reserveDirectEmail manager 500), .step 5 .next, .step 5 .next, .step 5 (.stamped 0),
    .step 4 .next, .step 4 .next]

theorem jobComesTwice_once : ∃ x a, staffCalls.machine.run (.idle noRequests) jobComesTwice = some x ∧
    x.shared.WindowLaw ∧ x.shared.ApprovalLaw ∧ x.shared.approvals.get? 1 = some a ∧
      a.executions = 1 := by
  have hmeets : staffCalls.machine.Meets (CallSystem.When (fun _ _ => True)
      fun _ c s => c.ofApi s = true) (.idle noRequests) jobComesTwice := by
    decide +kernel
  have hend : (staffCalls.machine.run (.idle noRequests) jobComesTwice).any (fun x =>
      (x.shared.approvals.get? 1).any fun a => a.executions == 1) = true := by
    decide +kernel
  obtain ⟨x, hrun, hx⟩ := (Option.any_eq_true _ _).1 hend
  obtain ⟨a, ha, hone⟩ := (Option.any_eq_true _ _).1 hx
  obtain ⟨hwindows, hlaw⟩ := staff_lawful hrun
  exact ⟨x, a, hrun, hwindows, hlaw hmeets, ha, beq_iff_eq.1 hone⟩

/-- An administrator decides, and a job comes while the action runs. -/
def jobComesMeanwhile : List (Move StaffEvent StaffStep) :=
  asked ++ [.event (.decide 1 true none admin), .step 2 .next, .step 2 .next, .step 2 .next,
    .step 2 .next, .event (.executeConfirmed 1), .step 3 .next, .step 3 .next, .step 3 .next]

/-- The action that a job executes fails. -/
def jobFails : List (Move StaffEvent StaffStep) :=
  asked ++ [.event (.confirmByApi 1 admin), .event (.executeConfirmed 1), .step 2 .next,
    .step 2 .next, .step 2 .next, .step 2 (.failed "recusado".toList)]

/-- The request is found in its time, and confirmed after it. -/
def confirmedLate : List (Move StaffEvent StaffStep) :=
  asked ++ [.event (.pass 604800000), .event (.decide 1 true none admin), .step 2 .next,
    .event (.pass 1), .step 2 .next, .step 2 .next, .step 2 .next]

/-- A request is executed twice where a job comes for one that `decide` executes; one that a job
executes is marked as executed before it fails; and the time is that of the look, not of the
decision. -/
theorem job_executes_again :
    (∃ x a, staffCalls.machine.run (.idle noRequests) jobComesMeanwhile = some x ∧
      x.shared.approvals.get? 1 = some a ∧ a.executions = 2) ∧
    (∃ x a, staffCalls.machine.run (.idle noRequests) jobFails = some x ∧
      x.shared.approvals.get? 1 = some a ∧
        a.went = [.pending, .executing, .executed, .failed]) ∧
    ∃ x a t, staffCalls.machine.run (.idle noRequests) confirmedLate = some x ∧
      x.shared.approvals.get? 1 = some a ∧ a.executions = 1 ∧ a.decidedAt = some t ∧
        a.createdAt + APPROVAL_TTL_MS < t := by
  refine ⟨?_, ?_, ?_⟩
  · have hend : (staffCalls.machine.run (.idle noRequests) jobComesMeanwhile).any (fun x =>
        (x.shared.approvals.get? 1).any fun a => a.executions == 2) = true := by
      decide +kernel
    obtain ⟨x, hrun, hx⟩ := (Option.any_eq_true _ _).1 hend
    obtain ⟨a, ha, htwo⟩ := (Option.any_eq_true _ _).1 hx
    exact ⟨x, a, hrun, ha, beq_iff_eq.1 htwo⟩
  · have hend : (staffCalls.machine.run (.idle noRequests) jobFails).any (fun x =>
        (x.shared.approvals.get? 1).any fun a =>
          a.went == [.pending, .executing, .executed, .failed]) = true := by
      decide +kernel
    obtain ⟨x, hrun, hx⟩ := (Option.any_eq_true _ _).1 hend
    obtain ⟨a, ha, hwent⟩ := (Option.any_eq_true _ _).1 hx
    exact ⟨x, a, hrun, ha, beq_iff_eq.1 hwent⟩
  · have hend : (staffCalls.machine.run (.idle noRequests) confirmedLate).any (fun x =>
        (x.shared.approvals.get? 1).any fun a => a.executions == 1 && a.decidedAt.any fun t =>
          decide (a.createdAt + APPROVAL_TTL_MS < t)) = true := by
      decide +kernel
    obtain ⟨x, hrun, hx⟩ := (Option.any_eq_true _ _).1 hend
    obtain ⟨a, ha, hlate⟩ := (Option.any_eq_true _ _).1 hx
    simp only [Bool.and_eq_true, beq_iff_eq] at hlate
    obtain ⟨t, ht, hafter⟩ := (Option.any_eq_true _ _).1 hlate.2
    exact ⟨x, a, t, hrun, ha, hlate.1, ht, of_decide_eq_true hafter⟩

end Barbershop
