import Barbershop.Lib.Calls
import Barbershop.Lib.Table

/-!
# One password, two kinds of reset links

A staff account and the client account that is linked to it have one password. It is changed with a
link of the staff's table (`resetPasswordByToken`), with a link of the clients' table
(`resetPassword`) and from inside with a code (`changePassword`). Each of them is a few statements
after its check, between which other requests run. A link is its row: tokens cannot be guessed and
no two have one hash.

A staff session is accepted while its row is there, a client session while the version in its cookie
is that of the account.

The fields `writes`, `completed` and `changing` are no columns. They record for the statements which
link wrote a password and what had been completed by then, what each completed change had found
created when it began, and how many calls are past their check.
-/

namespace Barbershop

open Lib

/-! ## Rows -/

structure PasswordResetToken where
  used : Bool
  expiresAt : ℤ

/-- A row with the purpose `RESET_PASSWORD`. -/
structure ClientAccountToken where
  usedAt : Option ℤ
  expiresAt : ℤ

/-- A reset link, by its row. -/
inductive ResetLink where
  | staff (id : ℕ)
  | client (id : ℕ)
  deriving DecidableEq

/-- The keys that were free at some time: what was created by then has smaller ones. -/
structure Horizon where
  resetTokens : ℕ
  clientTokens : ℕ
  sessions : ℕ
  cookies : ℕ

def ResetLink.before (m : Horizon) : ResetLink → Prop
  | staff id => id < m.resetTokens
  | client id => id < m.clientTokens

/-- A change of the password that is over: what there was when it began, and the session it kept. -/
structure Completion where
  horizon : Horizon
  kept : Option ℕ

/-- A write of a password under a link; `shared`: of the one of both accounts. -/
structure LinkWrite where
  link : ResetLink
  shared : Bool
  /-- The changes that were over by then. -/
  after : List Completion

structure PasswordBooks where
  now : ℤ
  /-- Of the staff account, and so of both. -/
  password : String
  resetTokens : Table PasswordResetToken
  clientTokens : Table ClientAccountToken
  /-- The rows of `ActiveSession`. -/
  sessions : Table Unit
  sessionVersion : ℕ
  /-- The version in each client session that was opened. -/
  cookies : Table ℕ
  changing : ℕ
  writes : List LinkWrite
  completed : List Completion

namespace PasswordBooks

variable (s : PasswordBooks)

def horizon : Horizon where
  resetTokens := s.resetTokens.next
  clientTokens := s.clientTokens.next
  sessions := s.sessions.next
  cookies := s.cookies.next

/-- A link that `resetPasswordByToken` lets through. -/
def resetTokenOpen (t : PasswordResetToken) : Bool := !t.used && decide (s.now ≤ t.expiresAt)

/-- A link that `consumeToken` lets through. -/
def clientTokenOpen (t : ClientAccountToken) : Bool := t.usedAt.isNone && decide (s.now ≤ t.expiresAt)

/-! ## Statements -/

def useResetTokens : PasswordBooks :=
  { s with resetTokens := s.resetTokens.modifyAll fun _ t => { t with used := true } }

def useClientTokens : PasswordBooks :=
  { s with clientTokens := s.clientTokens.modifyAll fun _ t =>
      { t with usedAt := t.usedAt.or (some s.now) } }

def dropSessions (kept : Option ℕ) : PasswordBooks :=
  { s with sessions := s.sessions.eraseAll fun k _ => !(kept == some k) }

def bumpSessionVersion : PasswordBooks := { s with sessionVersion := s.sessionVersion + 1 }

def setPassword (password : String) : PasswordBooks := { s with password := password }

/-! ### Records -/

def enter : PasswordBooks := { s with changing := s.changing + 1 }

def leave : PasswordBooks := { s with changing := s.changing - 1 }

def wrote (link : ResetLink) (shared : Bool) : PasswordBooks :=
  { s with writes := ⟨link, shared, s.completed⟩ :: s.writes }

def complete (horizon : Horizon) (kept : Option ℕ) : PasswordBooks :=
  { s.leave with completed := ⟨horizon, kept⟩ :: s.completed }

end PasswordBooks

/-! ## The requests -/

/-- What happens beside the calls, and the beginning of a call. -/
inductive PasswordEvent where
  | pass (time : ℕ)
  | openSession
  /-- A client session with a version that was read before. -/
  | openClientSession (version : ℕ)
  /-- `forgotPass` of the staff -/
  | forgotPass (expiresAt : ℤ)
  | requestPasswordReset (expiresAt : ℤ)
  | resetPasswordByToken (link : ℕ) (newPassword : String)
  | changePassword (kept : Option ℕ) (oldPassword newPassword : String)
  | resetPassword (link : ℕ) (newPassword : String)

/-- Where a call is; `since` is what there was when it began. -/
inductive PasswordCall where
  -- `createToken`
  | replacing (expiresAt : ℤ)
  | creating (expiresAt : ℤ)
  -- `resetPasswordByToken`
  | finding (since : Horizon) (link : ℕ) (newPassword : String)
  | expiring (link : ℕ)
  | resetting (since : Horizon) (link : ℕ) (newPassword : String)
  | spending (since : Horizon) (link : ℕ)
  -- `changePassword`
  | verifying (since : Horizon) (kept : Option ℕ) (oldPassword newPassword : String)
  | comparing (since : Horizon) (kept : Option ℕ) (oldPassword newPassword : String)
  | changing (since : Horizon) (kept : Option ℕ) (newPassword : String)
  -- `revokeSessions`
  | revoking (since : Horizon) (kept : Option ℕ)
  | bumping (since : Horizon) (kept : Option ℕ)
  -- `resetPassword` of the client
  | reading (since : Horizon) (link : ℕ) (newPassword : String)
  | consuming (since : Horizon) (link : ℕ) (newPassword : String)
  | linking (since : Horizon) (link : ℕ) (newPassword : String)
  | clientResetting (since : Horizon) (link : ℕ) (newPassword : String)
  | clientRevoking (since : Horizon)
  | clientUsing (since : Horizon)
  /-- `own`: the link, where no staff account is linked and the password is the client's own. -/
  | clientBumping (since : Horizon) (own : Option ℕ)
  | clientMarking (since : Horizon) (shared : Bool)

namespace PasswordEvent

def step (e : PasswordEvent) (s : PasswordBooks) : Option (PasswordBooks × Option PasswordCall) :=
  match e with
  | pass time => some ({ s with now := s.now + time }, none)
  | openSession => some ({ s with sessions := s.sessions.insert () }, none)
  | openClientSession version =>
    if version ≤ s.sessionVersion then some ({ s with cookies := s.cookies.insert version }, none)
    else none
  | forgotPass expiresAt =>
    some ({ s with resetTokens := s.resetTokens.insert ⟨false, expiresAt⟩ }, none)
  | requestPasswordReset expiresAt => some (s, some (.replacing expiresAt))
  | resetPasswordByToken link newPassword => some (s, some (.finding s.horizon link newPassword))
  | changePassword kept oldPassword newPassword =>
    some (s, some (.verifying s.horizon kept oldPassword newPassword))
  | resetPassword link newPassword => some (s, some (.reading s.horizon link newPassword))

end PasswordEvent

namespace PasswordCall

/-- One statement of a call. `ok` is what checks beside these tables say: that the new password is a
valid one, that the code is right, that the staff account is active. -/
def step (ok : Bool) (c : PasswordCall) (s : PasswordBooks) :
    Option (PasswordBooks × Option PasswordCall) :=
  match c with
  | replacing expiresAt => some (s.useClientTokens, some (creating expiresAt))
  | creating expiresAt =>
    some ({ s with clientTokens := s.clientTokens.insert ⟨none, expiresAt⟩ }, none)
  | finding since link newPassword =>
    match s.resetTokens.get? link with
    | none => some (s, none)
    | some t =>
      if t.used then some (s, none)
      else if t.expiresAt < s.now then some (s, some (expiring link))
      else if ok && newPassword != s.password then
        some (s.enter, some (resetting since link newPassword))
      else some (s, none)
  | expiring link =>
    some ({ s with resetTokens := s.resetTokens.modify link fun t => { t with used := true } }, none)
  | resetting since link newPassword =>
    some ((s.setPassword newPassword).wrote (.staff link) true, some (spending since link))
  | spending since _ => some (s.useResetTokens, some (revoking since none))
  | verifying since kept oldPassword newPassword =>
    if ok then some (s.enter, some (comparing since kept oldPassword newPassword)) else some (s, none)
  | comparing since kept oldPassword newPassword =>
    if oldPassword = s.password ∧ ok = true then some (s, some (changing since kept newPassword))
    else some (s.leave, none)
  | changing since kept newPassword => some (s.setPassword newPassword, some (revoking since kept))
  | revoking since kept => some (s.dropSessions kept, some (bumping since kept))
  | bumping since kept => some (s.bumpSessionVersion.complete since kept, none)
  | reading since link newPassword =>
    match s.clientTokens.get? link with
    | none => some (s, none)
    | some t =>
      if s.clientTokenOpen t && ok then some (s, some (consuming since link newPassword))
      else some (s, none)
  | consuming since link newPassword =>
    match s.clientTokens.tryModify link (·.usedAt.isNone) fun t => { t with usedAt := some s.now } with
    | none => some (s, none)
    | some t =>
      some (({ s with clientTokens := t } : PasswordBooks).enter,
        some (linking since link newPassword))
  | linking since link newPassword =>
    -- `linkedStaff`
    if ok then some (s, some (clientResetting since link newPassword))
    else some (s, some (clientBumping since (some link)))
  | clientResetting since link newPassword =>
    some ((s.setPassword newPassword).wrote (.client link) true, some (clientRevoking since))
  | clientRevoking since => some (s.dropSessions none, some (clientUsing since))
  | clientUsing since => some (s.useResetTokens, some (clientBumping since none))
  | clientBumping since own =>
    let written := own.elim s fun link => s.wrote (.client link) false
    some (written.bumpSessionVersion, some (clientMarking since own.isNone))
  | clientMarking since shared =>
    let marked := s.useClientTokens
    some (if shared then marked.complete since none else marked.leave, none)

end PasswordCall

def passwords : CallSystem PasswordBooks PasswordCall PasswordEvent Bool :=
  ⟨PasswordEvent.step, PasswordCall.step⟩

/-! ## Where it goes right -/

namespace PasswordBooks

/-- No link of the staff's table from before the horizon is open. -/
def noResetToken (m : Horizon) (s : PasswordBooks) : Bool :=
  !s.resetTokens.any fun k t => decide (k < m.resetTokens) && s.resetTokenOpen t

/-- No link of the clients' table from before the horizon is open. -/
def noClientToken (m : Horizon) (s : PasswordBooks) : Bool :=
  !s.clientTokens.any fun k t => decide (k < m.clientTokens) && s.clientTokenOpen t

end PasswordBooks

/-- A call passes its check while no other is past its own. A reset by the staff's link finds no
earlier link of the client open, a change with a code none of either side, and a client's link is
consumed before it expires. -/
def PasswordCall.apart (ok : Bool) (c : PasswordCall) (s : PasswordBooks) : Bool :=
  match c with
  | finding since link newPassword =>
    !((s.resetTokens.get? link).any s.resetTokenOpen && ok && newPassword != s.password) ||
      decide (s.changing = 0) && s.noClientToken since
  | verifying since _ _ _ =>
    !ok || decide (s.changing = 0) && s.noResetToken since && s.noClientToken since
  | consuming _ link _ =>
    !(s.clientTokens.get? link).any (·.usedAt.isNone) ||
      decide (s.changing = 0) && (s.clientTokens.get? link).any s.clientTokenOpen
  | _ => true

end Barbershop
