import Barbershop.Lib.Calls
import Barbershop.Payroll.Payout

/-!
# Months of Pro by referral

A new account claims the code of a professional, in a transaction that locks both accounts: it checks
that the other was not invited by this one and what the code has earned, writes the referral, and adds
a month to the Pro of the account. The inviter's month is released later, whenever a status is looked
at, once the invited account has attended: for each referral in a transaction of its own, under the
inviter's lock. What a transaction has written is seen by others when it commits. Its row locks are
left out, as they only exclude runs.

The field `extensions` is no column: every change of a `proUntil`, with what it was.
-/

namespace Barbershop

open Lib

/-! ## Dates -/

/-- `setUTCMonth(getUTCMonth() + months)`; a day that the month does not have runs over. -/
def addUTCMonths (t : ℤ) (months : ℕ) : ℤ :=
  let day := t / DAY_MS
  let (year, month) := utcMonth day
  let date := day - utcDay year month 1 + 1
  utcDay year (month + months) date * DAY_MS + t % DAY_MS

def PRO_REFERRAL_MONTHS : ℕ := 1

def PRO_REFERRAL_NEW_ACCOUNT_DAYS : ℤ := 30

def PRO_REFERRAL_MAX_MONTHS : ℕ := 12

def isNewProAccount (createdAt now : ℤ) : Bool :=
  decide (now ≤ createdAt + PRO_REFERRAL_NEW_ACCOUNT_DAYS * DAY_MS)

/-- Months are added from now, or from the end of the Pro that is on. -/
def extendProUntil (current : Option ℤ) (months : ℕ) (now : ℤ) : ℤ :=
  addUTCMonths ((current.filter fun t => decide (now < t)).getD now) months

/-! ## Rows -/

structure ProProfile where
  phone : Option String
  idDocNumber : Option String
  createdAt : ℤ
  professional : Bool
  proReferralCode : Option String

structure ProAccount extends ProProfile where
  proUntil : Option ℤ

/-- The same document or phone, without punctuation. -/
def sameIdentity (a b : ProProfile) : Bool :=
  let digits := fun v : Option String => (v.getD "").toList.filter Char.isDigit
  let doc := fun v : Option String => ((v.getD "").toList.filter Char.isAlphanum).map Char.toUpper
  let docA := doc a.idDocNumber
  let phoneA := digits a.phone
  if 5 ≤ docA.length ∧ docA ≠ "SOCIAL".toList ∧ docA = doc b.idDocNumber then true
  else decide (8 ≤ phoneA.length ∧ phoneA = digits b.phone)

structure ProReferral where
  inviterUserId : ℕ
  invitedUserId : ℕ
  months : ℕ
  inviterGrantedAt : Option ℤ

/-- What a `proUntil` was moved for. -/
inductive ProReason where
  | claimed | granted
  deriving DecidableEq

structure ProExtension where
  userId : ℕ
  referral : ℕ
  reason : ProReason
  before : Option ℤ
  after : ℤ
  deriving DecidableEq

/-- The committed rows, and the advisory locks that are taken. -/
structure ProBooks where
  users : Table ProAccount
  referrals : Table ProReferral
  locks : List ℤ
  extensions : List ProExtension

namespace ProBooks

variable (s : ProBooks)

/-- The months of all referrals of an inviter. -/
def earnedMonths (userId : ℕ) : ℕ :=
  s.referrals.sum fun _ r => if r.inviterUserId = userId then r.months else 0

/-- `pg_advisory_xact_lock` by a transaction that holds some keys; `none`: it waits. -/
def lock (held : List ℤ) (key : ℤ) : Option ProBooks :=
  if key ∈ held then some s
  else if key ∈ s.locks then none
  else some { s with locks := key :: s.locks }

/-- A transaction ends. -/
def unlock (held : List ℤ) : ProBooks :=
  { s with locks := s.locks.filter fun key => !held.contains key }

def extend (userId referral : ℕ) (reason : ProReason) (proUntil : ℤ) : ProBooks :=
  { s with
    users := s.users.modify userId ({ · with proUntil := some proUntil })
    extensions := {
      userId := userId
      referral := referral
      reason := reason
      before := (s.users.get? userId).bind (·.proUntil)
      after := proUntil } :: s.extensions }

end ProBooks

/-! ## Requests -/

/-- The transaction of a claim; `held` are the keys it has locked. -/
structure ProClaim where
  userId : ℕ
  inviterId : ℕ
  now : ℤ
  held : List ℤ

/-- The transaction that releases a referral; `rest`: those that come after it. -/
structure ProRelease where
  inviterUserId : ℕ
  now : ℤ
  id : ℕ
  months : ℕ
  rest : List (ℕ × ProReferral)

/-- Where a request is, by the statement that is next. -/
inductive ProCall where
  -- `claim`; the code is trimmed and in upper case
  | claim (userId : ℕ) (code : String)
  | findingClaimant (userId inviterId : ℕ) (inviter : ProProfile)
  | locking (t : ProClaim) (rest : List ℕ)
  | crossing (t : ProClaim)
  | earning (t : ProClaim)
  | creating (t : ProClaim)
  | granting (t : ProClaim)
  | committing (t : ProClaim) (proUntil : ℤ)
  -- `releaseInviterMonths`
  | finding (inviterUserId : ℕ)
  | releasing (inviterUserId : ℕ) (now : ℤ) (pending : List (ℕ × ProReferral))
  | lockingInviter (t : ProRelease)
  | claiming (t : ProRelease)
  | reading (t : ProRelease)
  | granted (t : ProRelease) (proUntil : ℤ)

/-- What a step finds beside the rows: the time, whether the invited account has attended, and whether
the request fails there. -/
structure ProChance where
  now : ℤ := 0
  active : Bool := true
  fails : Bool := false

/-- What happens beside the requests. -/
inductive ProEvent where
  | create (profile : ProProfile)
  | update (userId : ℕ) (profile : ProProfile)
  | claim (userId : ℕ) (code : String)
  | releaseInviterMonths (inviterUserId : ℕ)

def ProEvent.step (e : ProEvent) (s : ProBooks) : Option (ProBooks × Option ProCall) :=
  match e with
  | create profile =>
    some ({ s with users := s.users.insert { toProProfile := profile, proUntil := none } }, none)
  | update userId profile =>
    some ({ s with users := s.users.modify userId ({ · with toProProfile := profile }) }, none)
  | claim userId code => some (s, some (.claim userId code))
  | releaseInviterMonths inviterUserId => some (s, some (.finding inviterUserId))

section Step

/- The 32 bits of an account's lock. -/
variable (hashtext : ℕ → ℤ)

namespace ProCall

/-- The locks that a request has. -/
def held : ProCall → List ℤ
  | locking t _ | crossing t | earning t | creating t | granting t | committing t _ => t.held
  | claiming t | reading t | granted t _ => [hashtext t.inviterUserId]
  | _ => []

def step (k : ProChance) (c : ProCall) (s : ProBooks) : Option (ProBooks × Option ProCall) :=
  if k.fails then some (s.unlock (c.held hashtext), none)
  else match c with
  | claim userId code =>
    if code = "" then some (s, none)
    else match s.users.find? fun _ u => u.proReferralCode == some code with
    | none => some (s, none)
    | some (inviterId, inviter) =>
      if inviterId = userId ∨ inviter.professional = false then some (s, none)
      else some (s, some (findingClaimant userId inviterId inviter.toProProfile))
  | findingClaimant userId inviterId inviter =>
    match s.users.get? userId with
    | none => some (s, none)
    | some claimant =>
      if isNewProAccount claimant.createdAt k.now = false ∨
          sameIdentity claimant.toProProfile inviter = true then some (s, none)
      else some (s, some (locking ⟨userId, inviterId, k.now, []⟩
        [min inviterId userId, max inviterId userId]))
  | locking t [] => some (s, some (crossing t))
  | locking t (userId :: rest) =>
    (s.lock t.held (hashtext userId)).map fun s' =>
      (s', some (locking { t with held := hashtext userId :: t.held } rest))
  | crossing t =>
    if s.referrals.any fun _ r => r.inviterUserId == t.userId && r.invitedUserId == t.inviterId then
      some (s.unlock t.held, none)
    else some (s, some (earning t))
  | earning t =>
    if PRO_REFERRAL_MAX_MONTHS < s.earnedMonths t.inviterId + PRO_REFERRAL_MONTHS then
      some (s.unlock t.held, none)
    else some (s, some (creating t))
  -- the unique key of `invitedUserId`
  | creating t =>
    if s.referrals.any fun _ r => r.invitedUserId == t.userId then some (s.unlock t.held, none)
    else some (s, some (granting t))
  | granting t =>
    match s.users.get? t.userId with
    | none => some (s.unlock t.held, none)
    | some u =>
      some (s, some (committing t (extendProUntil u.proUntil PRO_REFERRAL_MONTHS t.now)))
  | committing t proUntil =>
    let s' := { s with
      referrals := s.referrals.insert ⟨t.inviterId, t.userId, PRO_REFERRAL_MONTHS, none⟩ }
    some ((s'.extend t.userId s.referrals.next .claimed proUntil).unlock t.held,
      some (finding t.userId))
  | finding inviterUserId =>
    some (s, some (releasing inviterUserId k.now (s.referrals.filter fun _ r =>
      r.inviterUserId == inviterUserId && r.inviterGrantedAt.isNone)))
  | releasing _ _ [] => some (s, none)
  | releasing inviterUserId now ((id, r) :: rest) =>
    if k.active then some (s, some (lockingInviter ⟨inviterUserId, now, id, r.months, rest⟩))
    else some (s, some (releasing inviterUserId now rest))
  | lockingInviter t =>
    (s.lock [] (hashtext t.inviterUserId)).map fun s' => (s', some (claiming t))
  | claiming t =>
    if (s.referrals.get? t.id).any (·.inviterGrantedAt.isNone) then some (s, some (reading t))
    else some (s.unlock [hashtext t.inviterUserId],
      some (releasing t.inviterUserId t.now t.rest))
  | reading t =>
    match s.users.get? t.inviterUserId with
    | none => some (s.unlock [hashtext t.inviterUserId], none)
    | some u => some (s, some (granted t (extendProUntil u.proUntil t.months t.now)))
  | granted t proUntil =>
    let s' := { s with
      referrals := s.referrals.modify t.id ({ · with inviterGrantedAt := some t.now }) }
    some ((s'.extend t.inviterUserId t.id .granted proUntil).unlock [hashtext t.inviterUserId],
      some (releasing t.inviterUserId t.now t.rest))

end ProCall

def proReferrals : CallSystem ProBooks ProCall ProEvent ProChance :=
  ⟨ProEvent.step, ProCall.step hashtext⟩

end Step

/-- Accounts that have not referred each other yet. -/
def ProBooks.initial (users : Table ProAccount) : ProBooks where
  users := users
  referrals := .empty
  locks := []
  extensions := []

end Barbershop
