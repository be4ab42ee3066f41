import Mathlib
import Barbershop.Agenda.Phone
import Barbershop.Lib.Calls
import Barbershop.Lib.Classes
import Barbershop.Model.Db

/-!
# Friend invites

An account invites an e-mail; the account that is made with this e-mail afterwards accepts one
invite and gets a free month, and its first paid plan gives the inviter one. `acceptInvite` is one
transaction under row locks: it claims the invite, looks for another accepted one, rejects the
pending invites of the e-mail and gives the coupon. `rewardInviterOnFirstPayment` runs in the
transaction of a payment, under an advisory lock on the inviter.

Each statement of a transaction is a step and sees what is committed when it begins. A row that a
transaction has written is locked until it ends: whoever else wants to write it waits, and then
looks at the row again. Transactions that wait for each other are broken off, as any other may be.
-/

namespace Barbershop

open Lib

/-! ## E-mails -/

abbrev EmailText := List Char

/-- `toLowerCase` -/
def lowerCase (email : EmailText) : EmailText := email.map Char.toLower

theorem lowerCase_lowerCase (email : EmailText) : lowerCase (lowerCase email) = lowerCase email := by
  simp [lowerCase]

/-- `/^[^\s@]+@[^\s@]+\.[^\s@]+$/` -/
def isEmail (email : EmailText) : Bool :=
  let name := email.takeWhile (· != '@')
  let domain := (email.dropWhile (· != '@')).drop 1
  !name.isEmpty && email.all (fun c => !isBlank c) && !domain.contains '@' &&
    (domain.drop 1).dropLast.contains '.'

/-- `friendEmailOf` -/
def friendEmailOf (raw : EmailText) : Result EmailText :=
  let email := lowerCase (trimmed raw)
  if isEmail email then .ok email else .error (.badRequest "E-mail inválido")

/-! ## Rows -/

def INVITES_PER_DAY : ℕ := 5

def MAX_REWARDS : ℕ := 12

/-- An account; `confirmed` is `emailConfirmedOf`, and `paid` that a payment of it is recorded. -/
structure InviteUser where
  email : EmailText
  createdAt : ℤ
  confirmed : Bool
  isActive : Bool
  paid : Bool

inductive InviteStatus where
  | pending | accepted | rejected
  deriving DecidableEq

structure FriendInvite where
  createdAt : ℤ
  inviterId : ℕ
  friendEmail : EmailText
  status : InviteStatus
  expiresAt : ℤ
  acceptedByUserId : Option ℕ
  inviterCouponId : Option ℕ
  friendCouponId : Option ℕ

inductive InviteCouponType where
  | inviter | friend
  deriving DecidableEq

/-- A coupon of `createFriendInviteCoupon`, given to an account; its code carries the invite. -/
structure InviteCoupon where
  userId : ℕ
  type : InviteCouponType
  inviteId : ℕ

/-- The committed rows; `rowLock` is the acceptance, by its invite, that has locked an invite, and
`rewardLock` says which inviters' advisory locks are taken. -/
structure FriendBooks where
  now : ℤ
  users : Table InviteUser
  invites : Table FriendInvite
  coupons : Table InviteCoupon
  rowLock : ℕ → Option ℕ
  rewardLock : ℕ → Bool

/-- The start of the day of an instant, in UTC. -/
def startOfDay (now : ℤ) : ℤ := now - now % 86400000

namespace FriendBooks

variable (s : FriendBooks)

/-- The invites of an account that were rewarded. -/
def rewards (userId : ℕ) : ℕ :=
  (s.invites.filter fun _ x => x.inviterId == userId && x.inviterCouponId.isSome).length

/-- Another invite that the account has accepted. -/
def prior (id userId : ℕ) : Bool :=
  s.invites.any fun j x => j != id && x.status == .accepted && x.acceptedByUserId == some userId

/-- The other pending invites of an e-mail. -/
def others (id : ℕ) (friendEmail : EmailText) : List ℕ :=
  (s.invites.filter fun j x => j != id && x.status == .pending && x.friendEmail == friendEmail).map
    Prod.fst

/-- The transaction that accepts an invite ends: its rows are free. -/
def release (id : ℕ) : FriendBooks :=
  { s with rowLock := fun j => if s.rowLock j = some id then none else s.rowLock j }

/-- An acceptance commits: the other rows it has locked are rejected, and the account gets its
coupon. -/
def accept (id userId : ℕ) : FriendBooks :=
  { s.release id with
    invites := s.invites.modifyAll fun j x =>
      if s.rowLock j = some id then
        if j = id then { x with
          status := .accepted
          acceptedByUserId := some userId
          friendCouponId := some s.coupons.next }
        else { x with
          status := .rejected
          acceptedByUserId := some userId }
      else x
    coupons := s.coupons.insert { userId := userId, type := .friend, inviteId := id } }

/-- A conditional rejection of a pending invite. -/
def reject (id userId : ℕ) : FriendBooks :=
  { s with invites := s.invites.modify id fun x =>
      if x.status = .pending then { x with
        status := .rejected
        acceptedByUserId := some userId }
      else x }

def record (userId : ℕ) : FriendBooks :=
  { s with users := s.users.modify userId fun u => { u with paid := true } }

def unlockReward (inviterId : ℕ) : FriendBooks :=
  { s with rewardLock := Function.update s.rewardLock inviterId false }

/-- The inviter's coupon, in the transaction of the payment; `none`: the invite was rewarded. -/
def grant (friendId id inviterId : ℕ) : Option FriendBooks :=
  (s.invites.tryModify id (fun x => x.inviterCouponId.isNone) fun x => { x with
    inviterCouponId := some s.coupons.next }).map fun invites =>
      (({ s with
        invites := invites
        coupons := s.coupons.insert
          { userId := inviterId, type := .inviter, inviteId := id } } : FriendBooks).record
            friendId).unlockReward inviterId

end FriendBooks

/-! ## Calls -/

/-- The reads of `createInvite`, in order. -/
inductive InviteRead where
  | existing | user | registered | counts

/-- Where a call is. -/
inductive FriendCall where
  /-- `createInvite`, before one of its reads. -/
  | checking (r : InviteRead) (userId : ℕ) (email : EmailText)
  | inserting (userId : ℕ) (email : EmailText)
  /-- `acceptInvite`: the invite is read, the account is not. -/
  | reading (id : ℕ) (seen : FriendInvite) (userId : ℕ)
  /-- The account is older than the invite. -/
  | turningDown (id userId : ℕ)
  | claiming (id : ℕ) (seen : FriendInvite) (userId : ℕ)
  | looking (id : ℕ) (seen : FriendInvite) (userId : ℕ)
  /-- The rest of the rows that the rejection of the others has found. -/
  | rejecting (id userId : ℕ) (rest : List ℕ)
  /-- The transaction of a payment; `paid` is whether Stripe took money. -/
  | paying (friendId : ℕ) (paid : Bool)
  | locking (friendId id inviterId : ℕ)
  | counting (friendId id inviterId : ℕ)
  | granting (friendId id inviterId : ℕ)

namespace FriendCall

/-- The next step of `createInvite`, or its refusal. -/
def check (s : FriendBooks) (userId : ℕ) (email : EmailText) : InviteRead → Result FriendCall
  | .existing => do
    refuseIf ((s.invites.any fun _ x => x.inviterId == userId && x.friendEmail == email &&
      x.status != .rejected) = true) (.badRequest "Você já convidou este email")
    return checking .user userId email
  | .user => do
    let user ← orRefuse (s.users.get? userId) (.notFound "Usuário não encontrado")
    refuseIf (user.isActive = false ∨ user.confirmed = false)
      (.badRequest "Confirme seu e-mail antes de convidar alguém.")
    refuseIf (lowerCase user.email = email) (.badRequest "Você não pode convidar a si mesmo")
    return checking .registered userId email
  | .registered => do
    refuseIf ((s.users.any fun _ u => lowerCase u.email == lowerCase email) = true)
      (.badRequest "Este e-mail já tem conta.")
    return checking .counts userId email
  | .counts => do
    let sentToday := (s.invites.filter fun _ x =>
      x.inviterId == userId && decide (startOfDay s.now ≤ x.createdAt)).length
    refuseIf (INVITES_PER_DAY ≤ sentToday)
      (.badRequest "Você já enviou o limite de convites de hoje.")
    refuseIf (MAX_REWARDS ≤ s.rewards userId)
      (.badRequest "Você já atingiu o limite de meses grátis por convite.")
    return inserting userId email

/-- A month, from now. -/
def INVITE_DAYS_MS : ℤ := 30 * 86400000

def newInvite (s : FriendBooks) (userId : ℕ) (email : EmailText) : FriendInvite where
  createdAt := s.now
  inviterId := userId
  friendEmail := email
  status := .pending
  expiresAt := s.now + INVITE_DAYS_MS
  acceptedByUserId := none
  inviterCouponId := none
  friendCouponId := none

/-- The read of the account by `acceptInvite`. -/
def read (s : FriendBooks) (id : ℕ) (seen : FriendInvite) (userId : ℕ) : Result FriendCall := do
  let user ← orRefuse (s.users.get? userId) (.notFound "Usuário não encontrado")
  refuseIf (lowerCase user.email ≠ lowerCase seen.friendEmail)
    (.badRequest "Este convite não é para você")
  refuseIf (user.confirmed = false) (.badRequest "Confirme seu e-mail para aceitar o convite.")
  return if user.createdAt < seen.createdAt then turningDown id userId else claiming id seen userId

/-- The invite of a friend that is yet to be rewarded, if its inviter is active. -/
def toReward (s : FriendBooks) (friendId : ℕ) : Option (ℕ × FriendInvite) :=
  (s.invites.find? fun _ x => x.acceptedByUserId == some friendId && x.status == .accepted &&
    x.inviterCouponId.isNone).filter fun row =>
      (s.users.get? row.2.inviterId).any (·.isActive)

/-- The transaction of a call is broken off. -/
def rollback (c : FriendCall) (s : FriendBooks) : FriendBooks :=
  match c with
  | looking id _ _ | rejecting id _ _ => s.release id
  | counting _ _ inviterId | granting _ _ inviterId => s.unlockReward inviterId
  | _ => s

/-- `none`: the call waits for a lock. -/
def step (goesOn : Bool) (c : FriendCall) (s : FriendBooks) :
    Option (FriendBooks × Option FriendCall) :=
  if goesOn then
    match c with
    | checking r userId email => some (s, (check s userId email r).toOption)
    | inserting userId email =>
      -- unique on inviter and e-mail
      if s.invites.any fun _ x => x.inviterId == userId && x.friendEmail == email then some (s, none)
      else some ({ s with invites := s.invites.insert (newInvite s userId email) }, none)
    | reading id seen userId => some (s, (read s id seen userId).toOption)
    | turningDown id userId =>
      if (s.rowLock id).isSome then none else some (s.reject id userId, none)
    | claiming id seen userId =>
      if (s.rowLock id).isSome then none
      else if (s.invites.get? id).any (·.status == .pending) then
        some ({ s with rowLock := Function.update s.rowLock id (some id) },
          some (looking id seen userId))
      else some (s, none)
    | looking id seen userId =>
      if s.prior id userId then some ((s.reject id userId).release id, none)
      else some (s, some (rejecting id userId (s.others id seen.friendEmail)))
    | rejecting id userId [] => some (s.accept id userId, none)
    | rejecting id userId (j :: rest) =>
      if (s.rowLock j).any (· != id) then none
      else if (s.invites.get? j).any (·.status == .pending) then
        some ({ s with rowLock := Function.update s.rowLock j (some id) },
          some (rejecting id userId rest))
      else some (s, some (rejecting id userId rest))
    | paying friendId paid =>
      match if paid then toReward s friendId else none with
      | none => some (s.record friendId, none)
      | some (id, x) => some (s, some (locking friendId id x.inviterId))
    | locking friendId id inviterId =>
      if s.rewardLock inviterId then none
      else some ({ s with rewardLock := Function.update s.rewardLock inviterId true },
        some (counting friendId id inviterId))
    | counting friendId id inviterId =>
      if MAX_REWARDS ≤ s.rewards inviterId then
        some ((s.record friendId).unlockReward inviterId, none)
      else some (s, some (granting friendId id inviterId))
    | granting friendId id inviterId =>
      -- an invite that was rewarded fails the payment's transaction
      some ((s.grant friendId id inviterId).getD (s.unlockReward inviterId), none)
  else some (c.rollback s, none)

end FriendCall

inductive FriendEvent where
  | createInvite (userId : ℕ) (friendEmail : EmailText)
  | acceptInvite (id userId : ℕ)
  | pay (friendId : ℕ) (paid : Bool)
  /-- An account is made; what it asks for comes later than this instant. -/
  | register (email : EmailText) (confirmed : Bool)
  | confirmEmail (userId : ℕ)
  | setActive (userId : ℕ) (isActive : Bool)
  | pass (time : ℕ)

/-- The read of the invite by `acceptInvite`. -/
def FriendBooks.invited (s : FriendBooks) (id userId : ℕ) : Result FriendCall := do
  let invite ← orRefuse (s.invites.get? id) (.notFound "Convite não encontrado")
  refuseIf (invite.status ≠ .pending) (.badRequest "Convite já foi processado")
  refuseIf (invite.expiresAt < s.now) (.badRequest "Convite expirado")
  refuseIf (invite.inviterId = userId) (.badRequest "Você não pode aceitar seu próprio convite")
  return .reading id invite userId

def FriendEvent.begin (e : FriendEvent) (s : FriendBooks) : FriendBooks × Option FriendCall :=
  match e with
  | createInvite userId friendEmail =>
    (s, (friendEmailOf friendEmail).toOption.map (.checking .existing userId))
  | acceptInvite id userId => (s, (s.invited id userId).toOption)
  | pay friendId paid => (s, some (.paying friendId paid))
  | register email confirmed =>
    ({ s with
      now := s.now + 1
      users := s.users.insert {
        email := email
        createdAt := s.now
        confirmed := confirmed
        isActive := true
        paid := false } }, none)
  | confirmEmail userId =>
    ({ s with users := s.users.modify userId fun u => { u with confirmed := true } }, none)
  | setActive userId isActive =>
    ({ s with users := s.users.modify userId fun u => { u with isActive := isActive } }, none)
  | pass time => ({ s with now := s.now + time }, none)

/-- Any requests and payments at once. -/
def friendCalls : CallSystem FriendBooks FriendCall FriendEvent Bool where
  event e s := some (e.begin s)
  step k c s := c.step k s

/-! ## The law -/

/-- Coupons of a type that an account has. -/
def FriendBooks.couponsOf (s : FriendBooks) (type : InviteCouponType) (userId : ℕ) : Set ℕ :=
  {id | ∃ c, s.coupons.get? id = some c ∧ c.type = type ∧ c.userId = userId}

/-- An invite that its friend has accepted and paid for. -/
def FriendBooks.Earned (s : FriendBooks) (id inviterId : ℕ) : Prop :=
  ∃ x friendId u, s.invites.get? id = some x ∧ x.status = .accepted ∧ x.inviterId = inviterId ∧
    x.acceptedByUserId = some friendId ∧ s.users.get? friendId = some u ∧ u.paid = true

structure FriendRewards (s : FriendBooks) : Prop where
  /-- An account gets one coupon as a friend at most. -/
  friend : ∀ userId, (s.couponsOf .friend userId).encard ≤ 1
  /-- An invite gives one coupon to its inviter at most, once the friend has paid. -/
  inviter : ∀ {i c}, s.coupons.get? i = some c → c.type = .inviter → s.Earned c.inviteId c.userId ∧
    ∀ {j d}, s.coupons.get? j = some d → d.type = .inviter → d.inviteId = c.inviteId → i = j
  /-- An account gets `MAX_REWARDS` coupons as an inviter at most. -/
  limit : ∀ userId, (s.couponsOf .inviter userId).encard ≤ MAX_REWARDS
  /-- An account has accepted one invite at most. -/
  accepted : ∀ {i j x y userId}, s.invites.get? i = some x → s.invites.get? j = some y →
    x.status = .accepted → y.status = .accepted → x.acceptedByUserId = some userId →
      y.acceptedByUserId = some userId → i = j

/-! ## The invariant -/

structure FriendSound (s : FriendBooks) : Prop where
  accepted : ∀ {i j x y userId}, s.invites.get? i = some x → s.invites.get? j = some y →
    x.status = .accepted → y.status = .accepted → x.acceptedByUserId = some userId →
      y.acceptedByUserId = some userId → i = j
  acceptor : ∀ {i x}, s.invites.get? i = some x → x.status = .accepted →
    ∃ userId u, x.acceptedByUserId = some userId ∧ s.users.get? userId = some u
  lower : ∀ {i x}, s.invites.get? i = some x → lowerCase x.friendEmail = x.friendEmail
  users : ∀ {i u}, s.users.get? i = some u → u.createdAt < s.now
  /-- A locked row is pending, and who has locked it has locked its own. -/
  locked : ∀ {j i}, s.rowLock j = some i → s.rowLock i = some i ∧
    ∃ x, s.invites.get? j = some x ∧ x.status = .pending
  friend : ∀ {i c}, s.coupons.get? i = some c → c.type = .friend → ∃ x,
    s.invites.get? c.inviteId = some x ∧ x.status = .accepted ∧
      x.acceptedByUserId = some c.userId ∧ x.friendCouponId = some i
  inviter : ∀ {i c}, s.coupons.get? i = some c → c.type = .inviter →
    s.Earned c.inviteId c.userId ∧
      ∃ x, s.invites.get? c.inviteId = some x ∧ x.inviterCouponId = some i
  limit : ∀ userId, s.rewards userId ≤ MAX_REWARDS

theorem FriendSound.rewards {s : FriendBooks} (h : FriendSound s) : FriendRewards s where
  friend userId := by
    rw [Set.encard_le_one_iff]
    rintro i j ⟨c, hc, htype, rfl⟩ ⟨d, hd, htype', hsame⟩
    obtain ⟨x, hx, haccepted, hby, hi⟩ := h.friend hc htype
    obtain ⟨y, hy, haccepted', hby', hj⟩ := h.friend hd htype'
    rw [hsame] at hby'
    have heq := h.accepted hx hy haccepted haccepted' hby hby'
    rw [heq, hy] at hx
    obtain rfl := Option.some.inj hx
    exact Option.some.inj (hi.symm.trans hj)
  inviter hc htype := by
    obtain ⟨hearned, x, hx, hi⟩ := h.inviter hc htype
    refine ⟨hearned, fun hd htype' hsame => ?_⟩
    obtain ⟨-, y, hy, hj⟩ := h.inviter hd htype'
    rw [hsame, hx] at hy
    obtain rfl := Option.some.inj hy
    exact Option.some.inj (hi.symm.trans hj)
  limit userId := by
    -- the coupons of an inviter are of different invites
    let inviteOf (i : ℕ) : ℕ := (s.coupons.get? i).elim 0 (·.inviteId)
    have hinj : Set.InjOn inviteOf (s.couponsOf .inviter userId) := by
      rintro i ⟨c, hc, htype, -⟩ j ⟨d, hd, htype', -⟩ heq
      obtain ⟨-, x, hx, hi⟩ := h.inviter hc htype
      obtain ⟨-, y, hy, hj⟩ := h.inviter hd htype'
      simp only [inviteOf, hc, hd, Option.elim_some] at heq
      rw [heq, hy] at hx
      obtain rfl := Option.some.inj hx
      exact Option.some.inj (hi.symm.trans hj)
    rw [← hinj.encard_image]
    refine (encard_le_length_filter (p := fun _ (x : FriendInvite) => x.inviterId == userId &&
      x.inviterCouponId.isSome) ?_).trans (by exact_mod_cast h.limit userId)
    rintro k ⟨i, ⟨c, hc, htype, rfl⟩, rfl⟩
    obtain ⟨⟨x, -, -, hx, -, hinviter, -⟩, y, hy, hi⟩ := h.inviter hc htype
    obtain rfl := Option.some.inj (hx.symm.trans hy)
    simp only [inviteOf, hc, Option.elim_some]
    exact ⟨x, hx, by simp [hinviter, hi]⟩
  accepted := h.accepted

namespace FriendCall

/-- The invite that an acceptance has claimed, and for whom. -/
def claims : FriendCall → Option (ℕ × ℕ)
  | looking id _ userId => some (id, userId)
  | rejecting id userId _ => some (id, userId)
  | _ => none

/-- The inviter whose advisory lock a payment has. -/
def rewarding : FriendCall → Option ℕ
  | counting _ _ inviterId => some inviterId
  | granting _ _ inviterId => some inviterId
  | _ => none

/-- The invite is for the account: its e-mail, and made no later. -/
def For (s : FriendBooks) (id userId : ℕ) (x : FriendInvite) : Prop :=
  s.invites.get? id = some x ∧ ∃ u, s.users.get? userId = some u ∧
    lowerCase x.friendEmail = lowerCase u.email ∧ x.createdAt ≤ u.createdAt

/-- The account has accepted no invite. -/
def NoneAccepted (s : FriendBooks) (userId : ℕ) : Prop :=
  ∀ {j x}, s.invites.get? j = some x → x.status = .accepted → x.acceptedByUserId ≠ some userId

/-- Whatever else the account could accept is yet to be looked at, or locked. -/
def Covers (s : FriendBooks) (id userId : ℕ) (rest : List ℕ) : Prop :=
  ∀ {j x}, For s j userId x → x.status = .pending → j ≠ id → j ∈ rest ∨ s.rowLock j = some id

/-- The friend has accepted the invite. -/
def Accepted (s : FriendBooks) (friendId id inviterId : ℕ) : Prop :=
  ∃ x, s.invites.get? id = some x ∧ x.status = .accepted ∧ x.acceptedByUserId = some friendId ∧
    x.inviterId = inviterId

/-- What a call knows. -/
def Known (s : FriendBooks) : FriendCall → Prop
  | inserting _ email => lowerCase email = email
  | checking _ _ email => lowerCase email = email
  | reading id seen _ => ∃ x, s.invites.get? id = some x ∧ x.friendEmail = seen.friendEmail ∧
    x.createdAt = seen.createdAt
  | claiming id seen userId => ∃ x, For s id userId x ∧ x.friendEmail = seen.friendEmail
  | looking id seen userId => s.rowLock id = some id ∧
    ∃ x, For s id userId x ∧ x.friendEmail = seen.friendEmail
  | rejecting id userId rest => s.rowLock id = some id ∧ (∃ x, For s id userId x) ∧
    NoneAccepted s userId ∧ Covers s id userId rest
  | locking friendId id inviterId => Accepted s friendId id inviterId
  | counting friendId id inviterId => Accepted s friendId id inviterId ∧
    s.rewardLock inviterId = true
  | granting friendId id inviterId => Accepted s friendId id inviterId ∧
    s.rewardLock inviterId = true ∧ s.rewards inviterId < MAX_REWARDS
  | turningDown .. | paying .. => True

end FriendCall

def friendInv : CallInv FriendBooks FriendCall ℕ where
  weight _ := 0
  whole s _ := FriendSound s
  each s c := c.Known s
  pair c d := (∀ a ∈ c.claims, ∀ b ∈ d.claims, a.1 ≠ b.1) ∧
    ∀ i ∈ c.rewarding, ∀ j ∈ d.rewarding, i ≠ j
  symm h := ⟨fun a ha b hb => (h.1 b hb a ha).symm, fun i hi j hj => (h.2 j hj i hi).symm⟩

/-! ## Writes -/

/-- What stays of an account. -/
structure InviteUser.Stays (u v : InviteUser) : Prop where
  email : v.email = u.email
  createdAt : v.createdAt = u.createdAt
  paid : u.paid = true → v.paid = true

theorem InviteUser.Stays.refl (u : InviteUser) : u.Stays u := ⟨rfl, rfl, fun h => h⟩

/-- What stays of an invite; one that is not pending is settled. -/
structure FriendInvite.Stays (x y : FriendInvite) : Prop where
  createdAt : y.createdAt = x.createdAt
  inviterId : y.inviterId = x.inviterId
  friendEmail : y.friendEmail = x.friendEmail
  settled : x.status ≠ .pending → y.status = x.status ∧ y.acceptedByUserId = x.acceptedByUserId

theorem FriendInvite.Stays.refl (x : FriendInvite) : x.Stays x :=
  ⟨rfl, rfl, rfl, fun _ => ⟨rfl, rfl⟩⟩

namespace FriendSound

variable {s s' : FriendBooks}

theorem earned_lasts {id inviterId : ℕ} (h : s.Earned id inviterId)
    (husers : s.users.Lasts InviteUser.Stays s'.users)
    (hinvites : s.invites.Lasts FriendInvite.Stays s'.invites) : s'.Earned id inviterId := by
  obtain ⟨x, friendId, u, hx, haccepted, hinviter, hby, hu, hpaid⟩ := h
  obtain ⟨y, hy, hstays⟩ := hinvites hx
  obtain ⟨v, hv, hkept⟩ := husers hu
  obtain ⟨hstatus, hsame⟩ := hstays.settled (by rw [haccepted]; decide)
  exact ⟨y, friendId, v, hy, hstatus.trans haccepted, hstays.inviterId.trans hinviter,
    hsame.trans hby, hv, hkept.paid hpaid⟩

/-- Locks and accounts move. -/
theorem same (h : FriendSound s) (hinvites : s'.invites = s.invites)
    (hcoupons : s'.coupons = s.coupons) (husers : s.users.Lasts InviteUser.Stays s'.users)
    (hcreated : ∀ {i u}, s'.users.get? i = some u → u.createdAt < s'.now)
    (hlocked : ∀ {j i}, s'.rowLock j = some i → s'.rowLock i = some i ∧
      ∃ x, s.invites.get? j = some x ∧ x.status = .pending) : FriendSound s' where
  accepted hx hy := by
    rw [hinvites] at hx hy
    exact h.accepted hx hy
  acceptor hx haccepted := by
    rw [hinvites] at hx
    obtain ⟨userId, u, hby, hu⟩ := h.acceptor hx haccepted
    obtain ⟨v, hv, -⟩ := husers hu
    exact ⟨userId, v, hby, hv⟩
  lower hx := by
    rw [hinvites] at hx
    exact h.lower hx
  users := hcreated
  locked hlock := by
    rw [hinvites]
    exact hlocked hlock
  friend hc htype := by
    rw [hcoupons] at hc
    rw [hinvites]
    exact h.friend hc htype
  inviter hc htype := by
    rw [hcoupons] at hc
    obtain ⟨hearned, hcoupon⟩ := h.inviter hc htype
    have hlasts : s.invites.Lasts FriendInvite.Stays s'.invites := by
      rw [hinvites]
      exact .refl FriendInvite.Stays.refl _
    rw [hinvites]
    exact ⟨earned_lasts hearned husers hlasts, hcoupon⟩
  limit userId := by
    unfold FriendBooks.rewards
    rw [hinvites]
    exact h.limit userId

theorem rewards_insert (s : FriendBooks) {x : FriendInvite} (hx : x.inviterCouponId = none)
    (userId : ℕ) :
    ({ s with invites := s.invites.insert x } : FriendBooks).rewards userId = s.rewards userId := by
  simp [FriendBooks.rewards, Table.filter, Table.insert, List.filter_append, hx]

/-- A new invite. -/
theorem insert (h : FriendSound s) {x : FriendInvite} (hlower : lowerCase x.friendEmail = x.friendEmail)
    (hstatus : x.status = .pending) (hcoupon : x.inviterCouponId = none) :
    FriendSound { s with invites := s.invites.insert x } := by
  have hrow : ∀ {j y}, (s.invites.insert x).get? j = some y → y = x ∨ s.invites.get? j = some y := by
    intro j y hy
    rw [Table.get?_insert] at hy
    split at hy
    · exact .inl (Option.some.inj hy).symm
    · exact .inr hy
  have hold : ∀ {j y}, (s.invites.insert x).get? j = some y → y.status = .accepted →
      s.invites.get? j = some y := by
    intro j y hy haccepted
    rcases hrow hy with rfl | hy
    · rw [hstatus] at haccepted
      cases haccepted
    · exact hy
  constructor
  · intro i j y z userId hy hz hya hza
    exact h.accepted (hold hy hya) (hold hz hza) hya hza
  · intro i y hy haccepted
    exact h.acceptor (hold hy haccepted) haccepted
  · intro i y hy
    rcases hrow hy with rfl | hy
    · exact hlower
    · exact h.lower hy
  · exact h.users
  · intro j i hlock
    obtain ⟨hown, y, hy, hpending⟩ := h.locked hlock
    exact ⟨hown, y, Table.get?_insert_of_some _ hy, hpending⟩
  · intro i c hc htype
    obtain ⟨y, hy, hrest⟩ := h.friend hc htype
    exact ⟨y, Table.get?_insert_of_some _ hy, hrest⟩
  · intro i c hc htype
    obtain ⟨hearned, y, hy, hi⟩ := h.inviter hc htype
    exact ⟨earned_lasts hearned (.refl InviteUser.Stays.refl _)
      (.insert FriendInvite.Stays.refl _ _), y, Table.get?_insert_of_some _ hy, hi⟩
  · intro userId
    rw [rewards_insert s hcoupon]
    exact h.limit userId

/-- Pending rows are settled, their inviter and coupon as before. -/
structure Settles (f : ℕ → FriendInvite → FriendInvite) : Prop where
  stays : ∀ j (x : FriendInvite), x.Stays (f j x)
  coupon : ∀ j x, (f j x).inviterCouponId = x.inviterCouponId
  friendCoupon : ∀ j (x : FriendInvite), x.status ≠ .pending → (f j x).friendCouponId = x.friendCouponId

theorem rewards_modifyAll (s : FriendBooks) {f : ℕ → FriendInvite → FriendInvite} (hf : Settles f)
    (userId : ℕ) : ({ s with invites := s.invites.modifyAll f } : FriendBooks).rewards userId =
      s.rewards userId := by
  simp only [FriendBooks.rewards, Table.filter, Table.modifyAll, List.filter_map, List.length_map]
  congr 1
  refine List.filter_congr fun r _ => ?_
  simp [(hf.stays r.1 r.2).inviterId, hf.coupon]

/-- Pending rows are settled, at most one of them as accepted; the coupon of that one is the only
new one. -/
theorem settle (h : FriendSound s) {f : ℕ → FriendInvite → FriendInvite} (hf : Settles f)
    (hinvites : s'.invites = s.invites.modifyAll f) (husers : s'.users = s.users)
    (hnow : s'.now = s.now)
    (haccepted : ∀ {i x}, s.invites.get? i = some x → x.status = .pending →
      (f i x).status = .accepted → ∃ userId, (f i x).acceptedByUserId = some userId ∧
        FriendCall.NoneAccepted s userId ∧ (∃ u, s.users.get? userId = some u) ∧
        ∀ {j y}, s.invites.get? j = some y → y.status = .pending → (f j y).status = .accepted →
          j = i)
    (hlocked : ∀ {j i}, s'.rowLock j = some i → s'.rowLock i = some i ∧
      ∃ x, s'.invites.get? j = some x ∧ x.status = .pending)
    (hcoupons : ∀ {i c}, s'.coupons.get? i = some c → s.coupons.get? i = some c ∨
      c.type = .friend ∧ ∃ x, s'.invites.get? c.inviteId = some x ∧ x.status = .accepted ∧
        x.acceptedByUserId = some c.userId ∧ x.friendCouponId = some i) : FriendSound s' := by
  have hrow : ∀ {j y}, s'.invites.get? j = some y → ∃ x, s.invites.get? j = some x ∧ y = f j x := by
    intro j y hy
    rw [hinvites, Table.get?_modifyAll] at hy
    obtain ⟨x, hx, rfl⟩ := Option.map_eq_some_iff.1 hy
    exact ⟨x, hx, rfl⟩
  have hlasts : s.invites.Lasts FriendInvite.Stays s'.invites := by
    rw [hinvites]
    exact .modifyAll fun j x _ => hf.stays j x
  have husers' : s.users.Lasts InviteUser.Stays s'.users := by
    rw [husers]
    exact .refl InviteUser.Stays.refl _
  -- an accepted row was accepted, or is the one that was pending
  have hwas : ∀ {j x}, s.invites.get? j = some x → (f j x).status = .accepted →
      x.status = .accepted ∧ (f j x).acceptedByUserId = x.acceptedByUserId ∨
        x.status = .pending := by
    intro j x hx hacc
    by_cases hpending : x.status = .pending
    · exact .inr hpending
    · obtain ⟨hstatus, hby⟩ := (hf.stays j x).settled hpending
      exact .inl ⟨hstatus.symm.trans hacc, hby⟩
  constructor
  · intro i j y z userId hy hz hya hza hyby hzby
    obtain ⟨x, hx, rfl⟩ := hrow hy
    obtain ⟨w, hw, rfl⟩ := hrow hz
    rcases hwas hx hya with ⟨hxa, hxby⟩ | hxp
    · rcases hwas hw hza with ⟨hwa, hwby⟩ | hwp
      · exact h.accepted hx hw hxa hwa (hxby.symm.trans hyby) (hwby.symm.trans hzby)
      · obtain ⟨userId', hby', hnone, -⟩ := haccepted hw hwp hza
        obtain rfl := Option.some.inj (hzby.symm.trans hby')
        exact absurd (hxby.symm.trans hyby) (hnone hx hxa)
    · obtain ⟨userId', hby', hnone, -, hsole⟩ := haccepted hx hxp hya
      obtain rfl := Option.some.inj (hyby.symm.trans hby')
      rcases hwas hw hza with ⟨hwa, hwby⟩ | hwp
      · exact absurd (hwby.symm.trans hzby) (hnone hw hwa)
      · exact (hsole hw hwp hza).symm
  · intro i y hy hya
    obtain ⟨x, hx, rfl⟩ := hrow hy
    rw [husers]
    rcases hwas hx hya with ⟨hxa, hxby⟩ | hxp
    · obtain ⟨userId, u, hby, hu⟩ := h.acceptor hx hxa
      exact ⟨userId, u, hxby.trans hby, hu⟩
    · obtain ⟨userId, hby, -, ⟨u, hu⟩, -⟩ := haccepted hx hxp hya
      exact ⟨userId, u, hby, hu⟩
  · intro i y hy
    obtain ⟨x, hx, rfl⟩ := hrow hy
    rw [(hf.stays i x).friendEmail]
    exact h.lower hx
  · intro i u hu
    rw [husers] at hu
    rw [hnow]
    exact h.users hu
  · exact hlocked
  · intro i c hc htype
    rcases hcoupons hc with hc | ⟨-, hnew⟩
    · obtain ⟨x, hx, hacc, hby, hcoupon⟩ := h.friend hc htype
      have hsettled : x.status ≠ .pending := by rw [hacc]; decide
      obtain ⟨hstatus, hsame⟩ := (hf.stays c.inviteId x).settled hsettled
      refine ⟨f c.inviteId x, ?_, hstatus.trans hacc, hsame.trans hby,
        (hf.friendCoupon _ _ hsettled).trans hcoupon⟩
      rw [hinvites, Table.get?_modifyAll, hx, Option.map_some]
    · exact hnew
  · intro i c hc htype
    rcases hcoupons hc with hc | ⟨hfriend, -⟩
    · obtain ⟨hearned, x, hx, hi⟩ := h.inviter hc htype
      refine ⟨earned_lasts hearned husers' hlasts, f c.inviteId x, ?_, (hf.coupon _ _).trans hi⟩
      rw [hinvites, Table.get?_modifyAll, hx, Option.map_some]
    · rw [htype] at hfriend
      cases hfriend
  · intro userId
    have hsame := rewards_modifyAll s hf userId
    unfold FriendBooks.rewards at hsame ⊢
    rw [hinvites]
    exact hsame.le.trans (h.limit userId)

/-- The acceptance that has locked a row is gone. -/
theorem release_locked {id : ℕ} (h : FriendSound s) {j i : ℕ}
    (hlock : (s.release id).rowLock j = some i) : i ≠ id ∧ s.rowLock j = some i ∧
      (s.release id).rowLock i = some i := by
  simp only [FriendBooks.release] at hlock ⊢
  split at hlock
  · cases hlock
  · next hnot =>
    have hne : i ≠ id := by
      rintro rfl
      exact hnot hlock
    refine ⟨hne, hlock, ?_⟩
    rw [(h.locked hlock).1, if_neg (by simpa using hne)]

/-- An acceptance is broken off. -/
theorem release (h : FriendSound s) (id : ℕ) : FriendSound (s.release id) := by
  refine h.same rfl rfl (.refl InviteUser.Stays.refl _) h.users fun hlock => ?_
  obtain ⟨-, hold, hown⟩ := release_locked h hlock
  exact ⟨hown, (h.locked hold).2⟩

theorem settles_reject (id userId : ℕ) : Settles fun j x => if j = id then
      if x.status = .pending then { x with
        status := .rejected
        acceptedByUserId := some userId }
      else x
    else x where
  stays j x := by
    split
    · split
      · next hpending => exact ⟨rfl, rfl, rfl, fun hnot => absurd hpending hnot⟩
      · exact .refl x
    · exact .refl x
  coupon j x := by
    split
    · split <;> rfl
    · rfl
  friendCoupon j x hnot := by simp [hnot]

/-- A row that is free afterwards is rejected. -/
theorem reject (h : FriendSound s) {id userId : ℕ}
    (hkeeps : ∀ {j i}, s'.rowLock j = some i → s.rowLock j = some i ∧ s'.rowLock i = some i ∧ j ≠ id)
    (hinvites : s'.invites = (s.reject id userId).invites) (hcoupons : s'.coupons = s.coupons)
    (husers : s'.users = s.users) (hnow : s'.now = s.now) : FriendSound s' := by
  refine h.settle (settles_reject id userId) hinvites husers hnow ?_ ?_ fun hc =>
    .inl (hcoupons ▸ hc)
  · intro i x hx hpending hacc
    simp only [hpending, if_true] at hacc
    split at hacc
    · cases hacc
    · rw [hpending] at hacc
      cases hacc
  · intro j i hlock
    obtain ⟨hold, hown, hne⟩ := hkeeps hlock
    obtain ⟨-, x, hx, hpending⟩ := h.locked hold
    refine ⟨hown, x, ?_, hpending⟩
    rw [hinvites]
    exact (Table.get?_modify_of_ne _ _ hne).trans hx

/-- What the commit of an acceptance does to a row; only rows that are pending are written. -/
def accepting (s : FriendBooks) (id userId : ℕ) (j : ℕ) (y : FriendInvite) : FriendInvite :=
  if s.rowLock j = some id ∧ y.status = .pending then
    if j = id then { y with
      status := .accepted
      acceptedByUserId := some userId
      friendCouponId := some s.coupons.next }
    else { y with
      status := .rejected
      acceptedByUserId := some userId }
  else y

theorem settles_accepting (s : FriendBooks) (id userId : ℕ) : Settles (accepting s id userId) where
  stays j y := by
    unfold accepting
    split
    · next hcond =>
      split
      · exact ⟨rfl, rfl, rfl, fun hnot => absurd hcond.2 hnot⟩
      · exact ⟨rfl, rfl, rfl, fun hnot => absurd hcond.2 hnot⟩
    · exact .refl y
  coupon j y := by
    unfold accepting
    split
    · split <;> rfl
    · rfl
  friendCoupon j y hnot := by simp [accepting, hnot]

theorem accepting_accepted {id userId j : ℕ} {y : FriendInvite} (hpending : y.status = .pending)
    (hacc : (accepting s id userId j y).status = .accepted) :
    j = id ∧ (accepting s id userId j y).acceptedByUserId = some userId := by
  simp only [accepting, hpending, and_true] at hacc ⊢
  split at hacc
  · next hlock =>
    split at hacc
    · next hj =>
      subst hj
      simp [hlock]
    · cases hacc
  · rw [hpending] at hacc
    cases hacc

theorem accept_invites (h : FriendSound s) (id userId : ℕ) :
    (s.accept id userId).invites = s.invites.modifyAll (accepting s id userId) := by
  simp only [FriendBooks.accept]
  refine Table.modifyAll_congr fun j y hy => ?_
  by_cases hlock : s.rowLock j = some id
  · obtain ⟨-, z, hz, hpending⟩ := h.locked hlock
    obtain rfl := Option.some.inj (hy.symm.trans hz)
    simp [accepting, hlock, hpending]
  · simp [accepting, hlock]

/-- The claimed invite is accepted by an account that has accepted none. -/
theorem accept (h : FriendSound s) {id userId : ℕ} {u : InviteUser}
    (hown : s.rowLock id = some id) (hnone : FriendCall.NoneAccepted s userId)
    (hu : s.users.get? userId = some u) : FriendSound (s.accept id userId) := by
  obtain ⟨-, x, hx, hxp⟩ := h.locked hown
  have hinvites := h.accept_invites id userId
  refine h.settle (settles_accepting s id userId) hinvites rfl rfl ?_ ?_ ?_
  · intro i y _ hyp hacc
    obtain ⟨rfl, hby⟩ := accepting_accepted hyp hacc
    exact ⟨userId, hby, hnone, ⟨u, hu⟩, fun _ hzp hza => (accepting_accepted hzp hza).1⟩
  · intro j i hlock
    obtain ⟨hne, hold, hfree⟩ := release_locked h hlock
    obtain ⟨-, y, hy, hyp⟩ := h.locked hold
    refine ⟨hfree, y, ?_, hyp⟩
    rw [hinvites, Table.get?_modifyAll, hy, Option.map_some]
    simp [accepting, hold, hne]
  · intro i c hc
    simp only [FriendBooks.accept] at hc
    rw [Table.get?_insert] at hc
    split at hc
    · next hi =>
      obtain rfl := Option.some.inj hc
      refine .inr ⟨rfl, accepting s id userId id x, ?_, ?_⟩
      · rw [hinvites, Table.get?_modifyAll, hx, Option.map_some]
      · simp [accepting, hown, hxp, hi]
    · exact .inl hc

theorem rewards_modify (coupon : ℕ) {id : ℕ} {x : FriendInvite} (hx : s.invites.get? id = some x)
    (hcoupon : x.inviterCouponId = none) (userId : ℕ) :
    ((s.invites.modify id fun x => { x with inviterCouponId := some coupon }).filter fun _ x =>
      x.inviterId == userId && x.inviterCouponId.isSome).length =
        s.rewards userId + if userId = x.inviterId then 1 else 0 := by
  have hsum := Table.sum_modify (fun x : FriendInvite => { x with inviterCouponId := some coupon })
    (fun _ (x : FriendInvite) => if x.inviterId == userId && x.inviterCouponId.isSome then 1 else 0)
    hx
  have hafter := Table.length_filter (M := ℕ) (s.invites.modify id fun x => { x with
    inviterCouponId := some coupon }) fun _ x => x.inviterId == userId && x.inviterCouponId.isSome
  have hbefore := Table.length_filter (M := ℕ) s.invites fun _ x =>
    x.inviterId == userId && x.inviterCouponId.isSome
  simp only [Nat.cast_id] at hafter hbefore
  rw [hafter, FriendBooks.rewards, hbefore]
  simp only [hcoupon, Option.isSome_none, Bool.and_false, Option.isSome_some, Bool.and_true] at hsum
  by_cases huser : x.inviterId = userId
  · simpa [huser] using hsum
  · simpa [huser, Ne.symm huser] using hsum

/-- The inviter of an accepted invite gets its coupon, with the payment of the friend. -/
theorem grant (h : FriendSound s) {friendId id inviterId : ℕ}
    (haccepted : FriendCall.Accepted s friendId id inviterId)
    (hroom : s.rewards inviterId < MAX_REWARDS) (hs' : s.grant friendId id inviterId = some s') :
    FriendSound s' := by
  obtain ⟨x, hx, hstatus, hby, hinviter⟩ := haccepted
  obtain ⟨invites, htry, rfl⟩ := Option.map_eq_some_iff.1 hs'
  obtain ⟨x', hx', hcoupon, rfl⟩ := Table.tryModify_eq_some.1 htry
  obtain rfl := Option.some.inj (hx.symm.trans hx')
  rw [Option.isNone_iff_eq_none] at hcoupon
  obtain ⟨friendId', u, hby', hu⟩ := h.acceptor hx hstatus
  obtain rfl := Option.some.inj (hby.symm.trans hby')
  let give (x : FriendInvite) : FriendInvite := { x with inviterCouponId := some s.coupons.next }
  let pay (u : InviteUser) : InviteUser := { u with paid := true }
  have hlasts : s.invites.Lasts FriendInvite.Stays (s.invites.modify id give) :=
    .modify FriendInvite.Stays.refl fun x _ => ⟨rfl, rfl, rfl, fun _ => ⟨rfl, rfl⟩⟩
  have husers : s.users.Lasts InviteUser.Stays (s.users.modify friendId pay) :=
    .modify InviteUser.Stays.refl fun u _ => ⟨rfl, rfl, fun _ => rfl⟩
  have hrow : ∀ {j y}, (s.invites.modify id give).get? j = some y →
      ∃ z, s.invites.get? j = some z ∧ (y = z ∨ j = id ∧ y = give z) := by
    intro j y hy
    rw [Table.get?_modify] at hy
    split at hy
    · next hj =>
      obtain ⟨z, hz, rfl⟩ := Option.map_eq_some_iff.1 hy
      exact ⟨z, hz, .inr ⟨hj, rfl⟩⟩
    · exact ⟨y, hy, .inl rfl⟩
  have hsame : ∀ {j y}, (s.invites.modify id give).get? j = some y →
      ∃ z, s.invites.get? j = some z ∧ y.status = z.status ∧
        y.acceptedByUserId = z.acceptedByUserId ∧ y.friendEmail = z.friendEmail := by
    intro j y hy
    obtain ⟨z, hz, rfl | ⟨-, rfl⟩⟩ := hrow hy
    · exact ⟨_, hz, rfl, rfl, rfl⟩
    · exact ⟨z, hz, rfl, rfl, rfl⟩
  have hself : (s.invites.modify id give).get? id = some (give x) := by
    rw [Table.get?_modify_self, hx, Option.map_some]
  constructor
  · intro i j y z userId hy hz hya hza hyby hzby
    obtain ⟨y₀, hy₀, hys, hyb, -⟩ := hsame hy
    obtain ⟨z₀, hz₀, hzs, hzb, -⟩ := hsame hz
    exact h.accepted hy₀ hz₀ (hys ▸ hya) (hzs ▸ hza) (hyb ▸ hyby) (hzb ▸ hzby)
  · intro i y hy hya
    obtain ⟨z, hz, hs, hb, -⟩ := hsame hy
    obtain ⟨userId, v, hvby, hv⟩ := h.acceptor hz (hs ▸ hya)
    obtain ⟨w, hw, -⟩ := husers hv
    exact ⟨userId, w, hb.trans hvby, hw⟩
  · intro i y hy
    obtain ⟨z, hz, -, -, hemail⟩ := hsame hy
    rw [hemail]
    exact h.lower hz
  · intro i v hv
    change (s.users.modify friendId pay).get? i = some v at hv
    rw [Table.get?_modify] at hv
    split at hv
    · obtain ⟨w, hw, rfl⟩ := Option.map_eq_some_iff.1 hv
      have hcreated := h.users hw
      exact hcreated
    · exact h.users hv
  · intro j i hlock
    obtain ⟨hown, y, hy, hpending⟩ := h.locked hlock
    have hne : j ≠ id := by
      rintro rfl
      rw [hx] at hy
      rw [← Option.some.inj hy, hstatus] at hpending
      cases hpending
    exact ⟨hown, y, (Table.get?_modify_of_ne _ _ hne).trans hy, hpending⟩
  · intro i c hc htype
    change (s.coupons.insert _).get? i = some c at hc
    rw [Table.get?_insert] at hc
    split at hc
    · obtain rfl := Option.some.inj hc
      cases htype
    · obtain ⟨y, hy, hya, hyby, hyc⟩ := h.friend hc htype
      obtain ⟨z, hz, hstays⟩ := hlasts hy
      obtain ⟨y', hy', rfl | ⟨-, rfl⟩⟩ := hrow hz
      · obtain rfl := Option.some.inj (hy.symm.trans hy')
        exact ⟨y, hz, hya, hyby, hyc⟩
      · obtain rfl := Option.some.inj (hy.symm.trans hy')
        exact ⟨give y, hz, hya, hyby, hyc⟩
  · intro i c hc htype
    change (s.coupons.insert _).get? i = some c at hc
    rw [Table.get?_insert] at hc
    split at hc
    · next hi =>
      obtain rfl := Option.some.inj hc
      refine ⟨⟨give x, friendId, pay u, hself, hstatus, hinviter, hby, ?_, rfl⟩, give x, hself, ?_⟩
      · exact (Table.get?_modify_self ..).trans (by rw [hu, Option.map_some])
      · rw [hi]
    · obtain ⟨hearned, y, hy, hyc⟩ := h.inviter hc htype
      have hne : c.inviteId ≠ id := by
        intro heq
        rw [heq, hx] at hy
        rw [← Option.some.inj hy, hcoupon] at hyc
        cases hyc
      exact ⟨earned_lasts hearned husers hlasts, y,
        (Table.get?_modify_of_ne _ _ hne).trans hy, hyc⟩
  · intro userId
    have hcount := rewards_modify s.coupons.next hx hcoupon userId
    refine hcount.le.trans ?_
    split
    · next huser =>
      rw [huser, hinviter]
      exact hroom
    · exact h.limit userId

end FriendSound

/-! ## Steps -/

/-- What a step does to what the other calls know. `mine` is the invite whose acceptance moves,
`accepts` the account that accepts by it, and `rewarded` the inviter whose lock the call has. -/
structure FriendBooks.Frame (s s' : FriendBooks) (mine accepts rewarded : Option ℕ) : Prop where
  users : s.users.Lasts InviteUser.Stays s'.users
  invites : s.invites.Lasts FriendInvite.Stays s'.invites
  made : ∀ {j y}, s'.invites.get? j = some y →
    (∃ x, s.invites.get? j = some x ∧ x.Stays y) ∨
      ∀ i u, s.users.get? i = some u → u.createdAt < y.createdAt
  rowLock : ∀ {j i}, s.rowLock j = some i → mine ≠ some i → s'.rowLock j = some i
  accepted : ∀ {j y userId}, s'.invites.get? j = some y → y.status = .accepted →
    y.acceptedByUserId = some userId → accepts ≠ some userId →
      ∃ x, s.invites.get? j = some x ∧ x.status = .accepted ∧ x.acceptedByUserId = some userId
  rewards : ∀ {u}, rewarded ≠ some u → s'.rewards u = s.rewards u ∧
    (s.rewardLock u = true → s'.rewardLock u = true)

namespace FriendCall

variable {s s' : FriendBooks} {mine accepts rewarded : Option ℕ}

theorem For.frame {id userId : ℕ} {x : FriendInvite} (h : For s id userId x)
    (hframe : s.Frame s' mine accepts rewarded) : ∃ y, For s' id userId y ∧ x.Stays y := by
  obtain ⟨hx, u, hu, hemail, hcreated⟩ := h
  obtain ⟨y, hy, hstays⟩ := hframe.invites hx
  obtain ⟨v, hv, hkept⟩ := hframe.users hu
  refine ⟨y, ⟨hy, v, hv, ?_, ?_⟩, hstays⟩
  · rw [hstays.friendEmail, hkept.email, hemail]
  · rw [hstays.createdAt, hkept.createdAt]
    exact hcreated

theorem Accepted.frame {friendId id inviterId : ℕ} (h : Accepted s friendId id inviterId)
    (hframe : s.Frame s' mine accepts rewarded) : Accepted s' friendId id inviterId := by
  obtain ⟨x, hx, hstatus, hby, hinviter⟩ := h
  obtain ⟨y, hy, hstays⟩ := hframe.invites hx
  obtain ⟨hsame, hsameBy⟩ := hstays.settled (by rw [hstatus]; decide)
  exact ⟨y, hy, hsame.trans hstatus, hsameBy.trans hby, hstays.inviterId.trans hinviter⟩

/-- What a call knows stays, where the moved call has another invite and another inviter, and does
not accept for its account. -/
theorem Known.frame {c : FriendCall} (h : c.Known s) (hframe : s.Frame s' mine accepts rewarded)
    (hclaims : ∀ b ∈ c.claims, mine ≠ some b.1 ∧ accepts ≠ some b.2)
    (hrewarding : ∀ u ∈ c.rewarding, rewarded ≠ some u) : c.Known s' := by
  cases c with
  | checking r userId email => exact h
  | inserting userId email => exact h
  | reading id seen userId =>
    obtain ⟨x, hx, hemail, hcreated⟩ := h
    obtain ⟨y, hy, hstays⟩ := hframe.invites hx
    exact ⟨y, hy, hstays.friendEmail.trans hemail, hstays.createdAt.trans hcreated⟩
  | turningDown id userId => trivial
  | claiming id seen userId =>
    obtain ⟨x, hfor, hemail⟩ := h
    obtain ⟨y, hy, hstays⟩ := hfor.frame hframe
    exact ⟨y, hy, hstays.friendEmail.trans hemail⟩
  | looking id seen userId =>
    obtain ⟨hown, x, hfor, hemail⟩ := h
    obtain ⟨y, hy, hstays⟩ := hfor.frame hframe
    exact ⟨hframe.rowLock hown (hclaims _ rfl).1, y, hy, hstays.friendEmail.trans hemail⟩
  | rejecting id userId rest =>
    obtain ⟨hown, ⟨x, hfor⟩, hnone, hcovers⟩ := h
    obtain ⟨hmine, haccepts⟩ := hclaims _ rfl
    obtain ⟨y, hy, -⟩ := hfor.frame hframe
    refine ⟨hframe.rowLock hown hmine, ⟨y, hy⟩, fun hz hacc hby => ?_, fun {j z} hz hpending hne => ?_⟩
    · obtain ⟨w, hw, hwacc, hwby⟩ := hframe.accepted hz hacc hby haccepts
      exact hnone hw hwacc hwby
    · obtain ⟨-, u, hu, -, -⟩ := hfor
      obtain ⟨v, hv, hkept⟩ := hframe.users hu
      obtain ⟨hget, v', hv', hemail, hcreated⟩ := hz
      obtain rfl := Option.some.inj (hv.symm.trans hv')
      rcases hframe.made hget with ⟨w, hw, hstays⟩ | hlate
      · have hwpending : w.status = .pending := by
          by_contra hnot
          exact hnot ((hstays.settled hnot).1.symm.trans hpending)
        have hwfor : For s j userId w := by
          refine ⟨hw, u, hu, ?_, ?_⟩
          · rw [← hstays.friendEmail, hemail, hkept.email]
          · rw [← hstays.createdAt, ← hkept.createdAt]
            exact hcreated
        rcases hcovers hwfor hwpending hne with hrest | hlock
        · exact .inl hrest
        · exact .inr (hframe.rowLock hlock hmine)
      · have hlt := hlate userId u hu
        rw [hkept.createdAt] at hcreated
        omega
  | paying friendId paid => trivial
  | locking friendId id inviterId => exact Accepted.frame h hframe
  | counting friendId id inviterId =>
    exact ⟨h.1.frame hframe, (hframe.rewards (hrewarding _ rfl)).2 h.2⟩
  | granting friendId id inviterId =>
    obtain ⟨hsame, hlock⟩ := hframe.rewards (hrewarding _ rfl)
    exact ⟨h.1.frame hframe, hlock h.2.1, hsame ▸ h.2.2⟩

/-- Who has claimed an invite has locked it. -/
theorem claimed {c : FriendCall} (h : c.Known s) : ∀ b ∈ c.claims, s.rowLock b.1 = some b.1 := by
  intro b hb
  cases c <;> simp only [claims, Option.mem_def, Option.some.injEq, reduceCtorEq] at hb
  · subst hb
    exact h.1
  · subst hb
    exact h.1

/-- Who rewards an inviter has its lock. -/
theorem rewards_locked {c : FriendCall} (h : c.Known s) :
    ∀ u ∈ c.rewarding, s.rewardLock u = true := by
  intro u hu
  cases c <;> simp only [rewarding, Option.mem_def, Option.some.injEq, reduceCtorEq] at hu
  · subst hu
    exact h.2
  · subst hu
    exact h.2.1

/-- Where an acceptance has nothing left to reject, no other one of the account is under way. -/
theorem Covers.alone (hs : FriendSound s) {c d : FriendCall} {id userId : ℕ}
    (hc : c = rejecting id userId []) (hknown : c.Known s) (hd : d.Known s)
    (hpair : friendInv.pair c d) : ∀ b ∈ d.claims, b.2 ≠ userId := by
  subst hc
  intro b hb heq
  obtain ⟨-, -, -, hcovers⟩ := hknown
  have hne : id ≠ b.1 := hpair.1 _ rfl b hb
  have hown := claimed hd b hb
  have hfor : ∃ x, For s b.1 b.2 x := by
    cases d <;> simp only [claims, Option.mem_def, Option.some.injEq, reduceCtorEq] at hb
    · subst hb
      obtain ⟨-, x, hfor, -⟩ := hd
      exact ⟨x, hfor⟩
    · subst hb
      exact hd.2.1
  obtain ⟨x, hfor⟩ := hfor
  obtain ⟨-, y, hy, hpending⟩ := hs.locked hown
  obtain rfl := Option.some.inj (hfor.1.symm.trans hy)
  rw [heq] at hfor
  rcases hcovers hfor hpending hne.symm with hmem | hlock
  · cases hmem
  · exact hne (Option.some.inj (hlock.symm.trans hown))

end FriendCall

section Moves

variable {s s' : FriendBooks} {mine accepts rewarded : Option ℕ}

open FriendCall

/-- Locks and accounts move. -/
theorem FriendBooks.Frame.same (hinvites : s'.invites = s.invites)
    (husers : s.users.Lasts InviteUser.Stays s'.users)
    (hrow : ∀ {j i}, s.rowLock j = some i → mine ≠ some i → s'.rowLock j = some i)
    (hreward : ∀ {u}, rewarded ≠ some u → s.rewardLock u = true → s'.rewardLock u = true) :
    s.Frame s' mine none rewarded where
  users := husers
  invites := by
    rw [hinvites]
    exact .refl FriendInvite.Stays.refl _
  made hy := by
    rw [hinvites] at hy
    exact .inl ⟨_, hy, .refl _⟩
  rowLock := hrow
  accepted hy hacc hby _ := by
    rw [hinvites] at hy
    exact ⟨_, hy, hacc, hby⟩
  rewards hne := ⟨by simp [FriendBooks.rewards, hinvites], hreward hne⟩

theorem FriendBooks.Frame.refl (s : FriendBooks) : s.Frame s none none none :=
  .same rfl (.refl InviteUser.Stays.refl _) (fun h _ => h) fun _ h => h

theorem FriendBooks.Frame.insert (hs : FriendSound s) {x : FriendInvite} (hcreated : x.createdAt = s.now)
    (hpending : x.status = .pending) (hcoupon : x.inviterCouponId = none) :
    s.Frame { s with invites := s.invites.insert x } none none none where
  users := .refl InviteUser.Stays.refl _
  invites := .insert FriendInvite.Stays.refl _ _
  made {j y} hy := by
    rw [Table.get?_insert] at hy
    split at hy
    · obtain rfl := Option.some.inj hy
      exact .inr fun i u hu => hcreated ▸ hs.users hu
    · exact .inl ⟨y, hy, .refl y⟩
  rowLock h _ := h
  accepted {j y userId} hy hacc hby _ := by
    rw [Table.get?_insert] at hy
    split at hy
    · obtain rfl := Option.some.inj hy
      rw [hpending] at hacc
      cases hacc
    · exact ⟨y, hy, hacc, hby⟩
  rewards _ := ⟨FriendSound.rewards_insert s hcoupon _, fun h => h⟩

/-- Pending rows are settled. -/
theorem FriendBooks.Frame.settle {f : ℕ → FriendInvite → FriendInvite} (hf : FriendSound.Settles f)
    (hinvites : s'.invites = s.invites.modifyAll f) (husers : s'.users = s.users)
    (hrewards : s'.rewardLock = s.rewardLock)
    (hrow : ∀ {j i}, s.rowLock j = some i → mine ≠ some i → s'.rowLock j = some i)
    (haccepts : ∀ {j x}, s.invites.get? j = some x → x.status = .pending →
      (f j x).status = .accepted → (f j x).acceptedByUserId = accepts) :
    s.Frame s' mine accepts none where
  users := by
    rw [husers]
    exact .refl InviteUser.Stays.refl _
  invites := by
    rw [hinvites]
    exact .modifyAll fun j x _ => hf.stays j x
  made {j y} hy := by
    rw [hinvites, Table.get?_modifyAll] at hy
    obtain ⟨x, hx, rfl⟩ := Option.map_eq_some_iff.1 hy
    exact .inl ⟨x, hx, hf.stays j x⟩
  rowLock := hrow
  accepted {j y userId} hy hacc hby hne := by
    rw [hinvites, Table.get?_modifyAll] at hy
    obtain ⟨x, hx, rfl⟩ := Option.map_eq_some_iff.1 hy
    by_cases hpending : x.status = .pending
    · exact absurd ((haccepts hx hpending hacc).symm.trans hby) hne
    · obtain ⟨hstatus, hsame⟩ := (hf.stays j x).settled hpending
      exact ⟨x, hx, hstatus.symm.trans hacc, hsame.symm.trans hby⟩
  rewards _ := by
    have hsame := FriendSound.rewards_modifyAll s hf
    unfold FriendBooks.rewards at hsame ⊢
    rw [hinvites, hrewards]
    exact ⟨hsame _, fun h => h⟩

theorem FriendSound.frame_accept (hs : FriendSound s) (id userId : ℕ) :
    s.Frame (s.accept id userId) (some id) (some userId) none := by
  refine .settle (FriendSound.settles_accepting s id userId) (hs.accept_invites id userId) rfl rfl
    (fun {j i} h hne => ?_) fun _ hpending hacc =>
      (FriendSound.accepting_accepted hpending hacc).2
  change (if s.rowLock j = some id then none else s.rowLock j) = some i
  rw [h, if_neg (fun heq => hne heq.symm)]

theorem FriendBooks.Frame.grant {friendId id inviterId : ℕ}
    (haccepted : Accepted s friendId id inviterId) (hs' : s.grant friendId id inviterId = some s') :
    s.Frame s' none none (some inviterId) := by
  obtain ⟨x, hx, hstatus, hby, hinviter⟩ := haccepted
  obtain ⟨invites, htry, rfl⟩ := Option.map_eq_some_iff.1 hs'
  obtain ⟨x', hx', hcoupon, rfl⟩ := Table.tryModify_eq_some.1 htry
  obtain rfl := Option.some.inj (hx.symm.trans hx')
  rw [Option.isNone_iff_eq_none] at hcoupon
  have hrow : ∀ {j y}, (s.invites.modify id fun x => { x with
      inviterCouponId := some s.coupons.next }).get? j = some y →
        ∃ z, s.invites.get? j = some z ∧ z.Stays y ∧ y.status = z.status ∧
          y.acceptedByUserId = z.acceptedByUserId := by
    intro j y hy
    rw [Table.get?_modify] at hy
    split at hy
    · obtain ⟨z, hz, rfl⟩ := Option.map_eq_some_iff.1 hy
      exact ⟨z, hz, ⟨rfl, rfl, rfl, fun _ => ⟨rfl, rfl⟩⟩, rfl, rfl⟩
    · exact ⟨y, hy, .refl y, rfl, rfl⟩
  constructor
  · exact .modify InviteUser.Stays.refl fun u _ => ⟨rfl, rfl, fun _ => rfl⟩
  · exact .modify FriendInvite.Stays.refl fun x _ => ⟨rfl, rfl, rfl, fun _ => ⟨rfl, rfl⟩⟩
  · intro j y hy
    obtain ⟨z, hz, hstays, -⟩ := hrow hy
    exact .inl ⟨z, hz, hstays⟩
  · exact fun h _ => h
  · intro j y userId hy hacc hyby _
    obtain ⟨z, hz, -, hsame, hsameBy⟩ := hrow hy
    exact ⟨z, hz, hsame.symm.trans hacc, hsameBy.symm.trans hyby⟩
  · intro u hne
    have hu : u ≠ inviterId := fun heq => hne (by rw [heq])
    refine ⟨(FriendSound.rewards_modify s.coupons.next hx hcoupon u).trans ?_, fun h => ?_⟩
    · rw [hinviter, if_neg hu, Nat.add_zero]
    · exact (Function.update_of_ne hu _ _).trans h

/-- A move leaves the law and what the others know. -/
theorem friendInv_kept {c c' : Option FriendCall} {m : ℕ} (hs : FriendSound s)
    (hknown : ∀ a ∈ c, a.Known s) (hsound : FriendSound s') (hframe : s.Frame s' mine accepts rewarded)
    (hmine : ∀ i, mine = some i → ∃ a ∈ c, ∃ u, a.claims = some (i, u))
    (haccepts : ∀ u, accepts = some u → ∃ a ∈ c, ∃ i, a = rejecting i u [])
    (hrewarded : ∀ u, rewarded = some u → ∃ a ∈ c, a.rewarding = some u)
    (hnext : ∀ a ∈ c', a.Known s')
    (hpair : ∀ d, d.Known s → (∀ a ∈ c, friendInv.pair a d) → ∀ a ∈ c', friendInv.pair a d) :
    friendInv.Kept s c m s' c' where
  whole := hsound
  mine := hnext
  others d hd hwith := by
    refine FriendCall.Known.frame hd hframe (fun b hb => ⟨fun heq => ?_, fun heq => ?_⟩)
      fun u hu heq => ?_
    · obtain ⟨a, ha, v, hclaims⟩ := hmine _ heq
      exact (hwith a ha).1 _ hclaims b hb rfl
    · obtain ⟨a, ha, i, hlast⟩ := haccepts _ heq
      exact FriendCall.Covers.alone hs hlast (hknown a ha) hd (hwith a ha) b hb rfl
    · obtain ⟨a, ha, hrewarding⟩ := hrewarded _ heq
      exact (hwith a ha).2 _ hrewarding u hu rfl
  apart := hpair

/-- A call that goes on, if it does, without a claim and without a lock. -/
def FriendCall.Free (s : FriendBooks) (c : FriendCall) : Prop :=
  c.Known s ∧ c.claims = none ∧ c.rewarding = none

theorem friendInv_free {c c' : Option FriendCall} {m : ℕ} (hs : FriendSound s)
    (hknown : ∀ a ∈ c, a.Known s) (hsound : FriendSound s') (hframe : s.Frame s' mine accepts rewarded)
    (hmine : ∀ i, mine = some i → ∃ a ∈ c, ∃ u, a.claims = some (i, u))
    (haccepts : ∀ u, accepts = some u → ∃ a ∈ c, ∃ i, a = rejecting i u [])
    (hrewarded : ∀ u, rewarded = some u → ∃ a ∈ c, a.rewarding = some u)
    (hnext : ∀ a ∈ c', a.Free s') : friendInv.Kept s c m s' c' := by
  refine friendInv_kept hs hknown hsound hframe hmine haccepts hrewarded
    (fun a ha => (hnext a ha).1) fun d _ _ a ha => ⟨fun x hx => ?_, fun u hu => ?_⟩
  · rw [(hnext a ha).2.1] at hx
    cases hx
  · rw [(hnext a ha).2.2] at hu
    cases hu

/-- A call whose write gives no lock back and rewards nobody. -/
theorem friendInv_quiet {c c' : Option FriendCall} {m : ℕ} (hs : FriendSound s)
    (hknown : ∀ a ∈ c, a.Known s) (hsound : FriendSound s') (hframe : s.Frame s' none none none)
    (hnext : ∀ a ∈ c', a.Free s') : friendInv.Kept s c m s' c' :=
  friendInv_free hs hknown hsound hframe (fun _ h => by cases h) (fun _ h => by cases h)
    (fun _ h => by cases h) hnext

/-- A step that writes nothing. -/
theorem friendInv_stay {c c' : Option FriendCall} {m : ℕ} (hs : FriendSound s)
    (hknown : ∀ a ∈ c, a.Known s) (hnext : ∀ a ∈ c', a.Free s) : friendInv.Kept s c m s c' :=
  friendInv_quiet hs hknown hs (.refl s) hnext

/-- What `createInvite` goes on with. -/
theorem FriendCall.check_ok {r : InviteRead} {userId : ℕ} {email : EmailText} {c : FriendCall}
    (hemail : lowerCase email = email) (h : check s userId email r = .ok c) :
    c.Free s := by
  cases r <;>
    simp only [check, bind_eq_ok, exists_punit, refuseIf_eq_ok, orRefuse_eq_ok, pure_eq_ok] at h
  · obtain ⟨-, rfl⟩ := h
    exact ⟨hemail, rfl, rfl⟩
  · obtain ⟨u, -, -, -, rfl⟩ := h
    exact ⟨hemail, rfl, rfl⟩
  · obtain ⟨-, rfl⟩ := h
    exact ⟨hemail, rfl, rfl⟩
  · obtain ⟨-, -, rfl⟩ := h
    exact ⟨hemail, rfl, rfl⟩

theorem FriendCall.read_ok {id userId : ℕ} {seen x : FriendInvite} {c : FriendCall}
    (hx : s.invites.get? id = some x) (hemail : x.friendEmail = seen.friendEmail)
    (hcreated : x.createdAt = seen.createdAt) (h : read s id seen userId = .ok c) :
    c.Free s := by
  simp only [read, bind_eq_ok, exists_punit, refuseIf_eq_ok, orRefuse_eq_ok, pure_eq_ok] at h
  obtain ⟨u, hu, hmine, -, rfl⟩ := h
  split
  · exact ⟨trivial, rfl, rfl⟩
  · next hold =>
    refine ⟨⟨x, ⟨hx, u, hu, ?_, ?_⟩, hemail⟩, rfl, rfl⟩
    · rw [hemail]
      exact (not_not.1 hmine).symm
    · rw [hcreated]
      exact not_lt.1 hold

theorem FriendCall.toReward_some {friendId id : ℕ} {x : FriendInvite}
    (h : toReward s friendId = some (id, x)) : Accepted s friendId id x.inviterId := by
  obtain ⟨hfind, -⟩ := Option.filter_eq_some_iff.1 h
  obtain ⟨hx, hcond⟩ := Table.find?_some hfind
  simp only [Bool.and_eq_true, beq_iff_eq] at hcond
  exact ⟨x, hx, hcond.1.2, hcond.1.1, rfl⟩

/-- Accounts change; the rest stays. -/
theorem FriendSound.accounts (hs : FriendSound s) {f : InviteUser → InviteUser} {userId : ℕ}
    (hf : ∀ u : InviteUser, u.Stays (f u)) (hinvites : s'.invites = s.invites)
    (hcoupons : s'.coupons = s.coupons) (husers : s'.users = s.users.modify userId f)
    (hnow : s'.now = s.now) (hlock : s'.rowLock = s.rowLock) : FriendSound s' := by
  refine hs.same hinvites hcoupons ?_ (fun {i u} hu => ?_) fun h => ?_
  · rw [husers]
    exact .modify InviteUser.Stays.refl fun u _ => hf u
  · rw [husers, Table.get?_modify] at hu
    rw [hnow]
    split at hu
    · obtain ⟨v, hv, rfl⟩ := Option.map_eq_some_iff.1 hu
      rw [(hf v).createdAt]
      exact hs.users hv
    · exact hs.users hu
  · rw [hlock] at h ⊢
    exact hs.locked h

/-- The lock of an inviter is given back; the payment may be recorded. -/
theorem FriendSound.unlockReward (hs : FriendSound s) (inviterId : ℕ) :
    FriendSound (s.unlockReward inviterId) :=
  hs.same rfl rfl (.refl InviteUser.Stays.refl _) hs.users hs.locked

theorem FriendSound.record (hs : FriendSound s) (userId : ℕ) : FriendSound (s.record userId) :=
  hs.accounts (f := fun u => { u with paid := true }) (fun _ => ⟨rfl, rfl, fun _ => rfl⟩)
    rfl rfl rfl rfl rfl

theorem FriendBooks.Frame.unlockReward (inviterId : ℕ) (userId : Option ℕ) :
    s.Frame ((userId.elim s s.record).unlockReward inviterId) none none (some inviterId) := by
  refine .same ?_ ?_ ?_ ?_
  · cases userId <;> rfl
  · cases userId with
    | none => exact .refl InviteUser.Stays.refl _
    | some userId => exact .modify InviteUser.Stays.refl fun u _ => ⟨rfl, rfl, fun _ => rfl⟩
  · cases userId <;> exact fun h _ => h
  · intro u hne h
    have hu : u ≠ inviterId := fun heq => hne (by rw [heq])
    cases userId <;> exact (Function.update_of_ne hu _ _).trans h

/-- The row of an invite that is free afterwards is rejected. -/
theorem FriendBooks.Frame.reject {id userId : ℕ}
    (hinvites : s'.invites = (s.reject id userId).invites) (husers : s'.users = s.users)
    (hrewards : s'.rewardLock = s.rewardLock)
    (hrow : ∀ {j i}, s.rowLock j = some i → mine ≠ some i → s'.rowLock j = some i) :
    s.Frame s' mine none none := by
  refine .settle (FriendSound.settles_reject id userId) hinvites husers hrewards hrow
    fun {j x} _ hpending hacc => ?_
  simp only [hpending, if_true] at hacc
  split at hacc
  · cases hacc
  · rw [hpending] at hacc
    cases hacc

/-- The step of a call that is not broken off. -/
theorem FriendCall.goes_on {c : FriendCall} {r : FriendBooks × Option FriendCall}
    (hr : c.step true s = some r) : friendInv.Keeps s (some c) r := by
  intro m hs hmine
  have hs' : FriendSound s := hs
  have hknown := hmine c rfl
  cases c with
  | checking read userId email =>
    obtain rfl := Option.some.inj hr
    exact friendInv_stay hs' hmine fun a ha => check_ok hknown (toOption_eq_some.1 ha)
  | inserting userId email =>
    simp only [step, if_true] at hr
    split at hr
    · obtain rfl := Option.some.inj hr
      exact friendInv_stay hs' hmine fun a ha => by cases ha
    · obtain rfl := Option.some.inj hr
      have hframe : s.Frame { s with invites := s.invites.insert (newInvite s userId email) }
          none none none := .insert hs' rfl rfl rfl
      exact friendInv_quiet hs' hmine (hs'.insert hknown rfl rfl) hframe fun a ha => by cases ha
  | reading id seen userId =>
    obtain rfl := Option.some.inj hr
    obtain ⟨x, hx, hemail, hcreated⟩ := hknown
    exact friendInv_stay hs' hmine fun a ha => read_ok hx hemail hcreated (toOption_eq_some.1 ha)
  | turningDown id userId =>
    simp only [step, if_true] at hr
    split at hr
    · cases hr
    · next hfree =>
      obtain rfl := Option.some.inj hr
      rw [Bool.not_eq_true, Option.isSome_eq_false_iff, Option.isNone_iff_eq_none] at hfree
      have hsound : FriendSound (s.reject id userId) := by
        refine hs'.reject (fun {j i} hlock => ⟨hlock, (hs'.locked hlock).1, ?_⟩) rfl rfl rfl rfl
        rintro rfl
        rw [show (s.reject j userId).rowLock j = s.rowLock j from rfl, hfree] at hlock
        cases hlock
      exact friendInv_quiet hs' hmine hsound (.reject rfl rfl rfl fun h _ => h)
        fun a ha => by cases ha
  | claiming id seen userId =>
    simp only [step, if_true] at hr
    split at hr
    · cases hr
    · next hfree =>
      rw [Bool.not_eq_true, Option.isSome_eq_false_iff, Option.isNone_iff_eq_none] at hfree
      split at hr
      · next hpending =>
        obtain rfl := Option.some.inj hr
        obtain ⟨x, hx, hstatus⟩ := (Option.any_eq_true _ _).1 hpending
        obtain ⟨y, hfor, hemail⟩ := hknown
        obtain rfl := Option.some.inj (hx.symm.trans hfor.1)
        have hrow : ∀ {j i}, s.rowLock j = some i →
            Function.update s.rowLock id (some id) j = some i := by
          intro j i hlock
          have hne : j ≠ id := by
            rintro rfl
            rw [hfree] at hlock
            cases hlock
          rw [Function.update_of_ne hne, hlock]
        have hframe : s.Frame { s with rowLock := Function.update s.rowLock id (some id) }
            none none none :=
          .same rfl (.refl InviteUser.Stays.refl _) (fun h _ => hrow h) fun _ h => h
        have hsound : FriendSound { s with rowLock := Function.update s.rowLock id (some id) } := by
          refine hs'.same rfl rfl (.refl InviteUser.Stays.refl _) hs'.users fun {j i} hlock => ?_
          simp only at hlock ⊢
          rw [Function.update_apply] at hlock
          split at hlock
          · next hj =>
            obtain rfl := Option.some.inj hlock
            subst hj
            exact ⟨Function.update_self .., x, hx, beq_iff_eq.1 hstatus⟩
          · obtain ⟨hown, hrest⟩ := hs'.locked hlock
            exact ⟨hrow hown, hrest⟩
        refine friendInv_kept hs' hmine hsound hframe (fun _ h => by cases h)
          (fun _ h => by cases h) (fun _ h => by cases h) (fun a ha => ?_) fun d hd _ a ha => ?_
        · obtain rfl := Option.some.inj ha
          obtain ⟨z, hz, hstays⟩ := hfor.frame hframe
          exact ⟨Function.update_self .., z, hz, hstays.friendEmail.trans hemail⟩
        · obtain rfl := Option.some.inj ha
          refine ⟨fun _ hmem b hb => ?_, fun _ hmem => by cases hmem⟩
          obtain rfl := Option.some.inj hmem
          -- another claim has its row locked, and this row was free
          rintro rfl
          have hown := d.claimed hd b hb
          rw [hfree] at hown
          cases hown
      · obtain rfl := Option.some.inj hr
        exact friendInv_stay hs' hmine fun a ha => by cases ha
  | looking id seen userId =>
    obtain ⟨hown, x, hfor, hemail⟩ := hknown
    simp only [step, if_true] at hr
    split at hr
    · obtain rfl := Option.some.inj hr
      have hsound : FriendSound ((s.reject id userId).release id) := by
        refine hs'.reject (fun {j i} hlock => ?_) rfl rfl rfl rfl
        obtain ⟨hne, hold, hkept⟩ := FriendSound.release_locked hs' (j := j) (i := i) hlock
        refine ⟨hold, hkept, ?_⟩
        rintro rfl
        rw [hown] at hold
        exact hne (Option.some.inj hold).symm
      have hframe : s.Frame ((s.reject id userId).release id) (some id) none none := by
        refine .reject rfl rfl rfl fun {j i} h hne => ?_
        change (if s.rowLock j = some id then none else s.rowLock j) = some i
        rw [h, if_neg (fun heq => hne heq.symm)]
      refine friendInv_free hs' hmine hsound hframe (fun i hi => ?_) (fun _ h => by cases h)
        (fun _ h => by cases h) fun a ha => by cases ha
      obtain rfl := Option.some.inj hi
      exact ⟨_, rfl, userId, rfl⟩
    · next hnone =>
      obtain rfl := Option.some.inj hr
      refine friendInv_kept hs' hmine hs' (.refl s) (fun _ h => by cases h) (fun _ h => by cases h)
        (fun _ h => by cases h) (fun a ha => ?_) fun d _ hwith a ha => ?_
      · obtain rfl := Option.some.inj ha
        refine ⟨hown, ⟨x, hfor⟩, fun {j y} hy hacc hby => ?_, fun {j y} hy hpending hne => ?_⟩
        · have hpending := (hs'.locked hown).2
          have hne : j ≠ id := by
            rintro rfl
            obtain ⟨z, hz, hzp⟩ := hpending
            rw [hy] at hz
            rw [← Option.some.inj hz, hacc] at hzp
            cases hzp
          have hnot := Table.any_eq_false.1 (Bool.not_eq_true _ ▸ hnone) j y hy
          simp [hne, hacc, hby] at hnot
        · left
          -- both e-mails are in lower case
          have hsame : y.friendEmail = seen.friendEmail := by
            obtain ⟨hx, u, hu, hxemail, -⟩ := hfor
            obtain ⟨hget, v, hv, hyemail, -⟩ := hy
            obtain rfl := Option.some.inj (hu.symm.trans hv)
            rw [← hs'.lower hget, hyemail, ← hxemail, hs'.lower hx, hemail]
          refine List.mem_map.2 ⟨(j, y), Table.mem_filter.2 ⟨hy.1, ?_⟩, rfl⟩
          simp [hne, hpending, hsame]
      · obtain rfl := Option.some.inj ha
        exact ⟨fun z hz b hb => (hwith _ rfl).1 z hz b hb, fun _ h => by cases h⟩
  | rejecting id userId rest =>
    obtain ⟨hown, ⟨x, hfor⟩, hnone, hcovers⟩ := hknown
    cases rest with
    | nil =>
      obtain rfl := Option.some.inj hr
      obtain ⟨u, hu, -⟩ := hfor.2
      refine friendInv_free hs' hmine (hs'.accept hown hnone hu)
        (hs'.frame_accept id userId) (fun i hi => ?_) (fun v hv => ?_)
        (fun _ h => by cases h) fun a ha => by cases ha
      · obtain rfl := Option.some.inj hi
        exact ⟨_, rfl, userId, rfl⟩
      · obtain rfl := Option.some.inj hv
        exact ⟨_, rfl, id, rfl⟩
    | cons j rest =>
      simp only [step, if_true] at hr
      split at hr
      · cases hr
      · next hfree =>
        -- the row is free, or this acceptance's own
        have hmine' : ∀ {i}, s.rowLock j = some i → i = id := by
          intro i hi
          simpa [hi] using hfree
        split at hr
        · next hany =>
          obtain rfl := Option.some.inj hr
          obtain ⟨y, hy, hpending⟩ := (Option.any_eq_true _ _).1 hany
          have hrow : ∀ {k i}, s.rowLock k = some i →
              Function.update s.rowLock j (some id) k = some i := by
            intro k i hlock
            rw [Function.update_apply]
            split
            · next hk =>
              subst hk
              rw [hmine' hlock]
            · exact hlock
          have hframe : s.Frame { s with rowLock := Function.update s.rowLock j (some id) }
              none none none :=
            .same rfl (.refl InviteUser.Stays.refl _) (fun h _ => hrow h) fun _ h => h
          have hsound : FriendSound { s with rowLock := Function.update s.rowLock j (some id) } := by
            refine hs'.same rfl rfl (.refl InviteUser.Stays.refl _) hs'.users fun {k i} hlock => ?_
            simp only at hlock ⊢
            rw [Function.update_apply] at hlock
            split at hlock
            · next hk =>
              obtain rfl := Option.some.inj hlock
              subst hk
              exact ⟨hrow hown, y, hy, beq_iff_eq.1 hpending⟩
            · obtain ⟨hkept, hrest⟩ := hs'.locked hlock
              exact ⟨hrow hkept, hrest⟩
          refine friendInv_kept hs' hmine hsound hframe (fun _ h => by cases h)
            (fun _ h => by cases h) (fun _ h => by cases h) (fun a ha => ?_) fun d _ hwith a ha => ?_
          · obtain rfl := Option.some.inj ha
            refine ⟨hrow hown, ⟨x, hfor⟩, hnone, fun {k z} hz hzp hne => ?_⟩
            rcases hcovers hz hzp hne with hmem | hlock
            · rcases List.mem_cons.1 hmem with rfl | hmem
              · exact .inr (Function.update_self ..)
              · exact .inl hmem
            · exact .inr (hrow hlock)
          · obtain rfl := Option.some.inj ha
            exact ⟨fun z hz b hb => (hwith _ rfl).1 z hz b hb, fun _ h => by cases h⟩
        · next hnot =>
          obtain rfl := Option.some.inj hr
          refine friendInv_kept hs' hmine hs' (.refl s) (fun _ h => by cases h)
            (fun _ h => by cases h) (fun _ h => by cases h) (fun a ha => ?_) fun d _ hwith a ha => ?_
          · obtain rfl := Option.some.inj ha
            refine ⟨hown, ⟨x, hfor⟩, hnone, fun {k z} hz hzp hne => ?_⟩
            rcases hcovers hz hzp hne with hmem | hlock
            · rcases List.mem_cons.1 hmem with rfl | hmem
              · refine absurd ?_ hnot
                rw [hz.1]
                exact beq_iff_eq.2 hzp
              · exact .inl hmem
            · exact .inr hlock
          · obtain rfl := Option.some.inj ha
            exact ⟨fun z hz b hb => (hwith _ rfl).1 z hz b hb, fun _ h => by cases h⟩
  | paying friendId paid =>
    simp only [step, if_true] at hr
    split at hr
    · obtain rfl := Option.some.inj hr
      exact friendInv_quiet hs' hmine (hs'.record friendId) (.same rfl
        (.modify InviteUser.Stays.refl fun u _ => ⟨rfl, rfl, fun _ => rfl⟩) (fun h _ => h)
        fun _ h => h) fun a ha => by cases ha
    · next id x hreward =>
      obtain rfl := Option.some.inj hr
      refine friendInv_stay hs' hmine fun a ha => ?_
      obtain rfl := Option.some.inj ha
      split at hreward
      · exact ⟨toReward_some hreward, rfl, rfl⟩
      · cases hreward
  | locking friendId id inviterId =>
    simp only [step, if_true] at hr
    split at hr
    · cases hr
    · next hfree =>
      obtain rfl := Option.some.inj hr
      have hlock : ∀ {u}, s.rewardLock u = true →
          Function.update s.rewardLock inviterId true u = true := by
        intro u hu
        rw [Function.update_apply]
        split
        · rfl
        · exact hu
      have hframe : s.Frame { s with rewardLock := Function.update s.rewardLock inviterId true }
          none none none :=
        .same rfl (.refl InviteUser.Stays.refl _) (fun h _ => h) fun _ h => hlock h
      have hsound : FriendSound
          { s with rewardLock := Function.update s.rewardLock inviterId true } :=
        hs'.same rfl rfl (.refl InviteUser.Stays.refl _) hs'.users hs'.locked
      refine friendInv_kept hs' hmine hsound hframe (fun _ h => by cases h)
        (fun _ h => by cases h) (fun _ h => by cases h) (fun a ha => ?_) fun d hd _ a ha => ?_
      · obtain rfl := Option.some.inj ha
        exact ⟨Accepted.frame hknown hframe, Function.update_self ..⟩
      · obtain rfl := Option.some.inj ha
        refine ⟨fun _ h => (by cases h), fun u hu v hv => ?_⟩
        obtain rfl := Option.some.inj hu
        -- another payment has its inviter's lock, and this one was free
        rintro rfl
        exact hfree (d.rewards_locked hd _ hv)
  | counting friendId id inviterId =>
    simp only [step, if_true] at hr
    split at hr
    · obtain rfl := Option.some.inj hr
      exact friendInv_free hs' hmine ((hs'.record friendId).unlockReward inviterId)
        (.unlockReward inviterId (some friendId)) (fun _ h => by cases h) (fun _ h => by cases h)
        (fun u hu => ⟨_, rfl, hu⟩) fun a ha => by cases ha
    · next hroom =>
      obtain rfl := Option.some.inj hr
      refine friendInv_kept hs' hmine hs' (.refl s) (fun _ h => by cases h) (fun _ h => by cases h)
        (fun _ h => by cases h) (fun a ha => ?_) fun d _ hwith a ha => ?_
      · obtain rfl := Option.some.inj ha
        exact ⟨hknown.1, hknown.2, not_le.1 hroom⟩
      · obtain rfl := Option.some.inj ha
        exact ⟨fun _ h => (by cases h), fun u hu v hv => (hwith _ rfl).2 u hu v hv⟩
  | granting friendId id inviterId =>
    obtain rfl := Option.some.inj hr
    obtain ⟨haccepted, -, hroom⟩ := hknown
    cases hgrant : s.grant friendId id inviterId with
    | none =>
      exact friendInv_free hs' hmine (hs'.unlockReward inviterId) (.unlockReward inviterId none)
        (fun _ h => by cases h) (fun _ h => by cases h) (fun u hu => ⟨_, rfl, hu⟩)
        fun a ha => by cases ha
    | some s' =>
      exact friendInv_free hs' hmine (hs'.grant haccepted hroom hgrant) (.grant haccepted hgrant)
        (fun _ h => by cases h) (fun _ h => by cases h) (fun u hu => ⟨_, rfl, hu⟩)
        fun a ha => by cases ha

theorem FriendBooks.Frame.release (id : ℕ) : s.Frame (s.release id) (some id) none none := by
  refine .same rfl (.refl InviteUser.Stays.refl _) (fun {j i} h hne => ?_) fun _ h => h
  change (if s.rowLock j = some id then none else s.rowLock j) = some i
  rw [h, if_neg (fun heq => hne heq.symm)]

/-- A transaction is broken off. -/
theorem FriendCall.broken_off (c : FriendCall) : friendInv.Keeps s (some c) (c.rollback s, none) := by
  intro m hs hmine
  have hs' : FriendSound s := hs
  have hend : ∀ a ∈ (none : Option FriendCall), a.Free (c.rollback s) := fun a ha => by cases ha
  cases c with
  | looking id seen userId =>
    refine friendInv_free hs' hmine (hs'.release id) (.release id) (fun i hi => ?_)
      (fun _ h => by cases h) (fun _ h => by cases h) hend
    obtain rfl := Option.some.inj hi
    exact ⟨_, rfl, userId, rfl⟩
  | rejecting id userId rest =>
    refine friendInv_free hs' hmine (hs'.release id) (.release id) (fun i hi => ?_)
      (fun _ h => by cases h) (fun _ h => by cases h) hend
    obtain rfl := Option.some.inj hi
    exact ⟨_, rfl, userId, rfl⟩
  | counting friendId id inviterId =>
    exact friendInv_free hs' hmine (hs'.unlockReward inviterId) (.unlockReward inviterId none)
      (fun _ h => by cases h) (fun _ h => by cases h) (fun u hu => ⟨_, rfl, hu⟩) hend
  | granting friendId id inviterId =>
    exact friendInv_free hs' hmine (hs'.unlockReward inviterId) (.unlockReward inviterId none)
      (fun _ h => by cases h) (fun _ h => by cases h) (fun u hu => ⟨_, rfl, hu⟩) hend
  | checking | inserting | reading | turningDown | claiming | paying | locking =>
    exact friendInv_stay hs' hmine hend

theorem FriendCall.keeps {goesOn : Bool} {c : FriendCall} {r : FriendBooks × Option FriendCall}
    (hr : friendCalls.step goesOn c s = some r) : friendInv.Keeps s (some c) r := by
  cases goesOn with
  | true => exact goes_on hr
  | false =>
    obtain rfl := Option.some.inj hr
    exact c.broken_off

theorem FriendEvent.keeps {e : FriendEvent} {r : FriendBooks × Option FriendCall}
    (hr : friendCalls.event e s = some r) : friendInv.Keeps s none r := by
  obtain rfl := Option.some.inj hr
  intro m hs hmine
  have hs' : FriendSound s := hs
  -- accounts change, or time passes
  have haccounts : ∀ {t : FriendBooks}, FriendSound t → t.invites = s.invites →
      s.users.Lasts InviteUser.Stays t.users → t.rowLock = s.rowLock →
      t.rewardLock = s.rewardLock → friendInv.Kept s none m t none := by
    intro t ht hinvites husers hrow hreward
    refine friendInv_quiet hs' hmine ht (.same hinvites husers (fun h _ => ?_) fun _ h => ?_)
      fun a ha => by cases ha
    · rw [hrow]
      exact h
    · rw [hreward]
      exact h
  cases e with
  | createInvite userId friendEmail =>
    refine friendInv_stay hs' hmine fun a ha => ?_
    obtain ⟨email, hemail, rfl⟩ := Option.map_eq_some_iff.1 ha
    have hok := toOption_eq_some.1 hemail
    simp only [friendEmailOf] at hok
    split at hok
    · obtain rfl := Except.ok.inj hok
      exact ⟨lowerCase_lowerCase _, rfl, rfl⟩
    · cases hok
  | acceptInvite id userId =>
    refine friendInv_stay hs' hmine fun a ha => ?_
    have hok := toOption_eq_some.1 ha
    simp only [FriendBooks.invited, bind_eq_ok, exists_punit, refuseIf_eq_ok, orRefuse_eq_ok,
      pure_eq_ok] at hok
    obtain ⟨x, hx, -, -, -, rfl⟩ := hok
    exact ⟨⟨x, hx, rfl, rfl⟩, rfl, rfl⟩
  | pay friendId paid =>
    refine friendInv_stay hs' hmine fun a ha => ?_
    obtain rfl := Option.some.inj ha
    exact ⟨trivial, rfl, rfl⟩
  | register email confirmed =>
    have husers := Table.Lasts.insert InviteUser.Stays.refl s.users
      { email := email, createdAt := s.now, confirmed := confirmed, isActive := true, paid := false }
    refine haccounts (hs'.same rfl rfl husers (fun {i u} hu => ?_) hs'.locked) rfl husers rfl rfl
    simp only [begin] at hu ⊢
    rw [Table.get?_insert] at hu
    split at hu
    · obtain rfl := Option.some.inj hu
      exact Int.lt_succ _
    · have hlt := hs'.users hu
      omega
  | confirmEmail userId =>
    refine haccounts (hs'.accounts (f := fun u => { u with confirmed := true })
      (fun _ => ⟨rfl, rfl, fun h => h⟩) rfl rfl rfl rfl rfl) rfl
      (.modify InviteUser.Stays.refl fun u _ => ⟨rfl, rfl, fun h => h⟩) rfl rfl
  | setActive userId isActive =>
    refine haccounts (hs'.accounts (f := fun u => { u with isActive := isActive })
      (fun _ => ⟨rfl, rfl, fun h => h⟩) rfl rfl rfl rfl rfl) rfl
      (.modify InviteUser.Stays.refl fun u _ => ⟨rfl, rfl, fun h => h⟩) rfl rfl
  | pass time =>
    refine haccounts (hs'.same rfl rfl (.refl InviteUser.Stays.refl _) (fun {i u} hu => ?_)
      hs'.locked) rfl (.refl InviteUser.Stays.refl _) rfl rfl
    have hlt := hs'.users hu
    simp only [begin]
    omega

end Moves

/-! ## Runs -/

/-- Before the first account. -/
def noFriends : FriendBooks where
  now := 0
  users := .empty
  invites := .empty
  coupons := .empty
  rowLock _ := none
  rewardLock _ := false

theorem noFriends_sound : FriendSound noFriends where
  accepted hx := by cases hx
  acceptor hx := by cases hx
  lower hx := by cases hx
  users hu := by cases hu
  locked h := by cases h
  friend hc := by cases hc
  inviter hc := by cases hc
  limit _ := Nat.zero_le _

/-- In every state that any requests and payments reach. -/
theorem friend_rewards {moves : List (Move FriendEvent Bool)} {x : Calls FriendBooks FriendCall}
    (hrun : friendCalls.machine.run (.idle noFriends) moves = some x) : FriendRewards x.shared := by
  have hidle : friendInv.Holds (.idle noFriends) := CallInv.holds_idle noFriends_sound
  have hmeets : friendCalls.machine.Meets (CallSystem.When (fun _ _ => True) fun _ _ _ => True)
      (.idle noFriends) moves := by
    rw [Machine.meets_iff]
    rintro before a after s' - -
    cases a with
    | event e => trivial
    | step i k => exact fun _ _ => trivial
  have hend := hidle.run (fun _ he => FriendEvent.keeps he) (fun _ hc => FriendCall.keeps hc)
    hmeets hrun
  exact FriendSound.rewards hend.whole

/-! ## A run -/

def friendEmail : EmailText := "ana@rua.br".toList

/-- Account 1 invites an e-mail, the account made with it accepts, and pays. -/
def invitedAndPaid : List (Move FriendEvent Bool) :=
  [.event (.register "dono@rua.br".toList true), .event (.createInvite 1 friendEmail),
    .step 1 true, .step 1 true, .step 1 true, .step 1 true, .step 1 true,
    .event (.register friendEmail true), .event (.acceptInvite 1 2),
    .step 2 true, .step 2 true, .step 2 true, .step 2 true,
    .event (.pay 2 true), .step 3 true, .step 3 true, .step 3 true, .step 3 true]

theorem invitedAndPaid_rewards : ∃ x c,
    friendCalls.machine.run (.idle noFriends) invitedAndPaid = some x ∧ FriendRewards x.shared ∧
      x.shared.coupons.get? 2 = some c ∧ c.type = .inviter ∧ c.userId = 1 := by
  have hend : (friendCalls.machine.run (.idle noFriends) invitedAndPaid).any (fun x =>
      (x.shared.coupons.get? 2).any fun c => c.type == .inviter && c.userId == 1) = true := by
    decide +kernel
  obtain ⟨x, hrun, hx⟩ := (Option.any_eq_true _ _).1 hend
  obtain ⟨c, hc, hreward⟩ := (Option.any_eq_true _ _).1 hx
  simp only [Bool.and_eq_true, beq_iff_eq] at hreward
  exact ⟨x, c, hrun, friend_rewards hrun, hc, hreward.1, hreward.2⟩

end Barbershop
