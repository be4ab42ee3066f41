import Barbershop.Lib.Calls
import Barbershop.Lib.Table

/-!
# Codes for a login

The code of a login is in Redis under the login's id, its wrong guesses are in a counter beside it,
and a third key says which login of the account has the code. Each command is atomic. Times are the
seconds of Redis; a key is there until it expires.

A login's id is random and new at each sending, so the row of a login is made when its code is
stored. The fields `wrong`, `checking` and `consumed` of a row and `busy` and `accepted` of the books
are no keys: wrong guesses the code was compared with, calls between such a comparison and the end
of its count, times it was consumed; calls that have read or are about to delete the account's key;
and for each code accepted the id that was free then.
-/

namespace Barbershop

open Lib

def TWO_FACTOR_CODE_EXPIRY_MINUTES : ℕ := 5

def LOGIN_CODE_MAX_ATTEMPTS : ℕ := 6

/-- `auth:login-code:<id>` -/
structure LoginEntry where
  code : String
  expiresAt : ℤ

/-- `auth:login-code-attempts:<id>`, which `INCR` makes without a time. -/
structure LoginAttempts where
  count : ℕ
  expiresAt : Option ℤ

/-- `auth:login-code-user:<email>` -/
structure LoginPointer where
  loginId : ℕ
  expiresAt : ℤ

/-- What there is under the id of a login. -/
structure LoginCode where
  code : Option LoginEntry
  attempts : Option LoginAttempts
  wrong : ℕ
  checking : ℕ
  consumed : ℕ

/-- The logins of one account. -/
structure LoginCodes where
  now : ℤ
  logins : Table LoginCode
  codeByUser : Option LoginPointer
  busy : ℕ
  accepted : List (ℕ × ℕ)

namespace LoginCode

def stored (code : String) (expiresAt : ℤ) : LoginCode where
  code := some ⟨code, expiresAt⟩
  attempts := none
  wrong := 0
  checking := 0
  consumed := 0

/-- `DEL` of both keys -/
def drop (v : LoginCode) : LoginCode := { v with code := none, attempts := none }

def dropAttempts (v : LoginCode) : LoginCode := { v with attempts := none }

def consume (v : LoginCode) : LoginCode := { v with code := none, consumed := v.consumed + 1 }

/-- A wrong guess was compared with the code. -/
def compared (v : LoginCode) : LoginCode :=
  { v with wrong := v.wrong + 1, checking := v.checking + 1 }

/-- The guess is counted. -/
def checked (v : LoginCode) : LoginCode := { v with checking := v.checking - 1 }

def liveCode (now : ℤ) (v : LoginCode) : Option LoginEntry := v.code.filter (now < ·.expiresAt)

def liveAttempts (now : ℤ) (v : LoginCode) : Option LoginAttempts :=
  v.attempts.filter fun a => a.expiresAt.all (now < ·)

/-- `INCR` -/
def incr (now : ℤ) (v : LoginCode) : LoginAttempts :=
  match v.liveAttempts now with
  | some a => { a with count := a.count + 1 }
  | none => ⟨1, none⟩

def count (now : ℤ) (v : LoginCode) : LoginCode := { v with attempts := some (v.incr now) }

/-- `EXPIRE` -/
def expire (now ttl : ℤ) (v : LoginCode) : LoginCode :=
  { v with attempts := (v.liveAttempts now).map fun a => { a with expiresAt := some (now + ttl) } }

end LoginCode

inductive LoginCodeEvent where
  | pass (time : ℕ)
  | sendLoginCode (code : String)
  | resendLoginCode (loginId : ℕ) (code : String)
  | verifyLoginCode (loginId : ℕ) (code : String)

/-- Where a call is, by the command that is next. -/
inductive LoginCodeCall where
  | resending (loginId : ℕ) (code : String)
  -- `sendLoginCode`
  | starting (code : String)
  | removing (previous : ℕ) (code : String)
  | storing (code : String)
  | pointing (loginId : ℕ)
  -- `verifyLoginCode`
  | checking (loginId : ℕ) (code : String)
  | burning (loginId : ℕ)
  | comparing (loginId : ℕ) (code : String)
  | counting (loginId : ℕ)
  | timing (loginId : ℕ)
  | expiring (loginId : ℕ) (ttl : ℤ)
  | dropping (loginId : ℕ)
  | consuming (loginId : ℕ)
  | forgetting (loginId : ℕ)
  | unpointing

namespace LoginCodes

def write (s : LoginCodes) (id : ℕ) (f : LoginCode → LoginCode) : LoginCodes :=
  { s with logins := s.logins.modify id f }

/-- Seconds from now on. -/
def ttl (s : LoginCodes) : ℤ := s.now + TWO_FACTOR_CODE_EXPIRY_MINUTES * 60

def liveCode (s : LoginCodes) (id : ℕ) : Option LoginEntry :=
  (s.logins.get? id).bind (·.liveCode s.now)

def previousLoginId (s : LoginCodes) : Option ℕ :=
  (s.codeByUser.filter (s.now < ·.expiresAt)).map (·.loginId)

def enter (s : LoginCodes) : LoginCodes := { s with busy := s.busy + 1 }

def leave (s : LoginCodes) : LoginCodes := { s with busy := s.busy - 1 }

def accept (s : LoginCodes) (id : ℕ) : LoginCodes :=
  { s with accepted := (id, s.logins.next) :: s.accepted }

end LoginCodes

def LoginCodeEvent.step (e : LoginCodeEvent) (s : LoginCodes) :
    Option (LoginCodes × Option LoginCodeCall) :=
  match e with
  | pass time => some ({ s with now := s.now + time }, none)
  | sendLoginCode code => some (s, some (.starting code))
  | resendLoginCode loginId code => some (s, some (.resending loginId code))
  | verifyLoginCode loginId code => some (s, some (.checking loginId code))

def LoginCodeCall.step (c : LoginCodeCall) (s : LoginCodes) :
    Option (LoginCodes × Option LoginCodeCall) :=
  match c with
  | resending loginId code =>
    some (s, if (s.liveCode loginId).isSome then some (starting code) else none)
  | starting code =>
    some (s.enter, some (s.previousLoginId.elim (storing code) fun previous => removing previous code))
  | removing previous code => some (s.write previous LoginCode.drop, some (storing code))
  | storing code =>
    some ({ s with logins := s.logins.insert (.stored code s.ttl) }, some (pointing s.logins.next))
  | pointing loginId => some ({ s.leave with codeByUser := some ⟨loginId, s.ttl⟩ }, none)
  | checking loginId code =>
    let used := ((s.logins.get? loginId).bind (·.liveAttempts s.now)).elim 0 (·.count)
    some (s, some (if used < LOGIN_CODE_MAX_ATTEMPTS then comparing loginId code else burning loginId))
  | burning loginId => some (s.write loginId LoginCode.drop, none)
  | comparing loginId code =>
    match s.liveCode loginId with
    | none => some (s, none)
    | some entry =>
      if entry.code ≠ code then some (s.write loginId LoginCode.compared, some (counting loginId))
      else some (s, some (consuming loginId))
  | counting loginId =>
    match s.logins.get? loginId with
    | none => some (s, none)
    | some v =>
      let n := (v.incr s.now).count
      if n = 1 then some (s.write loginId (LoginCode.count s.now), some (timing loginId))
      else if LOGIN_CODE_MAX_ATTEMPTS ≤ n then
        some (s.write loginId (LoginCode.count s.now), some (dropping loginId))
      else some (s.write loginId fun v => (v.count s.now).checked, none)
  | timing loginId =>
    match s.liveCode loginId with
    | some entry => some (s, some (expiring loginId (entry.expiresAt - s.now)))
    -- the code is gone: `ttl` is negative
    | none => some (s.write loginId LoginCode.checked, none)
  | expiring loginId ttl => some (s.write loginId fun v => (v.expire s.now ttl).checked, none)
  | dropping loginId => some (s.write loginId fun v => v.drop.checked, none)
  | consuming loginId =>
    match s.liveCode loginId with
    | none => some (s, none)
    | some _ =>
      some (((s.write loginId LoginCode.consume).accept loginId).enter, some (forgetting loginId))
  | forgetting loginId => some (s.write loginId LoginCode.dropAttempts, some unpointing)
  | unpointing => some ({ s.leave with codeByUser := none }, none)

def loginCodes : CallSystem LoginCodes LoginCodeCall LoginCodeEvent Unit :=
  ⟨LoginCodeEvent.step, fun _ => LoginCodeCall.step⟩

/-! ## The law -/

structure LoginCodes.Guarded (s : LoginCodes) : Prop where
  guesses : ∀ id v, s.logins.get? id = some v → v.wrong ≤ LOGIN_CODE_MAX_ATTEMPTS
  once : ∀ id v, s.logins.get? id = some v → v.consumed ≤ 1
  /-- What was accepted was the newest code. -/
  newest : ∀ a ∈ s.accepted, a.2 = a.1 + 1

/-- A sending reads the account's key, and a right guess takes its code, while no other call is
between reading or taking and its last command on that key; a wrong guess is compared while no other
is being counted. -/
def LoginCodeCall.apart (c : LoginCodeCall) (s : LoginCodes) : Bool :=
  match c with
  | starting _ => s.busy == 0
  | consuming loginId => (s.liveCode loginId).isNone || s.busy == 0
  | comparing loginId code =>
    (s.liveCode loginId).all (·.code == code) || (s.logins.get? loginId).all (·.checking == 0)
  | _ => true

/-! ## Why it holds -/

/-- The counter says `n`, and is there as long as the code. -/
def LoginEntry.Tally (e : LoginEntry) (n : ℕ) : Option LoginAttempts → Prop
  | none => n = 0
  | some a => a.count = n ∧ ∀ t ∈ a.expiresAt, e.expiresAt ≤ t

structure LoginCode.Counted (now : ℤ) (v : LoginCode) : Prop where
  wrong : v.wrong ≤ LOGIN_CODE_MAX_ATTEMPTS
  consumed : v.consumed ≤ 1
  taken : v.consumed = 1 → v.code = none
  /-- Once no guess is being counted, those of an open code were. -/
  written : v.checking = 0 → ∀ e ∈ v.liveCode now,
    v.wrong < LOGIN_CODE_MAX_ATTEMPTS ∧ e.Tally v.wrong v.attempts

/-- Every open code is one of these. -/
def LoginCodes.Only (s : LoginCodes) (P : ℕ → LoginEntry → Prop) : Prop :=
  ∀ id, ∀ e ∈ s.liveCode id, P id e

structure LoginCodes.Sound (s : LoginCodes) : Prop where
  counted : ∀ {id v}, s.logins.get? id = some v → v.Counted s.now
  newest : s.Only fun id _ => id + 1 = s.logins.next
  /-- The account's key has the login whose code is open. -/
  pointed : s.busy = 0 → s.Only fun id e =>
    ∃ p, s.codeByUser = some p ∧ p.loginId = id ∧ e.expiresAt ≤ p.expiresAt
  accepted : ∀ a ∈ s.accepted, a.2 = a.1 + 1

/-- The login that a call is counting a wrong guess of. -/
def LoginCodeCall.held : LoginCodeCall → Option ℕ
  | counting id | timing id | expiring id _ | dropping id => some id
  | _ => none

/-- The call has read the account's key, or taken a code, and is not done with the key. -/
def LoginCodeCall.active : LoginCodeCall → Bool
  | removing _ _ | storing _ | pointing _ | forgetting _ | unpointing => true
  | _ => false

/-- What a call knows of the guess that it counts. -/
def LoginCodeCall.Counts (now : ℤ) (v : LoginCode) : LoginCodeCall → Prop
  | counting _ => ∀ e ∈ v.liveCode now, e.Tally (v.wrong - 1) v.attempts ∧ 0 < v.wrong
  | timing _ => ∀ e ∈ v.liveCode now, e.Tally 1 v.attempts ∧ v.wrong = 1
  | expiring _ ttl => ∀ e ∈ v.liveCode now, e.Tally 1 v.attempts ∧ v.wrong = 1 ∧
      e.expiresAt ≤ now + ttl
  | _ => True

/-- What a call knows of the account's codes. -/
def LoginCodeCall.Leaves (s : LoginCodes) : LoginCodeCall → Prop
  | removing previous _ => s.Only fun id _ => id = previous
  | storing _ | unpointing => s.Only fun _ _ => False
  | pointing loginId => s.Only fun id e => id = loginId ∧ e.expiresAt ≤ s.ttl
  | forgetting loginId => (s.Only fun _ _ => False) ∧
      ∃ v, s.logins.get? loginId = some v ∧ v.code = none
  | _ => True

structure LoginCodeCall.Knows (s : LoginCodes) (c : LoginCodeCall) : Prop where
  counts : ∀ id ∈ c.held, ∃ v, s.logins.get? id = some v ∧ v.checking = 1 ∧ c.Counts s.now v
  leaves : c.Leaves s
  busy : c.active = true → s.busy = 1

def loginCodesInv : CallInv LoginCodes LoginCodeCall ℕ where
  weight _ := 0
  whole s _ := s.Sound
  each s c := c.Knows s
  pair a b := (∀ id ∈ a.held, id ∉ b.held) ∧ ¬(a.active = true ∧ b.active = true)
  symm h := ⟨fun id hb ha => h.1 id ha hb, fun hboth => h.2 hboth.symm⟩

/-! ### What others may do to a login -/

/-- The code stays, or goes. -/
def LoginCode.Fades (v v' : LoginCode) : Prop := v'.code = none ∨ v'.code = v.code

/-- Nor is a guess counted of a code that stays. -/
structure LoginCode.Rests (v v' : LoginCode) : Prop where
  wrong : v'.wrong = v.wrong
  checking : v'.checking = v.checking
  code : v'.code = none ∨ v'.code = v.code ∧ v'.attempts = v.attempts

namespace LoginCode

variable {v v' : LoginCode} {now now' : ℤ} {e : LoginEntry}

theorem Rests.refl (v : LoginCode) : v.Rests v := ⟨rfl, rfl, .inr ⟨rfl, rfl⟩⟩

theorem Rests.fades (h : v.Rests v') : v.Fades v' := h.code.imp_right And.left

theorem mem_liveCode : e ∈ v.liveCode now ↔ v.code = some e ∧ now < e.expiresAt := by
  simp [liveCode, Option.filter_eq_some_iff, Option.mem_def]

theorem Fades.live (h : v.Fades v') (hnow : now ≤ now') (he : e ∈ v'.liveCode now') :
    e ∈ v.liveCode now := by
  rw [mem_liveCode] at he ⊢
  rcases h with hnone | hsame
  · rw [hnone] at he
    cases he.1
  · exact ⟨hsame.symm.trans he.1, hnow.trans_lt he.2⟩

theorem Rests.live (h : v.Rests v') (hnow : now ≤ now') (he : e ∈ v'.liveCode now') :
    e ∈ v.liveCode now ∧ v'.attempts = v.attempts := by
  refine ⟨h.fades.live hnow he, ?_⟩
  rcases h.code with hnone | ⟨-, hattempts⟩
  · rw [mem_liveCode, hnone] at he
    cases he.1
  · exact hattempts

end LoginCode

open LoginCode in
theorem LoginCodeCall.Counts.rests {v v' : LoginCode} {now now' : ℤ} {c : LoginCodeCall}
    (h : c.Counts now v) (hv : v.Rests v') (hnow : now ≤ now') : c.Counts now' v' := by
  cases c with
  | counting id =>
    intro e he
    obtain ⟨hlive, hattempts⟩ := hv.live hnow he
    rw [hattempts, hv.wrong]
    exact h e hlive
  | timing id =>
    intro e he
    obtain ⟨hlive, hattempts⟩ := hv.live hnow he
    rw [hattempts, hv.wrong]
    exact h e hlive
  | expiring id ttl =>
    intro e he
    obtain ⟨hlive, hattempts⟩ := hv.live hnow he
    rw [hattempts, hv.wrong]
    obtain ⟨htally, hone, hle⟩ := h e hlive
    exact ⟨htally, hone, by omega⟩
  | _ => trivial

section Frame

variable {s s' : LoginCodes} {c d : LoginCodeCall} {id : ℕ}

theorem LoginCodes.mem_liveCode {e : LoginEntry} : e ∈ s.liveCode id ↔
    ∃ v, s.logins.get? id = some v ∧ e ∈ v.liveCode s.now := by
  rw [LoginCodes.liveCode, Option.mem_def, Option.bind_eq_some_iff]
  rfl

/-- What a move that stores no code does to the logins. -/
structure LoginCodes.Wanes (s s' : LoginCodes) : Prop where
  now : s.now ≤ s'.now
  next : s'.logins.next = s.logins.next
  rows : ∀ {id v'}, s'.logins.get? id = some v' → ∃ v, s.logins.get? id = some v ∧ v.Fades v'
  lasts : ∀ {id v}, s.logins.get? id = some v → ∃ v', s'.logins.get? id = some v' ∧ v.Fades v'

theorem LoginCodes.Only.wanes {P : ℕ → LoginEntry → Prop} (h : s.Only P) (hw : s.Wanes s') :
    s'.Only P := by
  intro id e he
  obtain ⟨v', hv', he'⟩ := mem_liveCode.1 he
  obtain ⟨v, hv, hfades⟩ := hw.rows hv'
  exact h id e (mem_liveCode.2 ⟨v, hv, hfades.live hw.now he'⟩)

theorem LoginCodes.Only.imp {P Q : ℕ → LoginEntry → Prop} (h : s.Only P)
    (himp : ∀ id e, P id e → Q id e) : s.Only Q :=
  fun id e he => himp id e (h id e he)

theorem LoginCodeCall.Leaves.wanes (h : c.Leaves s) (hw : s.Wanes s') : c.Leaves s' := by
  cases c with
  | removing previous code => exact LoginCodes.Only.wanes h hw
  | storing code => exact LoginCodes.Only.wanes h hw
  | unpointing => exact LoginCodes.Only.wanes h hw
  | pointing loginId =>
    refine (LoginCodes.Only.wanes h hw).imp fun id e he => ⟨he.1, he.2.trans ?_⟩
    exact Int.add_le_add_right hw.now _
  | forgetting loginId =>
    obtain ⟨honly, v, hv, hnone⟩ := h
    obtain ⟨v', hv', hfades⟩ := hw.lasts hv
    exact ⟨honly.wanes hw, v', hv', hfades.elim (fun h => h) fun heq => heq.trans hnone⟩
  | _ => trivial

theorem LoginCodes.Wanes.write {f : LoginCode → LoginCode}
    (hf : ∀ v, s.logins.get? id = some v → v.Fades (f v)) : s.Wanes (s.write id f) where
  now := le_rfl
  next := rfl
  rows := by
    intro j v' hv'
    rw [LoginCodes.write, Table.get?_modify] at hv'
    split at hv'
    · next hj =>
      obtain ⟨v, hv, rfl⟩ := Option.map_eq_some_iff.1 hv'
      rw [hj] at hv ⊢
      exact ⟨v, hv, hf v hv⟩
    · exact ⟨v', hv', .inr rfl⟩
  lasts := by
    intro j v hv
    by_cases hj : j = id
    · subst hj
      refine ⟨f v, ?_, hf v hv⟩
      rw [LoginCodes.write, Table.get?_modify_self, hv, Option.map_some]
    · refine ⟨v, ?_, .inr rfl⟩
      rw [LoginCodes.write, Table.get?_modify_of_ne _ _ hj, hv]

theorem LoginCodeCall.Knows.frame (h : d.Knows s) (hnow : s.now ≤ s'.now)
    (hrests : ∀ id ∈ d.held, ∀ v, s.logins.get? id = some v →
      ∃ v', s'.logins.get? id = some v' ∧ v.Rests v')
    (hleaves : d.Leaves s') (hbusy : d.active = true → s'.busy = 1) : d.Knows s' where
  counts := by
    intro id hid
    obtain ⟨v, hv, hchecking, hcounts⟩ := h.counts id hid
    obtain ⟨v', hv', hr⟩ := hrests id hid v hv
    exact ⟨v', hv', hr.checking.trans hchecking, hcounts.rests hr hnow⟩
  leaves := hleaves
  busy := hbusy

/-- One login is written. -/
theorem LoginCodeCall.Knows.write (h : d.Knows s) {f : LoginCode → LoginCode}
    (hf : ∀ v, s.logins.get? id = some v → v.Fades (f v))
    (hrests : id ∈ d.held → ∀ v, s.logins.get? id = some v → v.Rests (f v)) :
    d.Knows (s.write id f) := by
  refine h.frame le_rfl (fun j hj v hv => ?_) (h.leaves.wanes (.write hf)) h.busy
  by_cases hid : j = id
  · subst hid
    refine ⟨f v, ?_, hrests hj v hv⟩
    rw [LoginCodes.write, Table.get?_modify_self, hv, Option.map_some]
  · refine ⟨v, ?_, .refl v⟩
    rw [LoginCodes.write, Table.get?_modify_of_ne _ _ hid, hv]

theorem LoginCode.Counted.rests {v v' : LoginCode} {now now' : ℤ} (h : v.Counted now)
    (hr : v.Rests v') (hnow : now ≤ now') (hconsumed : v'.consumed = v.consumed) :
    v'.Counted now' where
  wrong := hr.wrong ▸ h.wrong
  consumed := hconsumed ▸ h.consumed
  taken hone := by
    rw [hconsumed] at hone
    exact hr.fades.elim (fun h => h) fun heq => heq.trans (h.taken hone)
  written hzero e he := by
    obtain ⟨hlive, hattempts⟩ := hr.live hnow he
    rw [hr.wrong, hattempts]
    exact h.written (hr.checking ▸ hzero) e hlive

theorem LoginCodes.Sound.write (h : s.Sound) {f : LoginCode → LoginCode}
    (hf : ∀ v, s.logins.get? id = some v → v.Fades (f v) ∧ (f v).Counted s.now) :
    (s.write id f).Sound where
  counted := by
    intro j v' hv'
    rw [LoginCodes.write, Table.get?_modify] at hv'
    split at hv'
    · next hj =>
      obtain ⟨v, hv, rfl⟩ := Option.map_eq_some_iff.1 hv'
      rw [hj] at hv
      exact (hf v hv).2
    · exact h.counted hv'
  newest := h.newest.wanes (.write fun v hv => (hf v hv).1)
  pointed hzero := (h.pointed hzero).wanes (.write fun v hv => (hf v hv).1)
  accepted := h.accepted

/-- The same, where what is left is at rest. -/
theorem LoginCodes.Sound.rests (h : s.Sound) {f : LoginCode → LoginCode}
    (hf : ∀ v, s.logins.get? id = some v → v.Rests (f v) ∧ (f v).consumed = v.consumed) :
    (s.write id f).Sound := by
  refine h.write fun v hv => ?_
  obtain ⟨hr, hconsumed⟩ := hf v hv
  exact ⟨hr.fades, (h.counted hv).rests hr le_rfl hconsumed⟩

theorem LoginCodes.Sound.guarded (h : s.Sound) : s.Guarded where
  guesses _ _ hv := (h.counted hv).wrong
  once _ _ hv := (h.counted hv).consumed
  newest := h.accepted

theorem LoginCode.rests_drop (v : LoginCode) : v.Rests v.drop := ⟨rfl, rfl, .inl rfl⟩

theorem LoginCode.rests_consume (v : LoginCode) : v.Rests v.consume := ⟨rfl, rfl, .inl rfl⟩

/-- What a call goes on with holds nothing new. -/
theorem LoginKept.pair_on {b : LoginCodeCall} (hactive : b.active = true → c.active = true)
    (hheld : ∀ id ∈ b.held, id ∈ c.held) (hpair : loginCodesInv.pair c d) :
    loginCodesInv.pair b d :=
  ⟨fun id hid => hpair.1 id (hheld id hid), fun hb => hpair.2 ⟨hactive hb.1, hb.2⟩⟩

theorem LoginKept.inactive_of_active (hc : c.active = true) (hpair : loginCodesInv.pair c d) :
    d.active = false := by
  cases hd : d.active with
  | false => rfl
  | true => exact absurd ⟨hc, hd⟩ hpair.2

theorem LoginCodeCall.Knows.inactive (h : d.Knows s) (hzero : s.busy = 0) : d.active = false := by
  cases hd : d.active with
  | false => rfl
  | true =>
    have hone := h.busy hd
    omega

/-- A call that is not at the account's key knows nothing of the codes. -/
theorem LoginCodeCall.leaves_of_inactive (hd : d.active = false) : d.Leaves s := by
  cases d with
  | removing previous code | storing code | pointing id | forgetting id | unpointing => cases hd
  | _ => trivial

/-- The same, when only calls at the account's key are concerned. -/
theorem LoginCodeCall.Knows.beside (h : d.Knows s) (hd : d.active = false) (hnow : s.now ≤ s'.now)
    (hrests : ∀ id ∈ d.held, ∀ v, s.logins.get? id = some v →
      ∃ v', s'.logins.get? id = some v' ∧ v.Rests v') : d.Knows s' :=
  h.frame hnow hrests (leaves_of_inactive hd) fun hactive => by
    rw [hd] at hactive
    cases hactive

/-- A call that counts no guess. -/
theorem LoginCodeCall.knows_of_unheld (hheld : d.held = none) (hleaves : d.Leaves s)
    (hbusy : d.active = true → s.busy = 1) : d.Knows s where
  counts _ hid := by
    rw [hheld] at hid
    cases hid
  leaves := hleaves
  busy := hbusy

/-- A call that neither counts a guess nor is at the account's key. -/
theorem LoginCodeCall.knows_of_idle (hheld : d.held = none) (hd : d.active = false) : d.Knows s :=
  knows_of_unheld hheld (leaves_of_inactive hd) fun hactive => by
    rw [hd] at hactive
    cases hactive

end Frame

/-! ### Moves -/

section Moves

variable {s : LoginCodes} {id : ℕ} {code : String} {r : LoginCodes × Option LoginCodeCall}

theorem LoginKept.stay {c b : LoginCodeCall} {m : ℕ} (hwhole : s.Sound)
    (hactive : b.active = true → c.active = true) (hheld : ∀ id ∈ b.held, id ∈ c.held)
    (hb : b.Knows s) : loginCodesInv.Kept s (some c) m s (some b) := by
  refine .stay hwhole rfl (fun a ha => ?_) fun d hpair a ha => ?_
  · obtain rfl := Option.mem_some.1 ha
    exact hb
  · obtain rfl := Option.mem_some.1 ha
    exact LoginKept.pair_on hactive hheld (hpair c rfl)

/-- A login is written, and the call goes on. -/
theorem LoginKept.write {c b : LoginCodeCall} {m : ℕ} {f : LoginCode → LoginCode}
    (hs' : (s.write id f).Sound) (hactive : b.active = true → c.active = true)
    (hheld : ∀ id ∈ b.held, id ∈ c.held) (hb : b.Knows (s.write id f))
    (hf : ∀ v, s.logins.get? id = some v → v.Fades (f v))
    (hrests : id ∈ c.held ∨ ∀ v, s.logins.get? id = some v → v.Rests (f v)) :
    loginCodesInv.Kept s (some c) m (s.write id f) (some b) := by
  refine ⟨hs', fun a ha => ?_, fun d hd hpair => ?_, fun d _ hpair a ha => ?_⟩
  · obtain rfl := Option.mem_some.1 ha
    exact hb
  · refine LoginCodeCall.Knows.write hd hf fun hid => ?_
    rcases hrests with hmine | hrests
    · exact absurd hid ((hpair c rfl).1 id hmine)
    · exact hrests
  · obtain rfl := Option.mem_some.1 ha
    exact LoginKept.pair_on hactive hheld (hpair c rfl)

/-- A login is written, and the call is over. -/
theorem LoginKept.over {c : LoginCodeCall} {m : ℕ} {f : LoginCode → LoginCode}
    (hs' : (s.write id f).Sound) (hf : ∀ v, s.logins.get? id = some v → v.Fades (f v))
    (hrests : id ∈ c.held ∨ ∀ v, s.logins.get? id = some v → v.Rests (f v)) :
    loginCodesInv.Kept s (some c) m (s.write id f) none := by
  refine .over hs' fun d hd hpair => LoginCodeCall.Knows.write hd hf fun hid => ?_
  rcases hrests with hmine | hrests
  · exact absurd hid ((hpair c rfl).1 id hmine)
  · exact hrests

theorem loginCodes_event {e : LoginCodeEvent} (hevent : e.step s = some r) :
    loginCodesInv.Keeps s none r := by
  intro m hwhole _
  have hbegin : ∀ {c : LoginCodeCall}, c.held = none → c.active = false →
      loginCodesInv.Kept s none m s (some c) := by
    intro c hheld hactive
    refine .stay hwhole rfl (fun b hb => ?_) fun d _ b hb => ⟨fun id hid => ?_, fun hboth => ?_⟩
    · obtain rfl := Option.mem_some.1 hb
      exact LoginCodeCall.knows_of_idle hheld hactive
    · obtain rfl := Option.mem_some.1 hb
      rw [hheld] at hid
      cases hid
    · obtain rfl := Option.mem_some.1 hb
      rw [hactive] at hboth
      cases hboth.1
  cases e with
  | pass time =>
    obtain rfl := Option.some.inj hevent
    have hnow : s.now ≤ s.now + time := by simp
    have hw : s.Wanes { s with now := s.now + time } :=
      ⟨hnow, rfl, fun hv => ⟨_, hv, .inr rfl⟩, fun hv => ⟨_, hv, .inr rfl⟩⟩
    refine .over ⟨fun hv => ?_, hwhole.newest.wanes hw, fun hzero => (hwhole.pointed hzero).wanes hw,
      hwhole.accepted⟩ fun d hd _ => ?_
    · exact (hwhole.counted hv).rests (.refl _) hnow rfl
    · have hknows : d.Knows s := hd
      exact hknows.frame hnow (fun _ _ v hv => ⟨v, hv, .refl v⟩) (hknows.leaves.wanes hw) hknows.busy
  | sendLoginCode code =>
    obtain rfl := Option.some.inj hevent
    exact hbegin rfl rfl
  | resendLoginCode loginId code =>
    obtain rfl := Option.some.inj hevent
    exact hbegin rfl rfl
  | verifyLoginCode loginId code =>
    obtain rfl := Option.some.inj hevent
    exact hbegin rfl rfl

/-! ### Sendings -/

/-- With nobody at the account's key, it has the login of the code that is open. -/
theorem LoginCodes.Sound.previous (h : s.Sound) (hzero : s.busy = 0) :
    s.Only fun id _ => s.previousLoginId = some id := by
  intro id e he
  obtain ⟨p, hp, rfl, hle⟩ := h.pointed hzero id e he
  obtain ⟨v, -, hlive⟩ := LoginCodes.mem_liveCode.1 he
  have hlt := (LoginCode.mem_liveCode.1 hlive).2.trans_le hle
  simp [LoginCodes.previousLoginId, hp, hlt]

theorem LoginKept.resending (hstep : (LoginCodeCall.resending id code).step s = some r) :
    loginCodesInv.Keeps s (some (.resending id code)) r := by
  intro m hwhole _
  obtain rfl := Option.some.inj hstep
  dsimp only
  split
  · exact LoginKept.stay hwhole (fun h => by cases h) (fun _ h => by cases h)
      (LoginCodeCall.knows_of_idle rfl rfl)
  · exact .over hwhole fun d hd _ => hd

/-- The account's key is read. -/
theorem LoginKept.starting (happart : (LoginCodeCall.starting code).apart s = true)
    (hstep : (LoginCodeCall.starting code).step s = some r) :
    loginCodesInv.Keeps s (some (.starting code)) r := by
  intro m hwhole _
  obtain rfl := Option.some.inj hstep
  have hzero : s.busy = 0 := by simpa [LoginCodeCall.apart] using happart
  have hone : s.enter.busy = 1 := by
    show s.busy + 1 = 1
    omega
  have hnext : ∀ b ∈ some (s.previousLoginId.elim (LoginCodeCall.storing code)
      fun previous => .removing previous code), b.held = none ∧ b.Leaves s.enter := by
    intro b hb
    obtain rfl := Option.mem_some.1 hb
    have hpointed := hwhole.previous hzero
    cases hprevious : s.previousLoginId with
    | none =>
      refine ⟨rfl, hpointed.imp fun id e he => ?_⟩
      rw [hprevious] at he
      cases he
    | some previous =>
      refine ⟨rfl, hpointed.imp fun id e he => ?_⟩
      rw [hprevious] at he
      exact (Option.some.inj he).symm
  refine ⟨⟨hwhole.counted, hwhole.newest, fun hz => absurd (hone.symm.trans hz) (by decide),
    hwhole.accepted⟩, fun b hb => ?_, fun d hd _ => ?_, fun d hd _ b hb => ?_⟩
  · obtain ⟨hheld, hleaves⟩ := hnext b hb
    refine ⟨fun id hid => ?_, hleaves, fun _ => hone⟩
    rw [hheld] at hid
    cases hid
  · exact LoginCodeCall.Knows.beside hd (LoginCodeCall.Knows.inactive hd hzero) le_rfl
      fun _ _ v hv => ⟨v, hv, .refl v⟩
  · refine ⟨fun id hid => ?_, fun hboth => ?_⟩
    · rw [(hnext b hb).1] at hid
      cases hid
    · rw [LoginCodeCall.Knows.inactive hd hzero] at hboth
      cases hboth.2

/-- Where only one login had an open code and is written without one, none has. -/
theorem LoginCodes.Only.write_none {f : LoginCode → LoginCode} (h : s.Only fun j _ => j = id)
    (hf : ∀ v, (f v).code = none) : (s.write id f).Only fun _ _ => False := by
  have hw : s.Wanes (s.write id f) := .write fun v _ => .inl (hf v)
  intro j e he
  obtain rfl : j = id := h.wanes hw j e he
  obtain ⟨v', hv', hlive⟩ := LoginCodes.mem_liveCode.1 he
  rw [LoginCodes.write, Table.get?_modify_self] at hv'
  obtain ⟨v, -, rfl⟩ := Option.map_eq_some_iff.1 hv'
  rw [LoginCode.mem_liveCode, hf v] at hlive
  cases hlive.1

theorem LoginKept.removing (hstep : (LoginCodeCall.removing id code).step s = some r) :
    loginCodesInv.Keeps s (some (.removing id code)) r := by
  intro m hwhole hmine
  have hknows : LoginCodeCall.Knows s (.removing id code) := hmine _ rfl
  obtain rfl := Option.some.inj hstep
  have hrests : ∀ v, s.logins.get? id = some v → v.Rests v.drop := fun v _ => v.rests_drop
  have honly := LoginCodes.Only.write_none (f := LoginCode.drop) hknows.leaves fun _ => rfl
  exact LoginKept.write (hwhole.rests fun v hv => ⟨hrests v hv, rfl⟩) (fun _ => rfl)
    (fun _ h => by cases h) (LoginCodeCall.knows_of_unheld rfl honly hknows.busy)
    (fun v hv => (hrests v hv).fades) (.inr hrests)

theorem LoginKept.storing (hstep : (LoginCodeCall.storing code).step s = some r) :
    loginCodesInv.Keeps s (some (.storing code)) r := by
  intro m hwhole hmine
  have hknows : LoginCodeCall.Knows s (.storing code) := hmine _ rfl
  obtain rfl := Option.some.inj hstep
  have hbusy : s.busy = 1 := hknows.busy rfl
  have honly : LoginCodes.Only { s with logins := s.logins.insert (.stored code s.ttl) }
      fun id e => id = s.logins.next ∧ e.expiresAt ≤ s.ttl := by
    intro id e he
    obtain ⟨v, hv, hlive⟩ := LoginCodes.mem_liveCode.1 he
    rcases Table.get?_insert_cases hv with ⟨hid, rfl⟩ | hv
    · refine ⟨hid, ?_⟩
      obtain rfl := Option.some.inj (LoginCode.mem_liveCode.1 hlive).1
      exact le_rfl
    · exact (hknows.leaves id e (LoginCodes.mem_liveCode.2 ⟨v, hv, hlive⟩)).elim
  refine ⟨⟨fun hv => ?_, honly.imp fun id e he => ?_, fun hz => ?_, hwhole.accepted⟩,
    fun b hb => ?_, fun d hd hpair => ?_, fun d _ hpair b hb => ?_⟩
  · rcases Table.get?_insert_cases hv with ⟨-, rfl⟩ | hv
    · exact ⟨Nat.zero_le _, Nat.zero_le _, fun h => (by cases h), fun _ _ _ => ⟨Nat.succ_pos 5, rfl⟩⟩
    · exact hwhole.counted hv
  · rw [he.1, Table.next_insert]
  · exact absurd (hbusy.symm.trans hz) (by decide)
  · obtain rfl := Option.mem_some.1 hb
    exact LoginCodeCall.knows_of_unheld rfl honly fun _ => hbusy
  · have hd' := LoginKept.inactive_of_active rfl (hpair _ rfl)
    exact LoginCodeCall.Knows.beside hd hd' le_rfl
      fun _ _ v hv => ⟨v, Table.get?_insert_of_some _ hv, .refl v⟩
  · obtain rfl := Option.mem_some.1 hb
    exact LoginKept.pair_on (fun _ => rfl) (fun _ h => by cases h) (hpair _ rfl)

/-- A call that is done with the account's key leaves it with the login whose code is open. -/
theorem LoginKept.leave {c : LoginCodeCall} {m : ℕ} {p : Option LoginPointer} (hwhole : s.Sound)
    (hactive : c.active = true)
    (hp : s.Only fun id e => ∃ q, p = some q ∧ q.loginId = id ∧ e.expiresAt ≤ q.expiresAt) :
    loginCodesInv.Kept s (some c) m { s.leave with codeByUser := p } none := by
  refine .over ⟨hwhole.counted, hwhole.newest, fun _ => hp, hwhole.accepted⟩ fun d hd hpair => ?_
  exact LoginCodeCall.Knows.beside hd (LoginKept.inactive_of_active hactive (hpair c rfl)) le_rfl
    fun _ _ v hv => ⟨v, hv, .refl v⟩

theorem LoginKept.pointing (hstep : (LoginCodeCall.pointing id).step s = some r) :
    loginCodesInv.Keeps s (some (.pointing id)) r := by
  intro m hwhole hmine
  have hknows : LoginCodeCall.Knows s (.pointing id) := hmine _ rfl
  obtain rfl := Option.some.inj hstep
  refine LoginKept.leave hwhole rfl (hknows.leaves.imp fun j e he => ?_)
  exact ⟨⟨id, s.ttl⟩, rfl, he.1.symm, he.2⟩

theorem LoginKept.unpointing (hstep : LoginCodeCall.unpointing.step s = some r) :
    loginCodesInv.Keeps s (some .unpointing) r := by
  intro m hwhole hmine
  have hknows : LoginCodeCall.Knows s .unpointing := hmine _ rfl
  obtain rfl := Option.some.inj hstep
  exact LoginKept.leave hwhole rfl (hknows.leaves.imp fun _ _ he => he.elim)

/-! ### Guesses -/

theorem LoginKept.checking (hstep : (LoginCodeCall.checking id code).step s = some r) :
    loginCodesInv.Keeps s (some (.checking id code)) r := by
  intro m hwhole _
  obtain rfl := Option.some.inj hstep
  dsimp only
  split
  · exact LoginKept.stay hwhole (fun h => by cases h) (fun _ h => by cases h)
      (LoginCodeCall.knows_of_idle rfl rfl)
  · exact LoginKept.stay hwhole (fun h => by cases h) (fun _ h => by cases h)
      (LoginCodeCall.knows_of_idle rfl rfl)

theorem LoginKept.burning (hstep : (LoginCodeCall.burning id).step s = some r) :
    loginCodesInv.Keeps s (some (.burning id)) r := by
  intro m hwhole _
  obtain rfl := Option.some.inj hstep
  have hrests : ∀ v, s.logins.get? id = some v → v.Rests v.drop := fun v _ => v.rests_drop
  exact LoginKept.over (hwhole.rests fun v hv => ⟨hrests v hv, rfl⟩)
    (fun v hv => (hrests v hv).fades) (.inr hrests)

theorem LoginKept.comparing (happart : (LoginCodeCall.comparing id code).apart s = true)
    (hstep : (LoginCodeCall.comparing id code).step s = some r) :
    loginCodesInv.Keeps s (some (.comparing id code)) r := by
  intro m hwhole _
  simp only [LoginCodeCall.step] at hstep
  split at hstep
  · obtain rfl := Option.some.inj hstep
    exact .over hwhole fun d hd _ => hd
  next entry hentry =>
  obtain ⟨v, hv, hlive⟩ := LoginCodes.mem_liveCode.1 (Option.mem_def.2 hentry)
  split_ifs at hstep with hwrong
  · obtain rfl := Option.some.inj hstep
    have hfree : v.checking = 0 := by
      simpa [LoginCodeCall.apart, hentry, hwrong, hv] using happart
    have hcounted := hwhole.counted hv
    obtain ⟨hlt, -⟩ := hcounted.written hfree entry hlive
    have hself : (s.write id LoginCode.compared).logins.get? id = some v.compared := by
      rw [LoginCodes.write, Table.get?_modify_self, hv, Option.map_some]
    have hothers : ∀ {d : LoginCodeCall}, d.Knows s → id ∉ d.held := by
      intro d hd hid
      obtain ⟨w, hw, hone, -⟩ := hd.counts id hid
      rw [hv] at hw
      obtain rfl := Option.some.inj hw
      omega
    refine ⟨hwhole.write fun w hw => ?_, fun b hb => ?_, fun d hd _ => ?_, fun d hd _ b hb => ?_⟩
    · rw [hv] at hw
      obtain rfl := Option.some.inj hw
      refine ⟨.inr rfl, ?_, hcounted.consumed, hcounted.taken, fun hzero => ?_⟩
      · show v.wrong + 1 ≤ _
        omega
      · exact absurd hzero (Nat.succ_ne_zero _)
    · obtain rfl := Option.mem_some.1 hb
      refine ⟨fun j hj => ?_, trivial, fun h => by cases h⟩
      obtain rfl := Option.some.inj hj
      refine ⟨v.compared, hself, ?_, fun e he => ?_⟩
      · show v.checking + 1 = 1
        omega
      · have he' : e ∈ v.liveCode s.now := he
        exact ⟨(hcounted.written hfree e he').2, Nat.succ_pos _⟩
    · exact LoginCodeCall.Knows.write hd (fun _ _ => .inr rfl) fun hid => absurd hid (hothers hd)
    · obtain rfl := Option.mem_some.1 hb
      refine ⟨fun j hj => ?_, fun hboth => by cases hboth.1⟩
      obtain rfl := Option.some.inj hj
      exact hothers hd
  · obtain rfl := Option.some.inj hstep
    exact LoginKept.stay hwhole (fun h => by cases h) (fun _ h => by cases h)
      (LoginCodeCall.knows_of_idle rfl rfl)

/-- A code that is there is counted by a counter that is there. -/
theorem LoginEntry.Tally.live {e : LoginEntry} {n : ℕ} {v : LoginCode} {a : LoginAttempts}
    (h : e.Tally n (some a)) (hv : v.attempts = some a) (he : e ∈ v.liveCode s.now) :
    v.liveAttempts s.now = some a := by
  have hlt := (LoginCode.mem_liveCode.1 he).2
  rw [LoginCode.liveAttempts, hv, Option.filter_eq_some_iff]
  refine ⟨rfl, ?_⟩
  cases ht : a.expiresAt with
  | none => rfl
  | some t => simpa using hlt.trans_le (h.2 t ht)

/-- One more guess is counted. -/
theorem LoginEntry.Tally.incr {e : LoginEntry} {n : ℕ} {v : LoginCode}
    (h : e.Tally n v.attempts) (he : e ∈ v.liveCode s.now) :
    e.Tally (n + 1) (some (v.incr s.now)) := by
  cases ha : v.attempts with
  | none =>
    rw [ha] at h
    obtain rfl : n = 0 := h
    have hnone : v.liveAttempts s.now = none := by simp [LoginCode.liveAttempts, ha]
    simp [Tally, LoginCode.incr, hnone]
  | some a =>
    rw [ha] at h
    simp only [LoginCode.incr, h.live ha he]
    exact ⟨by rw [h.1], h.2⟩

/-- The count of a guess is written. -/
theorem LoginCodes.Sound.tally (h : s.Sound) {v : LoginCode} {f : LoginCode → LoginCode}
    (hv : s.logins.get? id = some v) (hwrong : (f v).wrong = v.wrong)
    (hconsumed : (f v).consumed = v.consumed) (hfades : v.Fades (f v))
    (hwritten : (f v).checking = 0 → ∀ e ∈ v.liveCode s.now, (f v).code = v.code →
      v.wrong < LOGIN_CODE_MAX_ATTEMPTS ∧ e.Tally v.wrong (f v).attempts) :
    (s.write id f).Sound := by
  refine h.write fun w hw => ?_
  rw [hv] at hw
  obtain rfl := Option.some.inj hw
  have hcounted := h.counted hv
  refine ⟨hfades, hwrong ▸ hcounted.wrong, hconsumed ▸ hcounted.consumed, fun hone => ?_,
    fun hzero e he => ?_⟩
  · rw [hconsumed] at hone
    exact hfades.elim (fun h => h) fun heq => heq.trans (hcounted.taken hone)
  · have hlive := hfades.live le_rfl he
    have hcode : (f v).code = v.code :=
      (LoginCode.mem_liveCode.1 he).1.trans (LoginCode.mem_liveCode.1 hlive).1.symm
    rw [hwrong]
    exact hwritten hzero e hlive hcode

theorem LoginKept.counting (hstep : (LoginCodeCall.counting id).step s = some r) :
    loginCodesInv.Keeps s (some (.counting id)) r := by
  intro m hwhole hmine
  have hknows : LoginCodeCall.Knows s (.counting id) := hmine _ rfl
  obtain ⟨v, hv, hone, hcounts⟩ := hknows.counts id rfl
  have htally : ∀ e ∈ v.liveCode s.now, e.Tally v.wrong (some (v.incr s.now)) := by
    intro e he
    obtain ⟨htally, hpos⟩ := hcounts e he
    simpa [Nat.sub_add_cancel hpos] using htally.incr he
  have hheld : id ∈ (LoginCodeCall.counting id).held := rfl
  have hgoes : (s.write id (LoginCode.count s.now)).Sound := by
    refine hwhole.tally hv rfl rfl (.inr rfl) fun hzero => ?_
    rw [LoginCode.count, hone] at hzero
    cases hzero
  have hself : (s.write id (LoginCode.count s.now)).logins.get? id = some (v.count s.now) := by
    rw [LoginCodes.write, Table.get?_modify_self, hv, Option.map_some]
  simp only [LoginCodeCall.step, hv] at hstep
  split_ifs at hstep with hfirst hlimit
  · obtain rfl := Option.some.inj hstep
    refine LoginKept.write hgoes (fun h => by cases h) (fun _ h => h) ⟨fun j hj => ?_, trivial,
      fun h => by cases h⟩ (fun _ _ => .inr rfl) (.inl hheld)
    obtain rfl := Option.some.inj hj
    refine ⟨v.count s.now, hself, hone, fun e he => ?_⟩
    have hcount := htally e he
    have hwrong : v.wrong = 1 := hcount.1.symm.trans hfirst
    rw [hwrong] at hcount
    exact ⟨hcount, hwrong⟩
  · obtain rfl := Option.some.inj hstep
    refine LoginKept.write hgoes (fun h => by cases h) (fun _ h => h) ⟨fun j hj => ?_, trivial,
      fun h => by cases h⟩ (fun _ _ => .inr rfl) (.inl hheld)
    obtain rfl := Option.some.inj hj
    exact ⟨v.count s.now, hself, hone, trivial⟩
  · obtain rfl := Option.some.inj hstep
    refine LoginKept.over ?_ (fun _ _ => .inr rfl) (.inl hheld)
    refine hwhole.tally hv rfl rfl (.inr rfl) fun _ e he _ => ?_
    have hcount := htally e he
    rw [← hcount.1]
    exact ⟨not_le.1 hlimit, rfl, hcount.2⟩

theorem LoginKept.timing (hstep : (LoginCodeCall.timing id).step s = some r) :
    loginCodesInv.Keeps s (some (.timing id)) r := by
  intro m hwhole hmine
  have hknows : LoginCodeCall.Knows s (.timing id) := hmine _ rfl
  obtain ⟨v, hv, hone, hcounts⟩ := hknows.counts id rfl
  have hlive : s.liveCode id = v.liveCode s.now := by rw [LoginCodes.liveCode, hv, Option.bind_some]
  simp only [LoginCodeCall.step, hlive] at hstep
  split at hstep
  · next entry hentry =>
    obtain rfl := Option.some.inj hstep
    refine LoginKept.stay hwhole (fun h => by cases h) (fun _ h => h) ⟨fun j hj => ?_, trivial,
      fun h => by cases h⟩
    obtain rfl := Option.some.inj hj
    refine ⟨v, hv, hone, fun e he => ?_⟩
    obtain rfl := Option.some.inj (hentry.symm.trans he)
    obtain ⟨htally, hwrong⟩ := hcounts entry he
    exact ⟨htally, hwrong, by omega⟩
  · next hnone =>
    obtain rfl := Option.some.inj hstep
    refine LoginKept.over ?_ (fun _ _ => .inr rfl) (.inl rfl)
    refine hwhole.tally hv rfl rfl (.inr rfl) fun _ e he _ => ?_
    rw [hnone] at he
    cases he

theorem LoginKept.expiring {ttl : ℤ} (hstep : (LoginCodeCall.expiring id ttl).step s = some r) :
    loginCodesInv.Keeps s (some (.expiring id ttl)) r := by
  intro m hwhole hmine
  have hknows : LoginCodeCall.Knows s (.expiring id ttl) := hmine _ rfl
  obtain ⟨v, hv, hone, hcounts⟩ := hknows.counts id rfl
  obtain rfl := Option.some.inj hstep
  refine LoginKept.over ?_ (fun _ _ => .inr rfl) (.inl rfl)
  refine hwhole.tally hv rfl rfl (.inr rfl) fun _ e he _ => ?_
  obtain ⟨htally, hwrong, hle⟩ := hcounts e he
  rw [hwrong]
  refine ⟨by decide, ?_⟩
  cases ha : v.attempts with
  | none =>
    rw [ha] at htally
    cases htally
  | some a =>
    rw [ha] at htally
    have hlive := htally.live ha he
    show e.Tally 1 (v.expire s.now ttl).attempts
    simp only [LoginCode.expire, hlive, Option.map_some]
    refine ⟨htally.1, fun t ht => ?_⟩
    obtain rfl := Option.some.inj ht
    exact hle

theorem LoginKept.dropping (hstep : (LoginCodeCall.dropping id).step s = some r) :
    loginCodesInv.Keeps s (some (.dropping id)) r := by
  intro m hwhole hmine
  have hknows : LoginCodeCall.Knows s (.dropping id) := hmine _ rfl
  obtain ⟨v, hv, -⟩ := hknows.counts id rfl
  obtain rfl := Option.some.inj hstep
  refine LoginKept.over ?_ (fun _ _ => .inl rfl) (.inl rfl)
  refine hwhole.tally hv rfl rfl (.inl rfl) fun _ e he hcode => ?_
  have hsome := (LoginCode.mem_liveCode.1 he).1
  rw [← hcode] at hsome
  cases hsome

/-- A right guess takes the code. -/
theorem LoginKept.consuming (happart : (LoginCodeCall.consuming id).apart s = true)
    (hstep : (LoginCodeCall.consuming id).step s = some r) :
    loginCodesInv.Keeps s (some (.consuming id)) r := by
  intro m hwhole _
  simp only [LoginCodeCall.step] at hstep
  split at hstep
  · obtain rfl := Option.some.inj hstep
    exact .over hwhole fun d hd _ => hd
  next entry hentry =>
  obtain rfl := Option.some.inj hstep
  obtain ⟨v, hv, hlive⟩ := LoginCodes.mem_liveCode.1 (Option.mem_def.2 hentry)
  have hzero : s.busy = 0 := by simpa [LoginCodeCall.apart, hentry] using happart
  have hone : s.busy + 1 = 1 := by rw [hzero]
  have hcounted := hwhole.counted hv
  have hconsumed : v.consumed = 0 := by
    have hne : v.consumed ≠ 1 := fun h => by
      have hsome := (LoginCode.mem_liveCode.1 hlive).1
      rw [hcounted.taken h] at hsome
      cases hsome
    have hle := hcounted.consumed
    omega
  have hnewest : id + 1 = s.logins.next := hwhole.newest id entry (Option.mem_def.2 hentry)
  have hrests : ∀ w, s.logins.get? id = some w → w.Rests w.consume := fun w _ => w.rests_consume
  have hwrite : (s.write id LoginCode.consume).Sound := by
    refine hwhole.write fun w hw => ⟨(hrests w hw).fades, ?_⟩
    rw [hv] at hw
    obtain rfl := Option.some.inj hw
    refine ⟨hcounted.wrong, ?_, fun _ => rfl, fun _ e he => ?_⟩
    · show v.consumed + 1 ≤ 1
      omega
    · have hsome := (LoginCode.mem_liveCode.1 he).1
      cases hsome
  have honly : (s.write id LoginCode.consume).Only fun _ _ => False := by
    apply LoginCodes.Only.write_none
    · exact hwhole.newest.imp fun j e hj => by omega
    · exact fun _ => rfl
  refine ⟨⟨hwrite.counted, hwrite.newest, fun hz => absurd (hone.symm.trans hz) (by decide),
    fun a ha => ?_⟩, fun b hb => ?_, fun d hd _ => ?_, fun d hd _ b hb => ?_⟩
  · rcases List.mem_cons.1 ha with rfl | ha
    · exact hnewest.symm
    · exact hwhole.accepted a ha
  · obtain rfl := Option.mem_some.1 hb
    refine LoginCodeCall.knows_of_unheld rfl ⟨honly, v.consume, ?_, rfl⟩ fun _ => hone
    show (s.logins.modify id LoginCode.consume).get? id = _
    rw [Table.get?_modify_self, hv, Option.map_some]
  · have hbeside := LoginCodeCall.Knows.write hd (fun w hw => (hrests w hw).fades) fun _ => hrests
    exact hbeside.beside (LoginCodeCall.Knows.inactive hd hzero) le_rfl
      fun _ _ w hw => ⟨w, hw, .refl w⟩
  · obtain rfl := Option.mem_some.1 hb
    refine ⟨fun j hj => (by cases hj), fun hboth => ?_⟩
    rw [LoginCodeCall.Knows.inactive hd hzero] at hboth
    cases hboth.2

theorem LoginKept.forgetting (hstep : (LoginCodeCall.forgetting id).step s = some r) :
    loginCodesInv.Keeps s (some (.forgetting id)) r := by
  intro m hwhole hmine
  have hknows : LoginCodeCall.Knows s (.forgetting id) := hmine _ rfl
  obtain ⟨honly, v, hv, hnone⟩ := hknows.leaves
  obtain rfl := Option.some.inj hstep
  have hrests : ∀ w, s.logins.get? id = some w → w.Rests w.dropAttempts := by
    intro w hw
    rw [hv] at hw
    obtain rfl := Option.some.inj hw
    exact ⟨rfl, rfl, .inl hnone⟩
  have hleaves : (s.write id LoginCode.dropAttempts).Only fun _ _ => False :=
    honly.wanes (.write fun w hw => (hrests w hw).fades)
  exact LoginKept.write (hwhole.rests fun w hw => ⟨hrests w hw, rfl⟩) (fun _ => rfl)
    (fun _ h => by cases h) (LoginCodeCall.knows_of_unheld rfl hleaves hknows.busy)
    (fun w hw => (hrests w hw).fades) (.inr hrests)

theorem loginCodes_step {c : LoginCodeCall} (happart : c.apart s = true)
    (hstep : c.step s = some r) : loginCodesInv.Keeps s (some c) r := by
  cases c with
  | resending id code => exact LoginKept.resending hstep
  | starting code => exact LoginKept.starting happart hstep
  | removing previous code => exact LoginKept.removing hstep
  | storing code => exact LoginKept.storing hstep
  | pointing id => exact LoginKept.pointing hstep
  | checking id code => exact LoginKept.checking hstep
  | burning id => exact LoginKept.burning hstep
  | comparing id code => exact LoginKept.comparing happart hstep
  | counting id => exact LoginKept.counting hstep
  | timing id => exact LoginKept.timing hstep
  | expiring id ttl => exact LoginKept.expiring hstep
  | dropping id => exact LoginKept.dropping hstep
  | consuming id => exact LoginKept.consuming happart hstep
  | forgetting id => exact LoginKept.forgetting hstep
  | unpointing => exact LoginKept.unpointing hstep

end Moves

/-! ### Runs -/

/-- An account without logins. -/
def LoginCodes.initial (now : ℤ) : LoginCodes := ⟨now, .empty, none, 0, []⟩

theorem loginCodes_guarded {now : ℤ} {x : Calls LoginCodes LoginCodeCall}
    {moves : List (Move LoginCodeEvent Unit)}
    (hmeets : loginCodes.machine.Meets (CallSystem.When (fun _ _ => True)
      fun _ c s => c.apart s = true) (.idle (.initial now)) moves)
    (hrun : loginCodes.machine.run (.idle (.initial now)) moves = some x) : x.shared.Guarded := by
  have hnone : ∀ {P : ℕ → LoginEntry → Prop}, (LoginCodes.initial now).Only P :=
    fun _ _ he => by cases he
  have hidle : loginCodesInv.Holds (.idle (.initial now)) :=
    CallInv.holds_idle ⟨fun hv => (by cases hv), hnone, fun _ => hnone, fun _ ha => (by cases ha)⟩
  have hevents : ∀ {e : LoginCodeEvent} {s : LoginCodes} {r}, True →
      loginCodes.event e s = some r → loginCodesInv.Keeps s none r :=
    fun _ hevent => loginCodes_event hevent
  have hholds := hidle.run hevents (fun happart hstep => loginCodes_step happart hstep) hmeets hrun
  exact hholds.whole.guarded

end Barbershop
