import Barbershop.Account.Passwords

/-!
# What a changed password ends

`PasswordBooks.Guarded` is what reset links and sessions owe to a changed password: a link writes a
password once, no link from before a change that is over writes the shared password after it, and no
session from before it is accepted.

The runs that keep it are those in which changes do not overlap and none is begun beside an earlier
link that it leaves open (`PasswordCall.apart`): only then does the end of a change leave nothing
behind. The argument is by the part of the rows that a change leaves alone: whatever does not change
the password only uses links, ends sessions and opens new ones (`PasswordBooks.Later`).
-/

namespace Barbershop

open Lib

namespace PasswordBooks

/-! ## The law -/

structure Guarded (s : PasswordBooks) : Prop where
  /-- A link changes a password at most once. -/
  once : (s.writes.map (·.link)).Nodup
  /-- Nor does it change the shared one after a change that is over and younger than the link. -/
  superseded : ∀ w ∈ s.writes, w.shared = true → ∀ c ∈ w.after, ¬w.link.before c.horizon
  /-- The sessions of before a change are over, but for the one that was kept. -/
  sessions : ∀ c ∈ s.completed, ∀ k, (s.sessions.get? k).isSome = true → k < c.horizon.sessions →
    c.kept = some k
  clientSessions : ∀ c ∈ s.completed, ∀ k version, s.cookies.get? k = some version →
    k < c.horizon.cookies → version ≠ s.sessionVersion

/-! ## What stays while the password does -/

/-- A link is used once, and expires when it was to. -/
def ResetTokenEvolves (t t' : PasswordResetToken) : Prop :=
  t'.expiresAt = t.expiresAt ∧ (t.used = true → t'.used = true)

def ClientTokenEvolves (t t' : ClientAccountToken) : Prop :=
  t'.expiresAt = t.expiresAt ∧ (t.usedAt.isSome = true → t'.usedAt.isSome = true)

theorem ResetTokenEvolves.refl (t : PasswordResetToken) : ResetTokenEvolves t t := ⟨rfl, fun h => h⟩

theorem ClientTokenEvolves.refl (t : ClientAccountToken) : ClientTokenEvolves t t :=
  ⟨rfl, fun h => h⟩

/-- Both ways to look at a table of links that evolves. -/
structure Kept {α : Type} (E : α → α → Prop) (t t' : Table α) : Prop where
  evolves : t.Evolves E t'
  lasts : t.Lasts E t'

structure Later (s s' : PasswordBooks) : Prop where
  now : s.now ≤ s'.now
  resetTokens : Kept ResetTokenEvolves s.resetTokens s'.resetTokens
  clientTokens : Kept ClientTokenEvolves s.clientTokens s'.clientTokens
  sessions : s.sessions.Evolves (fun _ _ => True) s'.sessions
  cookies : s.cookies.Evolves Eq s'.cookies
  version : s.sessionVersion ≤ s'.sessionVersion
  known : (∀ k v, s.cookies.get? k = some v → v ≤ s.sessionVersion) →
    ∀ k v, s'.cookies.get? k = some v → v ≤ s'.sessionVersion
  writes : s'.writes = s.writes
  completed : s'.completed = s.completed

theorem Kept.refl {α : Type} {E : α → α → Prop} (hE : ∀ a, E a a) (t : Table α) : Kept E t t :=
  ⟨.refl hE t, .refl hE t⟩

theorem Kept.insert {α : Type} {E : α → α → Prop} (hE : ∀ a, E a a) (t : Table α) (a : α) :
    Kept E t (t.insert a) := ⟨(Table.Evolves.refl hE t).insert a, .insert hE t a⟩

theorem Kept.modifyAll {α : Type} {E : α → α → Prop} {t : Table α}
    {f : ℕ → α → α} (hf : ∀ k a, E a (f k a)) : Kept E t (t.modifyAll f) where
  evolves := by
    refine ⟨le_rfl, fun k b hb _ => ?_⟩
    rw [Table.get?_modifyAll] at hb
    obtain ⟨a, ha, rfl⟩ := Option.map_eq_some_iff.1 hb
    exact ⟨a, ha, hf k a⟩
  lasts := .modifyAll fun k a _ => hf k a

theorem Kept.modify {α : Type} {E : α → α → Prop} (hE : ∀ a, E a a) {t : Table α} {j : ℕ}
    {f : α → α} (hf : ∀ a, E a (f a)) : Kept E t (t.modify j f) := by
  refine Kept.modifyAll fun k a => ?_
  split
  · exact hf a
  · exact hE a

variable {s s' : PasswordBooks}

theorem Later.refl (s : PasswordBooks) : s.Later s where
  now := le_rfl
  resetTokens := .refl ResetTokenEvolves.refl _
  clientTokens := .refl ClientTokenEvolves.refl _
  sessions := .refl (fun _ => trivial) _
  cookies := .refl (fun _ => rfl) _
  version := le_rfl
  known h := h
  writes := rfl
  completed := rfl

theorem Later.pass (time : ℕ) : s.Later { s with now := s.now + time } :=
  { Later.refl s with now := by simp }

theorem Later.openSession : s.Later { s with sessions := s.sessions.insert () } :=
  { Later.refl s with sessions := (Table.Evolves.refl (fun _ => trivial) _).insert () }

theorem Later.openClientSession {version : ℕ} (h : version ≤ s.sessionVersion) :
    s.Later { s with cookies := s.cookies.insert version } :=
  { Later.refl s with
    cookies := (Table.Evolves.refl (fun _ => rfl) _).insert version
    known := fun hknown k v hk => by
      rcases Table.get?_insert_cases hk with ⟨-, rfl⟩ | hk
      · exact h
      · exact hknown k v hk }

theorem Later.forgotPass (expiresAt : ℤ) :
    s.Later { s with resetTokens := s.resetTokens.insert ⟨false, expiresAt⟩ } :=
  { Later.refl s with resetTokens := .insert ResetTokenEvolves.refl _ _ }

theorem Later.createToken (expiresAt : ℤ) :
    s.Later { s with clientTokens := s.clientTokens.insert ⟨none, expiresAt⟩ } :=
  { Later.refl s with clientTokens := .insert ClientTokenEvolves.refl _ _ }

theorem Later.expire (link : ℕ) : s.Later { s with
    resetTokens := s.resetTokens.modify link fun t => { t with used := true } } :=
  { Later.refl s with
    resetTokens := Kept.modify (f := fun t => { t with used := true }) ResetTokenEvolves.refl
      fun _ => ⟨rfl, fun _ => rfl⟩ }

theorem Later.consume (link : ℕ) : s.Later { s with
    clientTokens := s.clientTokens.modify link fun t => { t with usedAt := some s.now } } :=
  { Later.refl s with
    clientTokens := Kept.modify (f := fun t => { t with usedAt := some s.now })
      ClientTokenEvolves.refl fun _ => ⟨rfl, fun _ => rfl⟩ }

theorem Later.useResetTokens : s.Later s.useResetTokens :=
  { Later.refl s with
    resetTokens := Kept.modifyAll (E := ResetTokenEvolves)
      (f := fun _ (t : PasswordResetToken) => { t with used := true })
      fun _ _ => ⟨rfl, fun _ => rfl⟩ }

theorem Later.useClientTokens : s.Later s.useClientTokens :=
  { Later.refl s with
    clientTokens := Kept.modifyAll (E := ClientTokenEvolves)
      (f := fun _ (t : ClientAccountToken) => { t with usedAt := t.usedAt.or (some s.now) })
      fun _ _ => ⟨rfl, fun _ => by simp⟩ }

theorem Later.dropSessions (kept : Option ℕ) : s.Later (s.dropSessions kept) :=
  { Later.refl s with
    sessions := ⟨le_rfl, fun _ a h _ => ⟨a, (Table.get?_eraseAll.1 h).1, trivial⟩⟩ }

theorem Later.bump : s.Later s.bumpSessionVersion :=
  { Later.refl s with
    version := Nat.le_succ _
    known := fun h k v hk => (h k v hk).trans (Nat.le_succ _) }

theorem Later.setPassword (password : String) : s.Later (s.setPassword password) :=
  { Later.refl s with }

theorem Later.enter : s.Later s.enter := { Later.refl s with }

theorem Later.leave : s.Later s.leave := { Later.refl s with }

/-! ## What a change leaves behind it -/

/-- The horizon was passed. -/
structure Reached (m : Horizon) (s : PasswordBooks) : Prop where
  resetTokens : m.resetTokens ≤ s.resetTokens.next
  clientTokens : m.clientTokens ≤ s.clientTokens.next
  sessions : m.sessions ≤ s.sessions.next
  cookies : m.cookies ≤ s.cookies.next

def ClosedStaff (m : Horizon) (s : PasswordBooks) : Prop :=
  ∀ k t, s.resetTokens.get? k = some t → k < m.resetTokens → s.resetTokenOpen t = false

def ClosedClient (m : Horizon) (s : PasswordBooks) : Prop :=
  ∀ k t, s.clientTokens.get? k = some t → k < m.clientTokens → s.clientTokenOpen t = false

def Gone (m : Horizon) (kept : Option ℕ) (s : PasswordBooks) : Prop :=
  ∀ k, (s.sessions.get? k).isSome = true → k < m.sessions → kept = some k

def Stale (m : Horizon) (s : PasswordBooks) : Prop :=
  ∀ k v, s.cookies.get? k = some v → k < m.cookies → v < s.sessionVersion

/-- What a change has left when it is over. -/
structure Past (c : Completion) (s : PasswordBooks) : Prop where
  reached : Reached c.horizon s
  staff : ClosedStaff c.horizon s
  client : ClosedClient c.horizon s
  gone : Gone c.horizon c.kept s
  stale : Stale c.horizon s

/-- Links that wrote a password are used up, those of the staff's table but for one that is being
used. -/
def Spent (except : Option ℕ) (s : PasswordBooks) : Prop :=
  ∀ k, .staff k ∈ s.writes.map (·.link) →
    except = some k ∨ ∃ t, s.resetTokens.get? k = some t ∧ t.used = true

structure Laws (s : PasswordBooks) : Prop where
  once : (s.writes.map (·.link)).Nodup
  superseded : ∀ w ∈ s.writes, w.shared = true → ∀ c ∈ w.after, ¬w.link.before c.horizon
  past : ∀ c ∈ s.completed, Past c s
  known : ∀ k v, s.cookies.get? k = some v → v ≤ s.sessionVersion
  client : ∀ k, .client k ∈ s.writes.map (·.link) →
    ∃ t, s.clientTokens.get? k = some t ∧ t.usedAt.isSome = true

/-- A link that may still write a password: it has not, and no change that is over is younger. -/
structure Fresh (link : ResetLink) (s : PasswordBooks) : Prop where
  unwritten : link ∉ s.writes.map (·.link)
  after : ∀ c ∈ s.completed, ¬link.before c.horizon

theorem Laws.guarded (h : s.Laws) : s.Guarded where
  once := h.once
  superseded := h.superseded
  sessions c hc := (h.past c hc).gone
  clientSessions c hc k v hk hlt := ((h.past c hc).stale k v hk hlt).ne

theorem reached_horizon (s : PasswordBooks) : Reached s.horizon s := ⟨le_rfl, le_rfl, le_rfl, le_rfl⟩

section Stability

variable {m : Horizon} {kept : Option ℕ} {c : Completion} {link : ResetLink}

theorem Reached.later (h : Reached m s) (hl : s.Later s') : Reached m s' where
  resetTokens := h.resetTokens.trans hl.resetTokens.evolves.next_le
  clientTokens := h.clientTokens.trans hl.clientTokens.evolves.next_le
  sessions := h.sessions.trans hl.sessions.next_le
  cookies := h.cookies.trans hl.cookies.next_le

theorem ClosedStaff.later (h : ClosedStaff m s) (hm : Reached m s) (hl : s.Later s') :
    ClosedStaff m s' := by
  intro k t' ht' hk
  obtain ⟨t, ht, hexpires, hused⟩ :=
    hl.resetTokens.evolves.row k t' ht' (hk.trans_le hm.resetTokens)
  have hclosed := h k t ht hk
  have hnow := hl.now
  simp only [resetTokenOpen, Bool.and_eq_false_iff, Bool.not_eq_false', decide_eq_false_iff_not] at *
  rcases hclosed with hold | hlate
  · exact .inl (hused hold)
  · exact .inr (by omega)

theorem ClosedClient.later (h : ClosedClient m s) (hm : Reached m s) (hl : s.Later s') :
    ClosedClient m s' := by
  intro k t' ht' hk
  obtain ⟨t, ht, hexpires, hused⟩ :=
    hl.clientTokens.evolves.row k t' ht' (hk.trans_le hm.clientTokens)
  have hclosed := h k t ht hk
  have hnow := hl.now
  simp only [clientTokenOpen, Bool.and_eq_false_iff, decide_eq_false_iff_not] at *
  rcases hclosed with hold | hlate
  · left
    cases hu : t.usedAt with
    | none => simp [hu] at hold
    | some at' =>
      have hsome := hused (by rw [hu, Option.isSome_some])
      cases hu' : t'.usedAt with
      | none => simp [hu'] at hsome
      | some _ => rfl
  · exact .inr (by omega)

theorem Gone.later (h : Gone m kept s) (hm : Reached m s) (hl : s.Later s') : Gone m kept s' := by
  intro k hk hlt
  obtain ⟨u, hu⟩ := Option.isSome_iff_exists.1 hk
  obtain ⟨v, hv, -⟩ := hl.sessions.row k u hu (hlt.trans_le hm.sessions)
  exact h k (by rw [hv, Option.isSome_some]) hlt

theorem Stale.later (h : Stale m s) (hm : Reached m s) (hl : s.Later s') : Stale m s' := by
  intro k v hk hlt
  obtain ⟨v', hv', rfl⟩ := hl.cookies.row k v hk (hlt.trans_le hm.cookies)
  exact (h k v' hv' hlt).trans_le hl.version

theorem Past.later (h : Past c s) (hl : s.Later s') : Past c s' where
  reached := h.reached.later hl
  staff := h.staff.later h.reached hl
  client := h.client.later h.reached hl
  gone := h.gone.later h.reached hl
  stale := h.stale.later h.reached hl

theorem Spent.later {except : Option ℕ} (h : Spent except s) (hl : s.Later s') :
    Spent except s' := by
  intro k hk
  rw [hl.writes] at hk
  rcases h k hk with hexcept | ⟨t, ht, hused⟩
  · exact .inl hexcept
  · obtain ⟨t', ht', -, hkept⟩ := hl.resetTokens.lasts ht
    exact .inr ⟨t', ht', hkept hused⟩

theorem Fresh.later (h : Fresh link s) (hl : s.Later s') : Fresh link s' :=
  ⟨by rw [hl.writes]; exact h.unwritten, by rw [hl.completed]; exact h.after⟩

theorem Laws.later (h : s.Laws) (hl : s.Later s') : s'.Laws where
  once := by
    rw [hl.writes]
    exact h.once
  superseded := by
    rw [hl.writes]
    exact h.superseded
  past := by
    rw [hl.completed]
    exact fun c hc => (h.past c hc).later hl
  known := hl.known h.known
  client := by
    rw [hl.writes]
    intro k hk
    obtain ⟨t, ht, hused⟩ := h.client k hk
    obtain ⟨t', ht', -, hkept⟩ := hl.clientTokens.lasts ht
    exact ⟨t', ht', hkept hused⟩

end Stability

/-! ## The records -/

/-- The records are no columns. -/
theorem Past.record {c : Completion} (h : Past c s) (changing : ℕ) (writes : List LinkWrite)
    (completed : List Completion) :
    Past c { s with changing := changing, writes := writes, completed := completed } :=
  ⟨⟨h.reached.1, h.reached.2, h.reached.3, h.reached.4⟩, h.staff, h.client, h.gone, h.stale⟩

/-- A link that may write does. -/
theorem Laws.wrote (h : s.Laws) {link : ResetLink} {shared : Bool} (hfresh : Fresh link s)
    (hused : ∀ k, link = .client k → ∃ t, s.clientTokens.get? k = some t ∧ t.usedAt.isSome = true) :
    (s.wrote link shared).Laws where
  once := List.nodup_cons.2 ⟨hfresh.unwritten, h.once⟩
  superseded := by
    intro w hw hshared
    rcases List.mem_cons.1 hw with rfl | hw
    · exact hfresh.after
    · exact h.superseded w hw hshared
  past c hc := (h.past c hc).record _ _ _
  known := h.known
  client := by
    intro k hk
    rcases List.mem_cons.1 hk with hk | hk
    · exact hused k hk.symm
    · exact h.client k hk

/-- A change that left nothing behind is over. -/
theorem Laws.complete (h : s.Laws) {m : Horizon} {kept : Option ℕ} (hpast : Past ⟨m, kept⟩ s) :
    (s.complete m kept).Laws where
  once := h.once
  superseded := h.superseded
  past := by
    intro c hc
    rcases List.mem_cons.1 hc with rfl | hc
    · exact hpast.record _ _ _
    · exact (h.past c hc).record _ _ _
  known := h.known
  client := h.client

/-! ## What the statements leave behind -/

section Statements

variable {link : ℕ} (m : Horizon)

theorem closedStaff_of_none {m : Horizon} (h : s.noResetToken m = true) : ClosedStaff m s := by
  rw [noResetToken, Bool.not_eq_true', Table.any_eq_false] at h
  intro k t hk hlt
  simpa [hlt] using h k t hk

theorem closedClient_of_none {m : Horizon} (h : s.noClientToken m = true) : ClosedClient m s := by
  rw [noClientToken, Bool.not_eq_true', Table.any_eq_false] at h
  intro k t hk hlt
  simpa [hlt] using h k t hk

theorem closedStaff_useResetTokens : ClosedStaff m s.useResetTokens := by
  intro k t hk _
  rw [useResetTokens, Table.get?_modifyAll] at hk
  obtain ⟨t₀, -, rfl⟩ := Option.map_eq_some_iff.1 hk
  rfl

theorem closedClient_useClientTokens : ClosedClient m s.useClientTokens := by
  intro k t hk _
  rw [useClientTokens, Table.get?_modifyAll] at hk
  obtain ⟨t₀, -, rfl⟩ := Option.map_eq_some_iff.1 hk
  cases t₀.usedAt with
  | none => simp [clientTokenOpen]
  | some time => simp [clientTokenOpen]

theorem gone_dropSessions (kept : Option ℕ) : Gone m kept (s.dropSessions kept) := by
  intro k hk _
  obtain ⟨u, hu⟩ := Option.isSome_iff_exists.1 hk
  simpa using (Table.get?_eraseAll.1 hu).2

theorem stale_bump (h : s.Laws) : Stale m s.bumpSessionVersion :=
  fun k v hk _ => Nat.lt_succ_of_le (h.known k v hk)

/-- The link that was in use is now used up, with the others. -/
theorem spent_useResetTokens (h : Spent (some link) s)
    (hlink : ∃ t, s.resetTokens.get? link = some t) : Spent none s.useResetTokens := by
  intro k hk
  right
  have hrow : ∃ t, s.resetTokens.get? k = some t := by
    rcases h k hk with hexcept | ⟨t, ht, -⟩
    · obtain rfl := Option.some.inj hexcept
      exact hlink
    · exact ⟨t, ht⟩
  obtain ⟨t, ht⟩ := hrow
  refine ⟨{ t with used := true }, ?_, rfl⟩
  rw [useResetTokens, Table.get?_modifyAll, ht, Option.map_some]

/-- An open link has written nothing, and no change that is over is younger. -/
theorem Laws.fresh_staff (h : s.Laws) (hspent : Spent none s) {t : PasswordResetToken}
    (ht : s.resetTokens.get? link = some t) (hopen : s.resetTokenOpen t = true) :
    Fresh (.staff link) s where
  unwritten hwritten := by
    rcases hspent link hwritten with hexcept | ⟨t', ht', hused⟩
    · cases hexcept
    · rw [ht] at ht'
      obtain rfl := Option.some.inj ht'
      simp [resetTokenOpen, hused] at hopen
  after c hc hlt := by
    have hclosed := (h.past c hc).staff link t ht hlt
    rw [hopen] at hclosed
    cases hclosed

theorem Laws.fresh_client (h : s.Laws) {t : ClientAccountToken}
    (ht : s.clientTokens.get? link = some t) (hopen : s.clientTokenOpen t = true) :
    Fresh (.client link) s where
  unwritten hwritten := by
    obtain ⟨t', ht', hused⟩ := h.client link hwritten
    rw [ht] at ht'
    obtain rfl := Option.some.inj ht'
    rw [clientTokenOpen, Bool.and_eq_true, Option.isNone_iff_eq_none] at hopen
    rw [hopen.1] at hused
    cases hused
  after c hc hlt := by
    have hclosed := (h.past c hc).client link t ht hlt
    rw [hopen] at hclosed
    cases hclosed

end Statements

end PasswordBooks

open PasswordBooks

/-! ## The calls -/

namespace PasswordCall

/-- The call is past its check. -/
def active : PasswordCall → Bool
  | replacing _ | creating _ | finding _ _ _ | expiring _ | verifying _ _ _ _ | reading _ _ _
  | consuming _ _ _ => false
  | _ => true

/-- What a call knows of what it left behind so far. -/
def Knows (s : PasswordBooks) : PasswordCall → Prop
  | replacing _ | creating _ | expiring _ => True
  | finding m _ _ | verifying m _ _ _ | reading m _ _ | consuming m _ _ => Reached m s
  | resetting m link _ =>
    Reached m s ∧ Spent none s ∧ ClosedClient m s ∧ Fresh (.staff link) s ∧
      ∃ t, s.resetTokens.get? link = some t
  | spending m link =>
    Reached m s ∧ Spent (some link) s ∧ ClosedClient m s ∧ ∃ t, s.resetTokens.get? link = some t
  | comparing m _ _ _ | changing m _ _ | revoking m _ =>
    Reached m s ∧ Spent none s ∧ ClosedClient m s ∧ ClosedStaff m s
  | bumping m kept =>
    Reached m s ∧ Spent none s ∧ ClosedClient m s ∧ ClosedStaff m s ∧ Gone m kept s
  | linking m link _ | clientResetting m link _ | clientBumping m (some link) =>
    Reached m s ∧ Spent none s ∧ Fresh (.client link) s ∧
      ∃ t, s.clientTokens.get? link = some t ∧ t.usedAt.isSome = true
  | clientRevoking m => Reached m s ∧ Spent none s
  | clientUsing m => Reached m s ∧ Spent none s ∧ Gone m none s
  | clientBumping m none => Reached m s ∧ Spent none s ∧ Gone m none s ∧ ClosedStaff m s
  | clientMarking m shared =>
    Reached m s ∧ Spent none s ∧
      (shared = true → Gone m none s ∧ ClosedStaff m s ∧ Stale m s)

/-- What a call knows stays true while the password does. -/
theorem Knows.later {s s' : PasswordBooks} {c : PasswordCall} (h : c.Knows s)
    (hl : s.Later s') : c.Knows s' := by
  have hstaff : ∀ {link}, (∃ t, s.resetTokens.get? link = some t) →
      ∃ t, s'.resetTokens.get? link = some t := by
    rintro link ⟨t, ht⟩
    obtain ⟨t', ht', -⟩ := hl.resetTokens.lasts ht
    exact ⟨t', ht'⟩
  have hclient : ∀ {link}, (∃ t, s.clientTokens.get? link = some t ∧ t.usedAt.isSome = true) →
      ∃ t, s'.clientTokens.get? link = some t ∧ t.usedAt.isSome = true := by
    rintro link ⟨t, ht, hused⟩
    obtain ⟨t', ht', -, hkept⟩ := hl.clientTokens.lasts ht
    exact ⟨t', ht', hkept hused⟩
  cases c with
  | replacing expiresAt | creating expiresAt | expiring link => trivial
  | finding m link new | verifying m kept old new | reading m link new | consuming m link new =>
    exact PasswordBooks.Reached.later h hl
  | resetting m link new =>
    obtain ⟨hm, hspent, hclosed, hfresh, ht⟩ := h
    exact ⟨hm.later hl, hspent.later hl, hclosed.later hm hl, hfresh.later hl, hstaff ht⟩
  | spending m link =>
    obtain ⟨hm, hspent, hclosed, ht⟩ := h
    exact ⟨hm.later hl, hspent.later hl, hclosed.later hm hl, hstaff ht⟩
  | comparing m kept old new | changing m kept new | revoking m kept =>
    obtain ⟨hm, hspent, hclosed, hclosed'⟩ := h
    exact ⟨hm.later hl, hspent.later hl, hclosed.later hm hl, hclosed'.later hm hl⟩
  | bumping m kept =>
    obtain ⟨hm, hspent, hclosed, hclosed', hgone⟩ := h
    exact ⟨hm.later hl, hspent.later hl, hclosed.later hm hl, hclosed'.later hm hl,
      hgone.later hm hl⟩
  | linking m link new | clientResetting m link new =>
    obtain ⟨hm, hspent, hfresh, ht⟩ := h
    exact ⟨hm.later hl, hspent.later hl, hfresh.later hl, hclient ht⟩
  | clientRevoking m => exact ⟨h.1.later hl, h.2.later hl⟩
  | clientUsing m =>
    obtain ⟨hm, hspent, hgone⟩ := h
    exact ⟨hm.later hl, hspent.later hl, hgone.later hm hl⟩
  | clientBumping m own =>
    cases own with
    | some link =>
      obtain ⟨hm, hspent, hfresh, ht⟩ := h
      exact ⟨hm.later hl, hspent.later hl, hfresh.later hl, hclient ht⟩
    | none =>
      obtain ⟨hm, hspent, hgone, hclosed⟩ := h
      exact ⟨hm.later hl, hspent.later hl, hgone.later hm hl, hclosed.later hm hl⟩
  | clientMarking m shared =>
    obtain ⟨hm, hspent, hrest⟩ := h
    refine ⟨hm.later hl, hspent.later hl, fun hshared => ?_⟩
    obtain ⟨hgone, hclosed, hstale⟩ := hrest hshared
    exact ⟨hgone.later hm hl, hclosed.later hm hl, hstale.later hm hl⟩

/-- A call that is not past its check knows where it began, and no more. -/
theorem Knows.reached {s s' : PasswordBooks} {c : PasswordCall} (h : c.Knows s)
    (hactive : c.active = false) (hgrows : ∀ {m}, Reached m s → Reached m s') : c.Knows s' := by
  cases c <;> first | trivial | exact hgrows h

end PasswordCall

/-- One call is past its check at most; the laws hold, and links that wrote are used up unless one
is. -/
def passwordsInv : CallInv PasswordBooks PasswordCall ℕ where
  weight c := if c.active then 1 else 0
  whole s m := s.changing = m ∧ m ≤ 1 ∧ s.Laws ∧ (m = 0 → Spent none s)
  each s c := c.Knows s ∧ (c.active = true → s.changing = 1)
  pair a b := ¬(a.active = true ∧ b.active = true)
  symm h h' := h h'.symm

section Moves

variable {s s' : PasswordBooks} {m : ℕ} {c : PasswordCall} {c' : Option PasswordCall}

/-- A call that is past its check keeps the others out. -/
theorem PasswordsKept.inactive_of_pair {a d : PasswordCall} (ha : a.active = true)
    (hpair : passwordsInv.pair a d) : d.active = false := by
  cases hd : d.active with
  | false => rfl
  | true => exact absurd ⟨ha, hd⟩ hpair

/-- A move that leaves the password alone, and begins or goes on with a call before its check. -/
theorem PasswordsKept.outside {a : Option PasswordCall}
    (hwhole : passwordsInv.whole s (passwordsInv.weigh a + m))
    (hl : s.Later s') (hsame : s'.changing = s.changing)
    (ha : ∀ b ∈ a, b.active = false)
    (hc : ∀ b ∈ c', b.active = false ∧ b.Knows s') :
    passwordsInv.Kept s a m s' c' := by
  have hweigh : ∀ {x : Option PasswordCall}, (∀ b ∈ x, b.active = false) →
      passwordsInv.weigh x = 0 := by
    intro x hx
    cases x with
    | none => rfl
    | some b => simp [passwordsInv, hx b rfl]
  obtain ⟨hchanging, hone, hlaws, hspent⟩ := hwhole
  rw [hweigh ha, zero_add] at hchanging hone hspent
  refine ⟨?_, ?_, ?_, ?_⟩
  · rw [hweigh fun b hb => (hc b hb).1, zero_add]
    exact ⟨hsame.trans hchanging, hone, hlaws.later hl, fun h => (hspent h).later hl⟩
  · intro b hb
    refine ⟨(hc b hb).2, fun hactive => ?_⟩
    rw [(hc b hb).1] at hactive
    cases hactive
  · intro d hd _
    exact ⟨hd.1.later hl, fun hactive => hsame.trans (hd.2 hactive)⟩
  · intro d _ _ b hb hboth
    rw [(hc b hb).1] at hboth
    cases hboth.1

/-- A call passes its check, with no other past its own. -/
theorem PasswordsKept.enter (hwhole : passwordsInv.whole s (passwordsInv.weigh (some c) + m))
    (hl : s.Later s') (hzero : s.changing = 0) (hsame : s'.changing = 1)
    (hc : c.active = false) {b : PasswordCall} (hactive : b.active = true) (hb : b.Knows s') :
    passwordsInv.Kept s (some c) m s' (some b) := by
  obtain ⟨hchanging, -, hlaws, -⟩ := hwhole
  have hm : m = 0 := by
    simp only [CallInv.weigh_some, passwordsInv, hc] at hchanging
    simpa [hzero] using hchanging.symm
  subst hm
  have hothers : ∀ d, passwordsInv.each s d → d.active = false := by
    intro d hd
    cases hd' : d.active with
    | false => rfl
    | true =>
      have hone := hd.2 hd'
      omega
  have hb1 : passwordsInv.weight b = 1 := by simp [passwordsInv, hactive]
  refine ⟨?_, ?_, ?_, ?_⟩
  · rw [CallInv.weigh_some, hb1]
    exact ⟨hsame, le_rfl, hlaws.later hl, fun h => by cases h⟩
  · intro b' hb'
    obtain rfl := Option.mem_some.1 hb'
    exact ⟨hb, fun _ => hsame⟩
  · intro d hd _
    exact ⟨hd.1.later hl, fun hd' => hsame⟩
  · intro d hd _ b' _ hboth
    rw [hothers d hd] at hboth
    cases hboth.2

/-- The call past its check goes on; what it wrote keeps the laws. -/
theorem PasswordsKept.inside (hwhole : passwordsInv.whole s (passwordsInv.weigh (some c) + m))
    (hc : c.active = true) (hlaws : s'.Laws) (hsame : s'.changing = s.changing)
    (hgrows : ∀ {h}, Reached h s → Reached h s') {b : PasswordCall} (hactive : b.active = true)
    (hb : b.Knows s') : passwordsInv.Kept s (some c) m s' (some b) := by
  obtain ⟨hchanging, hone, -, -⟩ := hwhole
  have hweight : passwordsInv.weight c = 1 := by simp [passwordsInv, hc]
  rw [CallInv.weigh_some, hweight] at hchanging hone
  have hb1 : passwordsInv.weight b = 1 := by simp [passwordsInv, hactive]
  refine ⟨?_, ?_, ?_, ?_⟩
  · rw [CallInv.weigh_some, hb1]
    exact ⟨hsame.trans hchanging, hone, hlaws, fun h => by omega⟩
  · intro b' hb'
    obtain rfl := Option.mem_some.1 hb'
    exact ⟨hb, fun _ => by omega⟩
  · intro d hd hpair
    have hd' := PasswordsKept.inactive_of_pair hc (hpair c rfl)
    refine ⟨hd.1.reached hd' hgrows, fun h => ?_⟩
    rw [hd'] at h
    cases h
  · intro d hd hpair b' _ hboth
    rw [PasswordsKept.inactive_of_pair hc (hpair c rfl)] at hboth
    cases hboth.2

/-- The call past its check ends. -/
theorem PasswordsKept.exit (hwhole : passwordsInv.whole s (passwordsInv.weigh (some c) + m))
    (hc : c.active = true) (hlaws : s'.Laws) (hsame : s'.changing = s.changing - 1)
    (hgrows : ∀ {h}, Reached h s → Reached h s') (hspent : Spent none s') :
    passwordsInv.Kept s (some c) m s' none := by
  obtain ⟨hchanging, hone, -, -⟩ := hwhole
  have hweight : passwordsInv.weight c = 1 := by simp [passwordsInv, hc]
  rw [CallInv.weigh_some, hweight] at hchanging hone
  refine ⟨?_, ?_, ?_, ?_⟩
  · rw [CallInv.weigh_none, zero_add]
    exact ⟨by omega, by omega, hlaws, fun _ => hspent⟩
  · intro b hb
    cases hb
  · intro d hd hpair
    have hd' := PasswordsKept.inactive_of_pair hc (hpair c rfl)
    refine ⟨hd.1.reached hd' hgrows, fun h => ?_⟩
    rw [hd'] at h
    cases h
  · intro d _ _ b hb
    cases hb

/-- The call past its check goes on without a password written. -/
theorem PasswordsKept.on (hwhole : passwordsInv.whole s (passwordsInv.weigh (some c) + m))
    (hc : c.active = true) (hl : s.Later s') (hsame : s'.changing = s.changing) {b : PasswordCall}
    (hactive : b.active = true) (hb : b.Knows s') : passwordsInv.Kept s (some c) m s' (some b) :=
  PasswordsKept.inside hwhole hc (hwhole.2.2.1.later hl) hsame (fun h => h.later hl) hactive hb

theorem PasswordsKept.spent_of_quiet {k : ℕ} (hwhole : passwordsInv.whole s k) (hzero : s.changing = 0) :
    Spent none s := by
  apply hwhole.2.2.2
  rw [← hwhole.1, hzero]

end Moves

theorem passwords_event {e : PasswordEvent} {s : PasswordBooks}
    {r : PasswordBooks × Option PasswordCall} (hevent : e.step s = some r) :
    passwordsInv.Keeps s none r := by
  intro m hwhole _
  have hnone : ∀ b ∈ (none : Option PasswordCall), b.active = false := fun _ hb => by cases hb
  have haside : ∀ {s' : PasswordBooks}, s.Later s' → s'.changing = s.changing →
      passwordsInv.Kept s none m s' none :=
    fun hl hsame => PasswordsKept.outside hwhole hl hsame hnone fun _ hb => by cases hb
  have hbegin : ∀ {b : PasswordCall}, b.active = false → b.Knows s →
      passwordsInv.Kept s none m s (some b) := by
    intro b hactive hb
    refine PasswordsKept.outside hwhole (.refl s) rfl hnone fun b' hb' => ?_
    obtain rfl := Option.mem_some.1 hb'
    exact ⟨hactive, hb⟩
  cases e with
  | pass time =>
    obtain rfl := Option.some.inj hevent
    exact haside (.pass time) rfl
  | openSession =>
    obtain rfl := Option.some.inj hevent
    exact haside .openSession rfl
  | openClientSession version =>
    simp only [PasswordEvent.step] at hevent
    split at hevent
    · next hversion =>
      obtain rfl := Option.some.inj hevent
      exact haside (.openClientSession hversion) rfl
    · cases hevent
  | forgotPass expiresAt =>
    obtain rfl := Option.some.inj hevent
    exact haside (.forgotPass expiresAt) rfl
  | requestPasswordReset expiresAt =>
    obtain rfl := Option.some.inj hevent
    exact hbegin rfl trivial
  | resetPasswordByToken link new =>
    obtain rfl := Option.some.inj hevent
    exact hbegin rfl (reached_horizon s)
  | changePassword kept old new =>
    obtain rfl := Option.some.inj hevent
    exact hbegin rfl (reached_horizon s)
  | resetPassword link new =>
    obtain rfl := Option.some.inj hevent
    exact hbegin rfl (reached_horizon s)

/-! ### Steps -/

section Steps

variable {ok : Bool} {s : PasswordBooks} {m : ℕ} {since : Horizon} {kept : Option ℕ} {link : ℕ}
  {old new : String} {r : PasswordBooks × Option PasswordCall}

/-- A step before the check that goes on, if at all, before the check. -/
theorem PasswordsKept.before {s' : PasswordBooks} {c : PasswordCall} {c' : Option PasswordCall}
    (hwhole : passwordsInv.whole s (passwordsInv.weigh (some c) + m)) (hc : c.active = false)
    (hl : s.Later s') (hsame : s'.changing = s.changing)
    (hnext : ∀ b ∈ c', b.active = false ∧ b.Knows s') :
    passwordsInv.Kept s (some c) m s' c' := by
  refine PasswordsKept.outside hwhole hl hsame (fun b hb => ?_) hnext
  obtain rfl := Option.mem_some.1 hb
  exact hc

theorem PasswordsKept.finding (happart : (PasswordCall.finding since link new).apart ok s = true)
    (hstep : (PasswordCall.finding since link new).step ok s = some r) :
    passwordsInv.Keeps s (some (.finding since link new)) r := by
  intro m hwhole hmine
  have hknows := (hmine _ rfl).1
  have hends : passwordsInv.Kept s (some (.finding since link new)) m s none :=
    PasswordsKept.before hwhole rfl (.refl s) rfl fun _ hb => by cases hb
  simp only [PasswordCall.step] at hstep
  split at hstep
  · obtain rfl := Option.some.inj hstep
    exact hends
  next t ht =>
  split_ifs at hstep with hused hexpired hchecks
  · obtain rfl := Option.some.inj hstep
    exact hends
  · obtain rfl := Option.some.inj hstep
    refine PasswordsKept.before hwhole rfl (.refl s) rfl fun b hb => ?_
    obtain rfl := Option.mem_some.1 hb
    exact ⟨rfl, trivial⟩
  · obtain rfl := Option.some.inj hstep
    have hopen : s.resetTokenOpen t = true := by
      simpa [resetTokenOpen, hused] using not_lt.1 hexpired
    rw [Bool.and_eq_true] at hchecks
    have halone : s.changing = 0 ∧ s.noClientToken since = true := by
      simpa [PasswordCall.apart, ht, hopen, hchecks.1, hchecks.2] using happart
    have hspent := PasswordsKept.spent_of_quiet hwhole halone.1
    refine PasswordsKept.enter hwhole .enter halone.1 (by simp [PasswordBooks.enter, halone.1]) rfl rfl ?_
    have hfresh := hwhole.2.2.1.fresh_staff hspent ht hopen
    exact PasswordCall.Knows.later (c := .resetting since link new)
      ⟨hknows, hspent, closedClient_of_none halone.2, hfresh, t, ht⟩ .enter
  · obtain rfl := Option.some.inj hstep
    exact hends

theorem PasswordsKept.resetting (hstep : (PasswordCall.resetting since link new).step ok s = some r) :
    passwordsInv.Keeps s (some (.resetting since link new)) r := by
  intro m hwhole hmine
  obtain ⟨hm, hspent, hclosed, hfresh, ht⟩ := (hmine _ rfl).1
  obtain rfl := Option.some.inj hstep
  have hl : s.Later (s.setPassword new) := .setPassword new
  have hsame : ((s.setPassword new).wrote (.staff link) true).changing = s.changing := rfl
  refine PasswordsKept.inside (b := .spending since link) hwhole rfl ?_ hsame
    (fun h => ⟨h.1, h.2, h.3, h.4⟩) rfl ?_
  · apply (hwhole.2.2.1.later hl).wrote (hfresh.later hl)
    intro k hk
    cases hk
  · refine ⟨⟨hm.1, hm.2, hm.3, hm.4⟩, fun k hk => ?_, hclosed, ht⟩
    rcases List.mem_cons.1 hk with hk | hk
    · exact .inl (by rw [ResetLink.staff.inj hk])
    · exact .inr ((hspent k hk).resolve_left (by simp))

theorem PasswordsKept.spending (hstep : (PasswordCall.spending since link).step ok s = some r) :
    passwordsInv.Keeps s (some (.spending since link)) r := by
  intro m hwhole hmine
  obtain ⟨hm, hspent, hclosed, ht⟩ := (hmine _ rfl).1
  obtain rfl := Option.some.inj hstep
  have hl : s.Later s.useResetTokens := .useResetTokens
  refine PasswordsKept.on hwhole rfl hl rfl rfl ?_
  exact ⟨hm.later hl, spent_useResetTokens hspent ht, hclosed.later hm hl,
    closedStaff_useResetTokens since⟩

theorem PasswordsKept.verifying (happart : (PasswordCall.verifying since kept old new).apart ok s = true)
    (hstep : (PasswordCall.verifying since kept old new).step ok s = some r) :
    passwordsInv.Keeps s (some (.verifying since kept old new)) r := by
  intro m hwhole hmine
  have hknows := (hmine _ rfl).1
  simp only [PasswordCall.step] at hstep
  split_ifs at hstep with hok
  · obtain rfl := Option.some.inj hstep
    have halone : (s.changing = 0 ∧ s.noResetToken since = true) ∧ s.noClientToken since = true := by
      simpa [PasswordCall.apart, hok] using happart
    obtain ⟨⟨hzero, hstaff⟩, hclient⟩ := halone
    refine PasswordsKept.enter hwhole .enter hzero (by simp [PasswordBooks.enter, hzero]) rfl rfl ?_
    exact PasswordCall.Knows.later (c := .comparing since kept old new) ⟨hknows,
      PasswordsKept.spent_of_quiet hwhole hzero, closedClient_of_none hclient, closedStaff_of_none hstaff⟩ .enter
  · obtain rfl := Option.some.inj hstep
    exact PasswordsKept.before hwhole rfl (.refl s) rfl fun _ hb => by cases hb

theorem PasswordsKept.comparing (hstep : (PasswordCall.comparing since kept old new).step ok s = some r) :
    passwordsInv.Keeps s (some (.comparing since kept old new)) r := by
  intro m hwhole hmine
  have hknows := (hmine _ rfl).1
  simp only [PasswordCall.step] at hstep
  split_ifs at hstep with hright
  · obtain rfl := Option.some.inj hstep
    exact PasswordsKept.on hwhole rfl (.refl s) rfl rfl hknows
  · obtain rfl := Option.some.inj hstep
    have hl : s.Later s.leave := .leave
    exact PasswordsKept.exit hwhole rfl (hwhole.2.2.1.later hl) rfl (fun h => h.later hl)
      (hknows.2.1.later hl)

theorem PasswordsKept.changing (hstep : (PasswordCall.changing since kept new).step ok s = some r) :
    passwordsInv.Keeps s (some (.changing since kept new)) r := by
  intro m hwhole hmine
  obtain rfl := Option.some.inj hstep
  have hl : s.Later (s.setPassword new) := .setPassword new
  refine PasswordsKept.on hwhole rfl hl rfl rfl ?_
  exact PasswordCall.Knows.later (c := .revoking since kept) (hmine _ rfl).1 hl

theorem PasswordsKept.revoking (hstep : (PasswordCall.revoking since kept).step ok s = some r) :
    passwordsInv.Keeps s (some (.revoking since kept)) r := by
  intro m hwhole hmine
  obtain ⟨hm, hspent, hclient, hstaff⟩ := (hmine _ rfl).1
  obtain rfl := Option.some.inj hstep
  have hl : s.Later (s.dropSessions kept) := .dropSessions kept
  refine PasswordsKept.on hwhole rfl hl rfl rfl ?_
  exact ⟨hm.later hl, hspent.later hl, hclient.later hm hl, hstaff.later hm hl,
    gone_dropSessions since kept⟩

theorem PasswordsKept.bumping (hstep : (PasswordCall.bumping since kept).step ok s = some r) :
    passwordsInv.Keeps s (some (.bumping since kept)) r := by
  intro m hwhole hmine
  obtain ⟨hm, hspent, hclient, hstaff, hgone⟩ := (hmine _ rfl).1
  obtain rfl := Option.some.inj hstep
  have hl : s.Later s.bumpSessionVersion := .bump
  have hpast : Past ⟨since, kept⟩ s.bumpSessionVersion :=
    ⟨hm.later hl, hstaff.later hm hl, hclient.later hm hl, hgone.later hm hl,
      stale_bump since hwhole.2.2.1⟩
  have hspent' := hspent.later hl
  exact PasswordsKept.exit hwhole rfl ((hwhole.2.2.1.later hl).complete hpast) rfl
    (fun h => ⟨h.1, h.2, h.3, h.4⟩) hspent'

theorem PasswordsKept.reading (hstep : (PasswordCall.reading since link new).step ok s = some r) :
    passwordsInv.Keeps s (some (.reading since link new)) r := by
  intro m hwhole hmine
  have hknows := (hmine _ rfl).1
  simp only [PasswordCall.step] at hstep
  split at hstep
  · obtain rfl := Option.some.inj hstep
    exact PasswordsKept.before hwhole rfl (.refl s) rfl fun _ hb => by cases hb
  · split_ifs at hstep
    · obtain rfl := Option.some.inj hstep
      refine PasswordsKept.before hwhole rfl (.refl s) rfl fun b hb => ?_
      obtain rfl := Option.mem_some.1 hb
      exact ⟨rfl, hknows⟩
    · obtain rfl := Option.some.inj hstep
      exact PasswordsKept.before hwhole rfl (.refl s) rfl fun _ hb => by cases hb

theorem PasswordsKept.consuming (happart : (PasswordCall.consuming since link new).apart ok s = true)
    (hstep : (PasswordCall.consuming since link new).step ok s = some r) :
    passwordsInv.Keeps s (some (.consuming since link new)) r := by
  intro m hwhole hmine
  have hknows := (hmine _ rfl).1
  simp only [PasswordCall.step] at hstep
  split at hstep
  · obtain rfl := Option.some.inj hstep
    exact PasswordsKept.before hwhole rfl (.refl s) rfl fun _ hb => by cases hb
  next clientTokens htry =>
  obtain rfl := Option.some.inj hstep
  obtain ⟨t, ht, hunused, rfl⟩ := Table.tryModify_eq_some.1 htry
  have halone : s.changing = 0 ∧ s.clientTokenOpen t = true := by
    simpa [PasswordCall.apart, ht, hunused] using happart
  have hl : s.Later ({ s with clientTokens := s.clientTokens.modify link fun t =>
      { t with usedAt := some s.now } } : PasswordBooks).enter := { Later.consume link with }
  have hspent := PasswordsKept.spent_of_quiet hwhole halone.1
  have hfresh := hwhole.2.2.1.fresh_client ht halone.2
  refine PasswordsKept.enter hwhole hl halone.1 (by simp [PasswordBooks.enter, halone.1]) rfl rfl ?_
  refine ⟨Reached.later hknows hl, hspent.later hl, hfresh.later hl, ?_⟩
  exact ⟨{ t with usedAt := some s.now }, by simp [PasswordBooks.enter, ht], rfl⟩

theorem PasswordsKept.linking (hstep : (PasswordCall.linking since link new).step ok s = some r) :
    passwordsInv.Keeps s (some (.linking since link new)) r := by
  intro m hwhole hmine
  have hknows := (hmine _ rfl).1
  simp only [PasswordCall.step] at hstep
  split_ifs at hstep
  · obtain rfl := Option.some.inj hstep
    exact PasswordsKept.on hwhole rfl (.refl s) rfl rfl hknows
  · obtain rfl := Option.some.inj hstep
    exact PasswordsKept.on hwhole rfl (.refl s) rfl rfl hknows

/-- A link of the client's table is not one of the staff's. -/
theorem spent_wrote_client {shared : Bool} (h : Spent none s) :
    Spent none (s.wrote (.client link) shared) := by
  intro k hk
  rcases List.mem_cons.1 hk with hk | hk
  · cases hk
  · exact h k hk

theorem PasswordsKept.clientResetting
    (hstep : (PasswordCall.clientResetting since link new).step ok s = some r) :
    passwordsInv.Keeps s (some (.clientResetting since link new)) r := by
  intro m hwhole hmine
  obtain ⟨hm, hspent, hfresh, ht⟩ := (hmine _ rfl).1
  obtain rfl := Option.some.inj hstep
  have hl : s.Later (s.setPassword new) := .setPassword new
  have hsame : ((s.setPassword new).wrote (.client link) true).changing = s.changing := rfl
  refine PasswordsKept.inside (b := .clientRevoking since) hwhole rfl ?_ hsame
    (fun h => ⟨h.1, h.2, h.3, h.4⟩) rfl ?_
  · apply (hwhole.2.2.1.later hl).wrote (hfresh.later hl)
    intro k hk
    obtain rfl := ResetLink.client.inj hk
    exact ht
  · exact ⟨⟨hm.1, hm.2, hm.3, hm.4⟩, spent_wrote_client (hspent.later hl)⟩

theorem PasswordsKept.clientRevoking (hstep : (PasswordCall.clientRevoking since).step ok s = some r) :
    passwordsInv.Keeps s (some (.clientRevoking since)) r := by
  intro m hwhole hmine
  obtain ⟨hm, hspent⟩ := (hmine _ rfl).1
  obtain rfl := Option.some.inj hstep
  have hl : s.Later (s.dropSessions none) := .dropSessions none
  exact PasswordsKept.on hwhole rfl hl rfl rfl
    ⟨hm.later hl, hspent.later hl, gone_dropSessions since none⟩

theorem PasswordsKept.clientUsing (hstep : (PasswordCall.clientUsing since).step ok s = some r) :
    passwordsInv.Keeps s (some (.clientUsing since)) r := by
  intro m hwhole hmine
  obtain ⟨hm, hspent, hgone⟩ := (hmine _ rfl).1
  obtain rfl := Option.some.inj hstep
  have hl : s.Later s.useResetTokens := .useResetTokens
  exact PasswordsKept.on hwhole rfl hl rfl rfl
    ⟨hm.later hl, hspent.later hl, hgone.later hm hl, closedStaff_useResetTokens since⟩

theorem PasswordsKept.clientBumping {own : Option ℕ}
    (hstep : (PasswordCall.clientBumping since own).step ok s = some r) :
    passwordsInv.Keeps s (some (.clientBumping since own)) r := by
  intro m hwhole hmine
  have hknows := (hmine _ rfl).1
  obtain rfl := Option.some.inj hstep
  have hl : ∀ {s' : PasswordBooks}, s'.Later s'.bumpSessionVersion := .bump
  cases own with
  | none =>
    obtain ⟨hm, hspent, hgone, hclosed⟩ := hknows
    refine PasswordsKept.on hwhole rfl hl rfl rfl ⟨hm.later hl, hspent.later hl, fun _ => ?_⟩
    exact ⟨hgone.later hm hl, hclosed.later hm hl, stale_bump since hwhole.2.2.1⟩
  | some link =>
    obtain ⟨hm, hspent, hfresh, ht⟩ := hknows
    have hlaws : (s.wrote (.client link) false).Laws := by
      apply hwhole.2.2.1.wrote hfresh
      intro k hk
      obtain rfl := ResetLink.client.inj hk
      exact ht
    have hm' : Reached since (s.wrote (.client link) false) := ⟨hm.1, hm.2, hm.3, hm.4⟩
    refine PasswordsKept.inside hwhole rfl (hlaws.later hl) rfl (fun h => ⟨h.1, h.2, h.3, h.4⟩)
      rfl ⟨hm'.later hl, (spent_wrote_client hspent).later hl, fun hshared => ?_⟩
    cases hshared

theorem PasswordsKept.clientMarking {shared : Bool}
    (hstep : (PasswordCall.clientMarking since shared).step ok s = some r) :
    passwordsInv.Keeps s (some (.clientMarking since shared)) r := by
  intro m hwhole hmine
  obtain ⟨hm, hspent, hshared⟩ := (hmine _ rfl).1
  obtain rfl := Option.some.inj hstep
  have hl : s.Later s.useClientTokens := .useClientTokens
  have hlaws := hwhole.2.2.1.later hl
  cases shared with
  | false =>
    have hl' : s.Later s.useClientTokens.leave := { hl with }
    exact PasswordsKept.exit hwhole rfl (hlaws.later .leave) rfl (fun h => h.later hl')
      (hspent.later hl')
  | true =>
    obtain ⟨hgone, hclosed, hstale⟩ := hshared rfl
    have hpast : Past ⟨since, none⟩ s.useClientTokens :=
      ⟨hm.later hl, hclosed.later hm hl, closedClient_useClientTokens since, hgone.later hm hl,
        hstale.later hm hl⟩
    have hspent' := hspent.later hl
    exact PasswordsKept.exit hwhole rfl (hlaws.complete hpast) rfl
      (fun h => ⟨h.1, h.2, h.3, h.4⟩) hspent'

theorem passwords_step {c : PasswordCall} (happart : c.apart ok s = true)
    (hstep : c.step ok s = some r) : passwordsInv.Keeps s (some c) r := by
  cases c with
  | replacing expiresAt =>
    intro m hwhole _
    obtain rfl := Option.some.inj hstep
    refine PasswordsKept.before hwhole rfl .useClientTokens rfl fun b hb => ?_
    obtain rfl := Option.mem_some.1 hb
    exact ⟨rfl, trivial⟩
  | creating expiresAt =>
    intro m hwhole _
    obtain rfl := Option.some.inj hstep
    exact PasswordsKept.before hwhole rfl (.createToken expiresAt) rfl fun _ hb => by cases hb
  | expiring link =>
    intro m hwhole _
    obtain rfl := Option.some.inj hstep
    exact PasswordsKept.before hwhole rfl (.expire link) rfl fun _ hb => by cases hb
  | finding since link new => exact PasswordsKept.finding happart hstep
  | resetting since link new => exact PasswordsKept.resetting hstep
  | spending since link => exact PasswordsKept.spending hstep
  | verifying since kept old new => exact PasswordsKept.verifying happart hstep
  | comparing since kept old new => exact PasswordsKept.comparing hstep
  | changing since kept new => exact PasswordsKept.changing hstep
  | revoking since kept => exact PasswordsKept.revoking hstep
  | bumping since kept => exact PasswordsKept.bumping hstep
  | reading since link new => exact PasswordsKept.reading hstep
  | consuming since link new => exact PasswordsKept.consuming happart hstep
  | linking since link new => exact PasswordsKept.linking hstep
  | clientResetting since link new => exact PasswordsKept.clientResetting hstep
  | clientRevoking since => exact PasswordsKept.clientRevoking hstep
  | clientUsing since => exact PasswordsKept.clientUsing hstep
  | clientBumping since own => exact PasswordsKept.clientBumping hstep
  | clientMarking since shared => exact PasswordsKept.clientMarking hstep

end Steps

/-! ## Runs -/

/-- An account that was just opened, without links and sessions. -/
def PasswordBooks.opened (now : ℤ) (password : String) : PasswordBooks where
  now := now
  password := password
  resetTokens := .empty
  clientTokens := .empty
  sessions := .empty
  sessionVersion := 1
  cookies := .empty
  changing := 0
  writes := []
  completed := []

theorem opened_laws (now : ℤ) (password : String) : (opened now password).Laws where
  once := .nil
  superseded _ hw := by cases hw
  past _ hc := by cases hc
  known _ _ hk := by cases hk
  client _ hk := by cases hk

/-- Changes that do not overlap, each begun beside no earlier link that it leaves open, end what was
before them, and every link writes once. -/
theorem passwords_guarded (now : ℤ) (password : String) {x : Calls PasswordBooks PasswordCall}
    {moves : List (Move PasswordEvent Bool)}
    (hmeets : passwords.machine.Meets (CallSystem.When (fun _ _ => True)
      fun ok c s => c.apart ok s = true) (.idle (opened now password)) moves)
    (hrun : passwords.machine.run (.idle (opened now password)) moves = some x) :
    x.shared.Guarded := by
  have hidle : passwordsInv.Holds (.idle (opened now password)) := by
    apply CallInv.holds_idle
    exact ⟨rfl, by omega, opened_laws now password, fun _ _ hk => by cases hk⟩
  have hevents : ∀ {e : PasswordEvent} {s : PasswordBooks} {r}, True → passwords.event e s = some r →
      passwordsInv.Keeps s none r :=
    fun _ hevent => passwords_event hevent
  have hholds := hidle.run hevents (fun happart hstep => passwords_step happart hstep) hmeets hrun
  exact hholds.whole.2.2.1.guarded

/-- Both accounts have a session; the staff's link sets a password, and is tried again. -/
def resetTwice : List (Move PasswordEvent Bool) :=
  [.event .openSession, .event (.openClientSession 1), .event (.forgotPass 1000),
      .event (.resetPasswordByToken 1 "second")] ++ List.replicate 5 (.step 1 true) ++
    [.event (.resetPasswordByToken 1 "third"), .step 2 true]

theorem resetTwice_guarded : ∃ x,
    passwords.machine.run (.idle (opened 0 "first")) resetTwice = some x ∧
      x.shared.password = "second" ∧ x.shared.sessions.rows = [] ∧ x.shared.sessionVersion = 2 ∧
        x.shared.completed ≠ [] ∧ x.shared.Guarded := by
  have hmeets : passwords.machine.Meets (CallSystem.When (fun _ _ => True)
      fun ok c s => c.apart ok s = true) (.idle (opened 0 "first")) resetTwice := by
    decide +kernel
  have hsome : (passwords.machine.run (.idle (opened 0 "first")) resetTwice).any (fun x =>
      x.shared.password == "second" && x.shared.sessions.rows.isEmpty &&
        x.shared.sessionVersion == 2 && !x.shared.completed.isEmpty) = true := by
    decide +kernel
  obtain ⟨x, hrun, hout⟩ := (Option.any_eq_true _ _).1 hsome
  simp only [Bool.and_eq_true, beq_iff_eq, List.isEmpty_iff, Bool.not_eq_true',
    List.isEmpty_eq_false_iff] at hout
  obtain ⟨⟨⟨hpassword, hsessions⟩, hversion⟩, hcompleted⟩ := hout
  exact ⟨x, hrun, hpassword, hsessions, hversion, hcompleted, passwords_guarded 0 "first" hmeets hrun⟩

/-- Two requests with one link are past the check when the first of them writes. -/
def linkUsedTwice : List (Move PasswordEvent Bool) :=
  [.event (.forgotPass 1000), .event (.resetPasswordByToken 1 "second"),
      .event (.resetPasswordByToken 1 "third"), .step 1 true, .step 2 true] ++
    List.replicate 4 (.step 1 true) ++ [.step 2 true]

/-- The client asks for a link, the staff's link sets the password, and then the client's does. -/
def clientLinkLeft : List (Move PasswordEvent Bool) :=
  [.event (.requestPasswordReset 1000), .step 1 true, .step 1 true, .event (.forgotPass 1000),
      .event (.resetPasswordByToken 1 "second")] ++ List.replicate 5 (.step 2 true) ++
    .event (.resetPassword 1 "third") :: List.replicate 4 (.step 3 true)

/-- A link writes twice; a link writes after a change that is over and began after it was made. -/
theorem links_outlive_changes :
    (∃ x, passwords.machine.run (.idle (opened 0 "first")) linkUsedTwice = some x ∧
      x.shared.writes.map (·.link) = [.staff 1, .staff 1] ∧ ¬x.shared.Guarded) ∧
    ∃ x, passwords.machine.run (.idle (opened 0 "first")) clientLinkLeft = some x ∧
      x.shared.password = "third" ∧ ¬x.shared.Guarded := by
  refine ⟨?_, ?_⟩
  · have hsome : (passwords.machine.run (.idle (opened 0 "first")) linkUsedTwice).any (fun x =>
        x.shared.writes.map (·.link) == [.staff 1, .staff 1]) = true := by
      decide +kernel
    obtain ⟨x, hrun, hout⟩ := (Option.any_eq_true _ _).1 hsome
    rw [beq_iff_eq] at hout
    refine ⟨x, hrun, hout, fun hguarded => ?_⟩
    have honce := hguarded.once
    rw [hout] at honce
    exact absurd honce (by decide)
  · have hsome : (passwords.machine.run (.idle (opened 0 "first")) clientLinkLeft).any (fun x =>
        x.shared.password == "third" && x.shared.writes.any fun w => w.shared &&
          w.link == .client 1 && w.after.any fun c => decide (1 < c.horizon.clientTokens)) =
            true := by
      decide +kernel
    obtain ⟨x, hrun, hout⟩ := (Option.any_eq_true _ _).1 hsome
    simp only [Bool.and_eq_true, beq_iff_eq, List.any_eq_true, decide_eq_true_eq] at hout
    obtain ⟨hpassword, w, hw, ⟨hshared, hlink⟩, c, hc, hbefore⟩ := hout
    refine ⟨x, hrun, hpassword, fun hguarded => hguarded.superseded w hw hshared c hc ?_⟩
    rw [hlink]
    exact hbefore

end Barbershop
