import Barbershop.Platform.ProReferral

/-!
# Every month of Pro is given once

The locks of an inviter and of the one that is invited make the transactions about an account follow
each other, so that what a transaction has checked holds until it commits. `Beside` is what the others
see of a move: nothing about accounts whose lock the mover does not have.
-/

namespace Barbershop

open Lib

/-! ## Dates -/

/-- A month begins after the one before. -/
theorem utcDay_lt_next (year month : ℤ) : utcDay year month 1 < utcDay year (month + 1) 1 := by
  unfold utcDay
  dsimp only
  split <;> split <;> omega

theorem utcDay_lt_add (year month : ℤ) {n : ℕ} (h : 0 < n) :
    utcDay year month 1 < utcDay year (month + n) 1 := by
  induction n with
  | zero => omega
  | succ n ih =>
    have hnext := utcDay_lt_next year (month + n)
    rw [add_assoc] at hnext
    push_cast
    rcases Nat.eq_zero_or_pos n with rfl | hpos
    · simpa using hnext
    · exact (ih hpos).trans hnext

/-- The days of a month follow each other, also past its end. -/
theorem utcDay_add (year month date : ℤ) :
    utcDay year month date = utcDay year month 1 + (date - 1) := by
  unfold utcDay
  dsimp only
  omega

theorem lt_addUTCMonths (t : ℤ) {months : ℕ} (h : 0 < months) : t < addUTCMonths t months := by
  unfold addUTCMonths
  dsimp only
  have hlater := utcDay_lt_add (utcMonth (t / DAY_MS)).1 (utcMonth (t / DAY_MS)).2 h
  rw [utcDay_add _ ((utcMonth (t / DAY_MS)).2 + months)]
  unfold DAY_MS at hlater ⊢
  omega

/-- An extension is later than what it extends. -/
theorem lt_extendProUntil {current : Option ℤ} {t : ℤ} (h : current = some t) {months : ℕ}
    (hpos : 0 < months) (now : ℤ) : t < extendProUntil current months now := by
  have hlater : ∀ base, t ≤ base → t < addUTCMonths base months := fun base hle =>
    lt_of_le_of_lt hle (lt_addUTCMonths base hpos)
  subst h
  apply hlater
  rcases lt_or_ge now t with hon | hover
  · simp [Option.filter, hon]
  · simp [Option.filter, not_lt.2 hover, hover]

/-! ## The law -/

/-- A `proUntil` is what its last extension left, which began from what the one before left. -/
def Linked : List ProExtension → Option ℤ → Prop
  | [], _ => True
  | e :: rest, current => current = some e.after ∧ Linked rest e.before

namespace ProBooks

/-- How often a referral has moved a `proUntil` for a reason. -/
def times (s : ProBooks) (referral : ℕ) (reason : ProReason) : ℕ :=
  s.extensions.countP fun e => e.referral == referral && e.reason == reason

structure Lawful (s : ProBooks) : Prop where
  once : ∀ i j r r', s.referrals.get? i = some r → s.referrals.get? j = some r' →
    r.invitedUserId = r'.invitedUserId → i = j
  notCrossed : ∀ i j r r', s.referrals.get? i = some r → s.referrals.get? j = some r' →
    ¬(r'.inviterUserId = r.invitedUserId ∧ r'.invitedUserId = r.inviterUserId)
  months : ∀ userId, s.earnedMonths userId ≤ PRO_REFERRAL_MAX_MONTHS
  claimed : ∀ i r, s.referrals.get? i = some r → s.times i .claimed = 1
  granted : ∀ i r, s.referrals.get? i = some r →
    s.times i .granted = if r.inviterGrantedAt.isSome then 1 else 0
  /-- Nothing else moves a `proUntil`, and it moves that of the account that the month is for. -/
  only : ∀ e ∈ s.extensions, ∃ r, s.referrals.get? e.referral = some r ∧
    e.userId = match e.reason with
      | .claimed => r.invitedUserId
      | .granted => r.inviterUserId
  later : ∀ e ∈ s.extensions, ∀ t, e.before = some t → t < e.after
  linked : ∀ u a, s.users.get? u = some a →
    Linked (s.extensions.filter fun e => e.userId == u) a.proUntil

/-! ## Why it holds -/

structure Sound (s : ProBooks) : Prop extends s.Lawful where
  each : ∀ i r, s.referrals.get? i = some r → r.months = PRO_REFERRAL_MONTHS
  known : ∀ e ∈ s.extensions, ∃ a, s.users.get? e.userId = some a

def proUntilOf (s : ProBooks) (userId : ℕ) : Option (Option ℤ) :=
  (s.users.get? userId).map (·.proUntil)

end ProBooks

section Steps

variable (hashtext : ℕ → ℤ)

/-- What a move of one that holds some locks leaves to the others. -/
structure ProBooks.Beside (keys : List ℤ) (s s' : ProBooks) : Prop where
  locks : ∀ key ∈ s.locks, key ∉ keys → key ∈ s'.locks
  proUntil : ∀ u x, hashtext u ∉ keys → s.proUntilOf u = some x → s'.proUntilOf u = some x
  earned : ∀ u, hashtext u ∉ keys → s'.earnedMonths u = s.earnedMonths u
  kept : ∀ i r, s.referrals.get? i = some r → ∃ r', s'.referrals.get? i = some r' ∧
    r'.inviterUserId = r.inviterUserId ∧ r'.months = r.months ∧
    (hashtext r.inviterUserId ∉ keys → r'.inviterGrantedAt = r.inviterGrantedAt)
  old : ∀ i r', s'.referrals.get? i = some r' →
    hashtext r'.inviterUserId ∉ keys ∨ hashtext r'.invitedUserId ∉ keys →
    ∃ r, s.referrals.get? i = some r ∧ r.inviterUserId = r'.inviterUserId ∧
      r.invitedUserId = r'.invitedUserId

namespace ProClaim

variable (t : ProClaim) (s : ProBooks)

/-- It has both locks. -/
structure Both : Prop where
  ne : t.inviterId ≠ t.userId
  inviter : hashtext t.inviterId ∈ t.held
  invited : hashtext t.userId ∈ t.held

/-- The inviter was not invited by this account. -/
def NotCrossed : Prop := ∀ i r, s.referrals.get? i = some r →
  ¬(r.inviterUserId = t.userId ∧ r.invitedUserId = t.inviterId)

def Room : Prop := s.earnedMonths t.inviterId + PRO_REFERRAL_MONTHS ≤ PRO_REFERRAL_MAX_MONTHS

/-- The account was not invited yet. -/
def Fresh : Prop := ∀ i r, s.referrals.get? i = some r → r.invitedUserId ≠ t.userId

end ProClaim

namespace ProRelease

/-- A referral that a release goes by. -/
def Refers (s : ProBooks) (inviterUserId id months : ℕ) : Prop :=
  ∃ r, s.referrals.get? id = some r ∧ r.inviterUserId = inviterUserId ∧ r.months = months

def RefersAll (s : ProBooks) (inviterUserId : ℕ) (pending : List (ℕ × ProReferral)) : Prop :=
  ∀ p ∈ pending, Refers s inviterUserId p.1 p.2.months

/-- The referral is not granted. -/
def Pending (s : ProBooks) (t : ProRelease) : Prop :=
  ∃ r, s.referrals.get? t.id = some r ∧ r.inviterUserId = t.inviterUserId ∧ r.months = t.months ∧
    r.inviterGrantedAt = none

end ProRelease

/-- The new end of the Pro, of what it is now. -/
def ProBooks.Extends (s : ProBooks) (userId months : ℕ) (now proUntil : ℤ) : Prop :=
  ∃ current, s.proUntilOf userId = some current ∧ proUntil = extendProUntil current months now

open ProRelease in
/-- What a request knows, by where it is. -/
def ProCall.Knows (s : ProBooks) : ProCall → Prop
  | findingClaimant userId inviterId _ => inviterId ≠ userId
  | locking t rest => t.inviterId ≠ t.userId ∧
      (t.inviterId ∈ rest ∨ hashtext t.inviterId ∈ t.held) ∧
      (t.userId ∈ rest ∨ hashtext t.userId ∈ t.held)
  | crossing t => t.Both hashtext
  | earning t => t.Both hashtext ∧ t.NotCrossed s
  | creating t => t.Both hashtext ∧ t.NotCrossed s ∧ t.Room s
  | granting t => t.Both hashtext ∧ t.NotCrossed s ∧ t.Room s ∧ t.Fresh s
  | committing t proUntil => t.Both hashtext ∧ t.NotCrossed s ∧ t.Room s ∧ t.Fresh s ∧
      s.Extends t.userId PRO_REFERRAL_MONTHS t.now proUntil
  | releasing inviterUserId _ pending => RefersAll s inviterUserId pending
  | lockingInviter t | claiming t =>
      Refers s t.inviterUserId t.id t.months ∧ RefersAll s t.inviterUserId t.rest
  | reading t => t.Pending s ∧ RefersAll s t.inviterUserId t.rest
  | granted t proUntil => t.Pending s ∧ RefersAll s t.inviterUserId t.rest ∧
      s.Extends t.inviterUserId t.months t.now proUntil
  | _ => True

def proInv : CallInv ProBooks ProCall ℕ where
  weight _ := 0
  whole s _ := s.Sound
  each s c := (∀ key ∈ c.held hashtext, key ∈ s.locks) ∧ c.Knows hashtext s
  pair a b := ∀ key ∈ a.held hashtext, key ∉ b.held hashtext
  symm h key hb ha := h key ha hb

variable {hashtext} {s s' : ProBooks} {keys : List ℤ}

open ProRelease in
/-- The others know what they knew. -/
theorem ProCall.Knows.beside {d : ProCall} (h : d.Knows hashtext s)
    (hb : s.Beside hashtext keys s') (hapart : ∀ key ∈ d.held hashtext, key ∉ keys) :
    d.Knows hashtext s' := by
  have hcrossed : ∀ {t : ProClaim}, t.Both hashtext → (∀ key ∈ t.held, key ∉ keys) →
      t.NotCrossed s → t.NotCrossed s' := by
    intro t hboth hapart hnot i r' hr' hcross
    obtain ⟨r, hr, hinviter, hinvited⟩ := hb.old i r' hr' (.inl (by
      rw [hcross.1]
      exact hapart _ hboth.invited))
    exact hnot i r hr ⟨hinviter.trans hcross.1, hinvited.trans hcross.2⟩
  have hroom : ∀ {t : ProClaim}, t.Both hashtext → (∀ key ∈ t.held, key ∉ keys) →
      t.Room s → t.Room s' := by
    intro t hboth hapart hroom
    unfold ProClaim.Room at hroom ⊢
    rwa [hb.earned _ (hapart _ hboth.inviter)]
  have hfresh : ∀ {t : ProClaim}, t.Both hashtext → (∀ key ∈ t.held, key ∉ keys) →
      t.Fresh s → t.Fresh s' := by
    intro t hboth hapart hfresh i r' hr' hinvited
    obtain ⟨r, hr, -, hsame⟩ := hb.old i r' hr' (.inr (by
      rw [hinvited]
      exact hapart _ hboth.invited))
    exact hfresh i r hr (hsame.trans hinvited)
  have hextends : ∀ {u months : ℕ} {now proUntil : ℤ}, hashtext u ∉ keys →
      s.Extends u months now proUntil → s'.Extends u months now proUntil := by
    rintro u months now proUntil hnot ⟨current, hcurrent, hnew⟩
    exact ⟨current, hb.proUntil u current hnot hcurrent, hnew⟩
  have hrefers : ∀ {u id months : ℕ}, Refers s u id months → Refers s' u id months := by
    rintro u id months ⟨r, hr, hinviter, hmonths⟩
    obtain ⟨r', hr', hinviter', hmonths', -⟩ := hb.kept id r hr
    exact ⟨r', hr', hinviter'.trans hinviter, hmonths'.trans hmonths⟩
  have hrefersAll : ∀ {u : ℕ} {pending : List (ℕ × ProReferral)}, RefersAll s u pending →
      RefersAll s' u pending := fun hall p hp => hrefers (hall p hp)
  have hpending : ∀ {t : ProRelease}, hashtext t.inviterUserId ∉ keys → t.Pending s →
      t.Pending s' := by
    rintro t hnot ⟨r, hr, hinviter, hmonths, hnone⟩
    obtain ⟨r', hr', hinviter', hmonths', hgranted⟩ := hb.kept t.id r hr
    refine ⟨r', hr', hinviter'.trans hinviter, hmonths'.trans hmonths, ?_⟩
    rw [hgranted (by rwa [hinviter]), hnone]
  cases d with
  | findingClaimant userId inviterId inviter => exact h
  | locking t rest => exact h
  | crossing t => exact h
  | earning t => exact ⟨h.1, hcrossed h.1 hapart h.2⟩
  | creating t => exact ⟨h.1, hcrossed h.1 hapart h.2.1, hroom h.1 hapart h.2.2⟩
  | granting t =>
    exact ⟨h.1, hcrossed h.1 hapart h.2.1, hroom h.1 hapart h.2.2.1, hfresh h.1 hapart h.2.2.2⟩
  | committing t proUntil =>
    exact ⟨h.1, hcrossed h.1 hapart h.2.1, hroom h.1 hapart h.2.2.1, hfresh h.1 hapart h.2.2.2.1,
      hextends (hapart _ h.1.invited) h.2.2.2.2⟩
  | releasing inviterUserId now pending => exact hrefersAll h
  | lockingInviter t => exact ⟨hrefers h.1, hrefersAll h.2⟩
  | claiming t => exact ⟨hrefers h.1, hrefersAll h.2⟩
  | reading t => exact ⟨hpending (hapart _ (List.mem_singleton_self _)) h.1, hrefersAll h.2⟩
  | granted t proUntil =>
    have hnot := hapart _ (List.mem_singleton_self (hashtext t.inviterUserId))
    exact ⟨hpending hnot h.1, hrefersAll h.2.1, hextends hnot h.2.2⟩
  | _ => trivial

/-! ## Moves -/

namespace ProBooks

theorem Beside.rows (hlocks : ∀ key ∈ s.locks, key ∉ keys → key ∈ s'.locks)
    (hproUntil : ∀ u x, hashtext u ∉ keys → s.proUntilOf u = some x → s'.proUntilOf u = some x)
    (hsame : s'.referrals = s.referrals) : s.Beside hashtext keys s' where
  locks := hlocks
  proUntil := hproUntil
  earned u _ := by rw [earnedMonths, earnedMonths, hsame]
  kept i r hr := ⟨r, by rwa [hsame], rfl, rfl, fun _ => rfl⟩
  old i r hr _ := ⟨r, by rwa [hsame] at hr, rfl, rfl⟩

theorem Beside.refl (s : ProBooks) : s.Beside hashtext keys s :=
  .rows (fun _ hkey _ => hkey) (fun _ _ _ h => h) rfl

theorem mem_unlock {held : List ℤ} {key : ℤ} :
    key ∈ (s.unlock held).locks ↔ key ∈ s.locks ∧ key ∉ held := by
  simp [unlock]

theorem Beside.unlock (s : ProBooks) (held : List ℤ) :
    s.Beside hashtext held (s.unlock held) :=
  .rows (fun _ hkey hnot => mem_unlock.2 ⟨hkey, hnot⟩) (fun _ _ _ h => h) rfl

/-- The locks of a request change after its rows. -/
theorem Beside.thenUnlock (h : s.Beside hashtext keys s') :
    s.Beside hashtext keys (s'.unlock keys) where
  locks key hkey hnot := mem_unlock.2 ⟨h.locks key hkey hnot, hnot⟩
  proUntil := h.proUntil
  earned := h.earned
  kept := h.kept
  old := h.old

/-- The locks are no part of the law. -/
theorem Sound.unlock (h : s.Sound) (held : List ℤ) : (s.unlock held).Sound where
  once := h.once
  notCrossed := h.notCrossed
  months := h.months
  claimed := h.claimed
  granted := h.granted
  only := h.only
  later := h.later
  linked := h.linked
  each := h.each
  known := h.known

theorem lock_cases {held : List ℤ} {key : ℤ} (h : s.lock held key = some s') :
    s' = s ∧ key ∈ held ∨ key ∉ s.locks ∧ s' = { s with locks := key :: s.locks } := by
  unfold lock at h
  split at h
  · next hmem => exact .inl ⟨(Option.some.inj h).symm, hmem⟩
  · split at h
    · cases h
    · next hfree => exact .inr ⟨hfree, (Option.some.inj h).symm⟩

end ProBooks

/-! ### What a commit writes -/

variable {userId months : ℕ} {now proUntil : ℤ}

namespace ProBooks

theorem times_extend (s : ProBooks) (userId i j : ℕ) (reason reason' : ProReason) (proUntil : ℤ) :
    (s.extend userId i reason proUntil).times j reason' =
      s.times j reason' + if i = j ∧ reason = reason' then 1 else 0 := by
  simp [times, extend, List.countP_cons]

/-- An extension of a referral that there is not yet. -/
theorem Sound.times_next (h : s.Sound) (reason : ProReason) : s.times s.referrals.next reason = 0 := by
  unfold times
  rw [List.countP_eq_zero]
  intro e he hmatch
  obtain ⟨r, hr, -⟩ := h.only e he
  simp only [Bool.and_eq_true, beq_iff_eq] at hmatch
  rw [hmatch.1, Table.get?_next] at hr
  cases hr

theorem Extends.later (h : s.Extends userId months now proUntil) (hpos : 0 < months) {t : ℤ}
    (hbefore : (s.users.get? userId).bind (·.proUntil) = some t) : t < proUntil := by
  obtain ⟨current, hcurrent, rfl⟩ := h
  obtain ⟨a, ha, rfl⟩ := Option.map_eq_some_iff.1 hcurrent
  rw [ha] at hbefore
  exact lt_extendProUntil hbefore hpos now

theorem Extends.known (h : s.Extends userId months now proUntil) :
    ∃ a, s.users.get? userId = some a := by
  obtain ⟨current, hcurrent, -⟩ := h
  obtain ⟨a, ha, -⟩ := Option.map_eq_some_iff.1 hcurrent
  exact ⟨a, ha⟩

theorem get?_extend_cases {u : ℕ} {i : ℕ} {reason : ProReason} {a : ProAccount}
    (h : (s.extend userId i reason proUntil).users.get? u = some a) :
    u = userId ∧ (∃ a₀, s.users.get? userId = some a₀ ∧ a.proUntil = some proUntil) ∨
      u ≠ userId ∧ s.users.get? u = some a := by
  simp only [extend] at h
  by_cases hu : u = userId
  · subst hu
    rw [Table.get?_modify_self] at h
    obtain ⟨a₀, ha₀, rfl⟩ := Option.map_eq_some_iff.1 h
    exact .inl ⟨rfl, a₀, ha₀, rfl⟩
  · rw [Table.get?_modify_of_ne _ _ hu] at h
    exact .inr ⟨hu, h⟩

theorem linked_extend (h : ∀ u a, s.users.get? u = some a →
      Linked (s.extensions.filter fun e => e.userId == u) a.proUntil)
    (i : ℕ) (reason : ProReason) (u : ℕ) (a : ProAccount)
    (ha : (s.extend userId i reason proUntil).users.get? u = some a) :
    Linked ((s.extend userId i reason proUntil).extensions.filter fun e => e.userId == u)
      a.proUntil := by
  rcases get?_extend_cases ha with ⟨rfl, a₀, ha₀, hnew⟩ | ⟨hne, hold⟩
  · rw [extend, List.filter_cons_of_pos (by simp), hnew]
    refine ⟨rfl, ?_⟩
    rw [ha₀]
    exact h u a₀ ha₀
  · rw [extend, List.filter_cons_of_neg (by simpa using fun heq => hne heq.symm)]
    exact h u a hold

theorem known_extend (h : ∀ e ∈ s.extensions, ∃ a, s.users.get? e.userId = some a)
    (hextends : s.Extends userId months now proUntil) (i : ℕ) (reason : ProReason) :
    ∀ e ∈ (s.extend userId i reason proUntil).extensions,
      ∃ a, (s.extend userId i reason proUntil).users.get? e.userId = some a := by
  have hstill : ∀ {u}, (∃ a, s.users.get? u = some a) →
      ∃ a, (s.extend userId i reason proUntil).users.get? u = some a := by
    rintro u ⟨a, ha⟩
    rw [extend, Table.get?_modify, ha]
    split
    · exact ⟨_, rfl⟩
    · exact ⟨_, rfl⟩
  intro e he
  rcases List.mem_cons.1 he with rfl | he
  · exact hstill hextends.known
  · exact hstill (h e he)

theorem later_extend (h : ∀ e ∈ s.extensions, ∀ t, e.before = some t → t < e.after)
    (hextends : s.Extends userId months now proUntil) (hpos : 0 < months) (i : ℕ)
    (reason : ProReason) :
    ∀ e ∈ (s.extend userId i reason proUntil).extensions, ∀ t, e.before = some t → t < e.after := by
  intro e he t hbefore
  rcases List.mem_cons.1 he with rfl | he
  · exact hextends.later hpos hbefore
  · exact h e he t hbefore

theorem proUntilOf_extend {u : ℕ} (hne : u ≠ userId) (i : ℕ) (reason : ProReason) :
    (s.extend userId i reason proUntil).proUntilOf u = s.proUntilOf u := by
  rw [proUntilOf, proUntilOf, extend, Table.get?_modify_of_ne _ _ hne]

/-! ### The commit of a claim -/

/-- The referral of a claim. -/
def refer (s : ProBooks) (t : ProClaim) : ProBooks :=
  { s with referrals := s.referrals.insert ⟨t.inviterId, t.userId, PRO_REFERRAL_MONTHS, none⟩ }

theorem earnedMonths_refer (s : ProBooks) (t : ProClaim) (u : ℕ) :
    (s.refer t).earnedMonths u =
      s.earnedMonths u + if t.inviterId = u then PRO_REFERRAL_MONTHS else 0 := by
  simp [earnedMonths, refer]

theorem Sound.claim {t : ProClaim} (h : s.Sound) (hboth : t.Both hashtext)
    (hcrossed : t.NotCrossed s) (hroom : t.Room s) (hfresh : t.Fresh s)
    (hextends : s.Extends t.userId PRO_REFERRAL_MONTHS t.now proUntil) :
    ((s.refer t).extend t.userId s.referrals.next .claimed proUntil).Sound where
  once := by
    intro i j r r' hr hr' hsame
    rcases Table.get?_insert_cases hr with ⟨rfl, rfl⟩ | hr
    · rcases Table.get?_insert_cases hr' with ⟨rfl, -⟩ | hr'
      · rfl
      · exact absurd hsame.symm (hfresh j r' hr')
    · rcases Table.get?_insert_cases hr' with ⟨rfl, rfl⟩ | hr'
      · exact absurd hsame (hfresh i r hr)
      · exact h.once i j r r' hr hr' hsame
  notCrossed := by
    intro i j r r' hr hr' hcross
    rcases Table.get?_insert_cases hr with ⟨rfl, rfl⟩ | hr
    · rcases Table.get?_insert_cases hr' with ⟨rfl, rfl⟩ | hr'
      · exact hboth.ne hcross.1
      · exact hcrossed j r' hr' hcross
    · rcases Table.get?_insert_cases hr' with ⟨rfl, rfl⟩ | hr'
      · exact hcrossed i r hr ⟨hcross.2.symm, hcross.1.symm⟩
      · exact h.notCrossed i j r r' hr hr' hcross
  months := by
    intro u
    show (s.refer t).earnedMonths u ≤ PRO_REFERRAL_MAX_MONTHS
    rw [earnedMonths_refer]
    split
    · next hinviter =>
      subst hinviter
      exact hroom
    · exact h.months u
  claimed := by
    intro i r hr
    rw [times_extend]
    rcases Table.get?_insert_cases hr with ⟨rfl, -⟩ | hr
    · have hzero : (s.refer t).times s.referrals.next .claimed = 0 := h.times_next .claimed
      simp [hzero]
    · have hne : s.referrals.next ≠ i := (Nat.ne_of_lt (Table.lt_next_of_get? hr)).symm
      have hone : (s.refer t).times i .claimed = 1 := h.claimed i r hr
      simp [hone, hne]
  granted := by
    intro i r hr
    rw [times_extend]
    rcases Table.get?_insert_cases hr with ⟨rfl, rfl⟩ | hr
    · have hzero : (s.refer t).times s.referrals.next .granted = 0 := h.times_next .granted
      simp [hzero]
    · have hsame : (s.refer t).times i .granted = if r.inviterGrantedAt.isSome then 1 else 0 :=
        h.granted i r hr
      simp [hsame]
  only := by
    intro e he
    rcases List.mem_cons.1 he with rfl | he
    · exact ⟨_, Table.get?_insert_self _ _, rfl⟩
    · obtain ⟨r, hr, huser⟩ := h.only e he
      exact ⟨r, Table.get?_insert_of_some _ hr, huser⟩
  later := later_extend (s := s.refer t) h.later hextends Nat.one_pos _ _
  linked := linked_extend (s := s.refer t) h.linked _ _
  each := by
    intro i r hr
    rcases Table.get?_insert_cases hr with ⟨-, rfl⟩ | hr
    · rfl
    · exact h.each i r hr
  known := known_extend (s := s.refer t) h.known hextends _ _

theorem Beside.claim {t : ProClaim} (hboth : t.Both hashtext) (proUntil : ℤ) :
    s.Beside hashtext t.held
      ((s.refer t).extend t.userId s.referrals.next .claimed proUntil) where
  locks key hkey _ := hkey
  proUntil := by
    intro u x hnot hx
    have hne : u ≠ t.userId := by
      rintro rfl
      exact hnot hboth.invited
    rwa [proUntilOf_extend hne]
  earned := by
    intro u hnot
    show (s.refer t).earnedMonths u = s.earnedMonths u
    have hne : t.inviterId ≠ u := by
      rintro rfl
      exact hnot hboth.inviter
    rw [earnedMonths_refer, if_neg hne, Nat.add_zero]
  kept i r hr := ⟨r, Table.get?_insert_of_some _ hr, rfl, rfl, fun _ => rfl⟩
  old := by
    intro i r' hr' hnot
    rcases Table.get?_insert_cases hr' with ⟨-, rfl⟩ | hr
    · rcases hnot with hinviter | hinvited
      · exact absurd hboth.inviter hinviter
      · exact absurd hboth.invited hinvited
    · exact ⟨r', hr, rfl, rfl⟩

/-! ### The commit of a release -/

/-- The referral is granted. -/
def grant (s : ProBooks) (id : ℕ) (now : ℤ) : ProBooks :=
  { s with referrals := s.referrals.modify id ({ · with inviterGrantedAt := some now }) }

theorem get?_grant (s : ProBooks) (id : ℕ) (now : ℤ) (i : ℕ) :
    (s.grant id now).referrals.get? i = (s.referrals.get? i).map fun r =>
      if i = id then { r with inviterGrantedAt := some now } else r := by
  simp only [grant, Table.get?_modify]
  split
  · rfl
  · simp

theorem get?_grant_some {id i : ℕ} {r' : ProReferral}
    (h : (s.grant id now).referrals.get? i = some r') : ∃ r, s.referrals.get? i = some r ∧
      r'.inviterUserId = r.inviterUserId ∧ r'.invitedUserId = r.invitedUserId ∧
      r'.months = r.months ∧
      (i = id ∧ r'.inviterGrantedAt = some now ∨
        i ≠ id ∧ r'.inviterGrantedAt = r.inviterGrantedAt) := by
  rw [get?_grant] at h
  obtain ⟨r, hr, rfl⟩ := Option.map_eq_some_iff.1 h
  refine ⟨r, hr, ?_⟩
  split
  · next hi => exact ⟨rfl, rfl, rfl, .inl ⟨hi, rfl⟩⟩
  · next hi => exact ⟨rfl, rfl, rfl, .inr ⟨hi, rfl⟩⟩

theorem grant_get? {id i : ℕ} {r : ProReferral} (h : s.referrals.get? i = some r) :
    ∃ r', (s.grant id now).referrals.get? i = some r' ∧
      r'.inviterUserId = r.inviterUserId ∧ r'.invitedUserId = r.invitedUserId ∧
      r'.months = r.months ∧ (i ≠ id → r'.inviterGrantedAt = r.inviterGrantedAt) := by
  refine ⟨_, by rw [get?_grant, h, Option.map_some], ?_⟩
  split
  · next hi => exact ⟨rfl, rfl, rfl, fun hne => absurd hi hne⟩
  · exact ⟨rfl, rfl, rfl, fun _ => rfl⟩

theorem earnedMonths_grant (s : ProBooks) (id : ℕ) (now : ℤ) (u : ℕ) :
    (s.grant id now).earnedMonths u = s.earnedMonths u :=
  Table.sum_modify_eq (fun r : ProReferral => { r with inviterGrantedAt := some now }) _
    fun _ _ => rfl

theorem Sound.grant {t : ProRelease} (h : s.Sound) (hpending : t.Pending s)
    (hextends : s.Extends t.inviterUserId t.months t.now proUntil) :
    ((s.grant t.id t.now).extend t.inviterUserId t.id .granted proUntil).Sound := by
  obtain ⟨r₀, hr₀, hinviter₀, hmonths₀, hnone⟩ := hpending
  have hpos : 0 < t.months := by
    rw [← hmonths₀, h.each t.id r₀ hr₀]
    exact Nat.one_pos
  refine ⟨⟨?_, ?_, ?_, ?_, ?_, ?_, ?_, ?_⟩, ?_, ?_⟩
  · intro i j r r' hr hr' hsame
    obtain ⟨q, hq, -, hinvited, -⟩ := get?_grant_some hr
    obtain ⟨q', hq', -, hinvited', -⟩ := get?_grant_some hr'
    exact h.once i j q q' hq hq' (by rw [← hinvited, ← hinvited', hsame])
  · rintro i j r r' hr hr' ⟨hcross, hcross'⟩
    obtain ⟨q, hq, hinviter, hinvited, -⟩ := get?_grant_some hr
    obtain ⟨q', hq', hinviter', hinvited', -⟩ := get?_grant_some hr'
    refine h.notCrossed i j q q' hq hq' ⟨?_, ?_⟩
    · rw [← hinviter', ← hinvited, hcross]
    · rw [← hinvited', ← hinviter, hcross']
  · intro u
    show (s.grant t.id t.now).earnedMonths u ≤ PRO_REFERRAL_MAX_MONTHS
    rw [earnedMonths_grant]
    exact h.months u
  · intro i r hr
    obtain ⟨q, hq, -⟩ := get?_grant_some hr
    have hone : (s.grant t.id t.now).times i .claimed = 1 := h.claimed i q hq
    rw [times_extend, hone]
    simp
  · intro i r hr
    obtain ⟨q, hq, -, -, -, hgranted⟩ := get?_grant_some hr
    have hold : (s.grant t.id t.now).times i .granted =
        if q.inviterGrantedAt.isSome then 1 else 0 := h.granted i q hq
    rw [times_extend, hold]
    rcases hgranted with ⟨rfl, hnow⟩ | ⟨hne, hsame⟩
    · obtain rfl := Option.some.inj (hr₀.symm.trans hq)
      simp [hnone, hnow]
    · simp [hsame, Ne.symm hne]
  · intro e he
    rcases List.mem_cons.1 he with rfl | he
    · obtain ⟨r', hr', hinviter, -⟩ := grant_get? hr₀
      exact ⟨r', hr', (hinviter.trans hinviter₀).symm⟩
    · obtain ⟨r, hr, huser⟩ := h.only e he
      obtain ⟨r', hr', hinviter, hinvited, -⟩ := grant_get? hr
      refine ⟨r', hr', ?_⟩
      rw [hinviter, hinvited]
      exact huser
  · exact later_extend (s := s.grant t.id t.now) h.later hextends hpos _ _
  · exact linked_extend (s := s.grant t.id t.now) h.linked _ _
  · intro i r hr
    obtain ⟨q, hq, -, -, hmonths, -⟩ := get?_grant_some hr
    rw [hmonths]
    exact h.each i q hq
  · exact known_extend (s := s.grant t.id t.now) h.known hextends _ _

theorem Beside.grant {t : ProRelease} (hpending : t.Pending s) (proUntil : ℤ) :
    s.Beside hashtext [hashtext t.inviterUserId]
      ((s.grant t.id t.now).extend t.inviterUserId t.id .granted proUntil) := by
  obtain ⟨r₀, hr₀, hinviter₀, -⟩ := hpending
  refine ⟨fun _ hkey _ => hkey, ?_, ?_, ?_, ?_⟩
  · intro u x hnot hx
    have hne : u ≠ t.inviterUserId := by
      rintro rfl
      exact hnot (List.mem_singleton_self _)
    rwa [proUntilOf_extend hne]
  · intro u _
    exact earnedMonths_grant s t.id t.now u
  · intro i r hr
    obtain ⟨r', hr', hinviter, -, hmonths, hsame⟩ := grant_get? hr
    refine ⟨r', hr', hinviter, hmonths, fun hnot => hsame ?_⟩
    rintro rfl
    obtain rfl := Option.some.inj (hr₀.symm.trans hr)
    rw [hinviter₀] at hnot
    exact hnot (List.mem_singleton_self _)
  · intro i r' hr' _
    obtain ⟨r, hr, hinviter, hinvited, -⟩ := get?_grant_some hr'
    exact ⟨r, hr, hinviter.symm, hinvited.symm⟩

end ProBooks

open ProBooks

namespace ProKept

variable {c c' : Option ProCall}

/-- The locks of a request that may not have begun. -/
def heldBy (hashtext : ℕ → ℤ) (c : Option ProCall) : List ℤ := c.elim [] (·.held hashtext)

theorem move {m : ℕ} (hsound : s'.Sound) (hbeside : s.Beside hashtext (heldBy hashtext c) s')
    (hheld : ∀ a ∈ c', ∀ key ∈ a.held hashtext, key ∈ s'.locks ∧
      (key ∈ heldBy hashtext c ∨ key ∉ s.locks))
    (hknows : ∀ a ∈ c', a.Knows hashtext s') : (proInv hashtext).Kept s c m s' c' where
  whole := hsound
  mine a ha := ⟨fun key hkey => (hheld a ha key hkey).1, hknows a ha⟩
  others := by
    intro d hd hpair
    have hapart : ∀ key ∈ d.held hashtext, key ∉ heldBy hashtext c := by
      intro key hkey hmine
      cases c with
      | none => cases hmine
      | some a => exact hpair a rfl key hmine hkey
    exact ⟨fun key hkey => hbeside.locks key (hd.1 key hkey) (hapart key hkey),
      hd.2.beside hbeside hapart⟩
  apart := by
    intro d hd hpair a ha key hkey hother
    rcases (hheld a ha key hkey).2 with hmine | hfree
    · cases c with
      | none => cases hmine
      | some b => exact hpair b rfl key hmine hother
    · exact hfree (hd.1 key hother)

/-- A request that reads, and goes on with the locks that it has. -/
theorem reads {a b : ProCall} {m : ℕ} (hsound : s.Sound) (hlocks : ∀ key ∈ a.held hashtext, key ∈ s.locks)
    (hheld : b.held hashtext = a.held hashtext) (hknows : b.Knows hashtext s) :
    (proInv hashtext).Kept s (some a) m s (some b) := by
  refine move hsound (.refl s) ?_ ?_
  · intro b' hb key hkey
    obtain rfl := Option.some.inj hb
    rw [hheld] at hkey
    exact ⟨hlocks key hkey, .inl hkey⟩
  · intro b' hb
    obtain rfl := Option.some.inj hb
    exact hknows

/-- A request that has no locks ends. -/
theorem stops {a : ProCall} {m : ℕ} (hsound : s.Sound) :
    (proInv hashtext).Kept s (some a) m s none :=
  move hsound (.refl s) (by simp) (by simp)

/-- A transaction that ends without a write, and what its request goes on with. -/
theorem rollsBack {a : ProCall} {m : ℕ} {held : List ℤ} (hsound : s.Sound)
    (hheld : a.held hashtext = held) (hnext : ∀ b ∈ c', b.held hashtext = [])
    (hknows : ∀ b ∈ c', b.Knows hashtext s) :
    (proInv hashtext).Kept s (some a) m (s.unlock held) c' := by
  have hbeside : s.Beside hashtext held (s.unlock held) := .unlock s held
  refine move (hsound.unlock held) ?_ ?_ ?_
  · rwa [← hheld] at hbeside ⊢
  · intro b hb key hkey
    rw [hnext b hb] at hkey
    cases hkey
  · intro b hb
    exact (hknows b hb).beside hbeside fun key hkey => by
      rw [hnext b hb] at hkey
      cases hkey

/-- A lock is taken. -/
theorem locks {a b : ProCall} {m : ℕ} {key : ℤ} {held : List ℤ} (hsound : s.Sound)
    (hlocks : ∀ key ∈ a.held hashtext, key ∈ s.locks) (hheld : a.held hashtext = held)
    (hnext : b.held hashtext = key :: held) (hlock : s.lock held key = some s')
    (hknows : b.Knows hashtext s) : (proInv hashtext).Kept s (some a) m s' (some b) := by
  rw [hheld] at hlocks
  have hmine : heldBy hashtext (some a) = held := hheld
  rcases lock_cases hlock with ⟨rfl, hmem⟩ | ⟨hfree, rfl⟩
  · refine move hsound (.refl s') ?_ ?_
    · intro b' hb key' hkey
      obtain rfl := Option.some.inj hb
      rw [hmine]
      rw [hnext] at hkey
      rcases List.mem_cons.1 hkey with rfl | hkey
      · exact ⟨hlocks _ hmem, .inl hmem⟩
      · exact ⟨hlocks _ hkey, .inl hkey⟩
    · intro b' hb
      obtain rfl := Option.some.inj hb
      exact hknows
  · have hbeside : ∀ keys, s.Beside hashtext keys { s with locks := key :: s.locks } := fun keys =>
      .rows (fun _ hkey _ => List.mem_cons_of_mem _ hkey) (fun _ _ _ h => h) rfl
    refine move ?_ (hbeside _) ?_ ?_
    · exact ⟨⟨hsound.once, hsound.notCrossed, hsound.months, hsound.claimed, hsound.granted,
        hsound.only, hsound.later, hsound.linked⟩, hsound.each, hsound.known⟩
    · intro b' hb key' hkey
      obtain rfl := Option.some.inj hb
      rw [hmine]
      rw [hnext] at hkey
      rcases List.mem_cons.1 hkey with rfl | hkey
      · exact ⟨List.mem_cons_self, .inr hfree⟩
      · exact ⟨List.mem_cons_of_mem _ (hlocks _ hkey), .inl hkey⟩
    · intro b' hb
      obtain rfl := Option.some.inj hb
      exact hknows.beside (hbeside []) fun _ _ => List.not_mem_nil

/-! ### The steps of a claim -/

variable {k : ProChance} {m : ℕ}

theorem claim {userId : ℕ} {code : String} (hfails : k.fails = false) {r}
    (hr : (ProCall.claim userId code).step hashtext k s = some r) :
    (proInv hashtext).Keeps s (some (.claim userId code)) r := by
  intro m hsound _
  simp only [ProCall.step, hfails, Bool.false_eq_true, if_false] at hr
  split at hr
  · obtain rfl := Option.some.inj hr
    exact stops hsound
  split at hr
  · obtain rfl := Option.some.inj hr
    exact stops hsound
  split at hr
  · obtain rfl := Option.some.inj hr
    exact stops hsound
  · next hother =>
    obtain rfl := Option.some.inj hr
    exact reads hsound (fun _ hkey => by cases hkey) rfl fun heq => hother (.inl heq)

theorem findingClaimant {userId inviterId : ℕ} {inviter : ProProfile} (hfails : k.fails = false) {r}
    (hr : (ProCall.findingClaimant userId inviterId inviter).step hashtext k s = some r) :
    (proInv hashtext).Keeps s (some (.findingClaimant userId inviterId inviter)) r := by
  intro m hsound hmine
  have hne : inviterId ≠ userId := (hmine _ rfl).2
  simp only [ProCall.step, hfails, Bool.false_eq_true, if_false] at hr
  split at hr
  · obtain rfl := Option.some.inj hr
    exact stops hsound
  split at hr
  · obtain rfl := Option.some.inj hr
    exact stops hsound
  · obtain rfl := Option.some.inj hr
    refine reads hsound (fun _ hkey => by cases hkey) rfl ⟨hne, .inl ?_, .inl ?_⟩
    · rcases le_total inviterId userId with hle | hle <;> simp [hle]
    · rcases le_total inviterId userId with hle | hle <;> simp [hle]

theorem locking {t : ProClaim} {rest : List ℕ} (hfails : k.fails = false) {r}
    (hr : (ProCall.locking t rest).step hashtext k s = some r) :
    (proInv hashtext).Keeps s (some (.locking t rest)) r := by
  intro m hsound hmine
  obtain ⟨hlocks, hne, hinviter, hinvited⟩ := hmine _ rfl
  cases rest with
  | nil =>
    simp only [ProCall.step, hfails, Bool.false_eq_true, if_false] at hr
    obtain rfl := Option.some.inj hr
    exact reads hsound hlocks rfl
      ⟨hne, hinviter.resolve_left List.not_mem_nil, hinvited.resolve_left List.not_mem_nil⟩
  | cons userId rest =>
    simp only [ProCall.step, hfails, Bool.false_eq_true, if_false] at hr
    obtain ⟨s', hlock, rfl⟩ := Option.map_eq_some_iff.1 hr
    have hnext : ∀ {u}, u ∈ userId :: rest ∨ hashtext u ∈ t.held →
        u ∈ rest ∨ hashtext u ∈ hashtext userId :: t.held := by
      rintro u (hu | hheld)
      · rcases List.mem_cons.1 hu with rfl | hrest
        · exact .inr List.mem_cons_self
        · exact .inl hrest
      · exact .inr (List.mem_cons_of_mem _ hheld)
    exact locks hsound hlocks rfl rfl hlock ⟨hne, hnext hinviter, hnext hinvited⟩

theorem crossing {t : ProClaim} (hfails : k.fails = false) {r}
    (hr : (ProCall.crossing t).step hashtext k s = some r) :
    (proInv hashtext).Keeps s (some (.crossing t)) r := by
  intro m hsound hmine
  obtain ⟨hlocks, hboth⟩ := hmine _ rfl
  simp only [ProCall.step, hfails, Bool.false_eq_true, if_false] at hr
  split at hr
  · obtain rfl := Option.some.inj hr
    exact rollsBack hsound rfl (by simp) (by simp)
  · next hnone =>
    obtain rfl := Option.some.inj hr
    refine reads hsound hlocks rfl ⟨hboth, fun i r hr hcross => hnone ?_⟩
    exact Table.any_eq_true.2 ⟨i, r, hr, by simp [hcross.1, hcross.2]⟩

theorem earning {t : ProClaim} (hfails : k.fails = false) {r}
    (hr : (ProCall.earning t).step hashtext k s = some r) :
    (proInv hashtext).Keeps s (some (.earning t)) r := by
  intro m hsound hmine
  obtain ⟨hlocks, hboth, hcrossed⟩ := hmine _ rfl
  simp only [ProCall.step, hfails, Bool.false_eq_true, if_false] at hr
  split at hr
  · obtain rfl := Option.some.inj hr
    exact rollsBack hsound rfl (by simp) (by simp)
  · next hroom =>
    obtain rfl := Option.some.inj hr
    exact reads hsound hlocks rfl ⟨hboth, hcrossed, not_lt.1 hroom⟩

theorem creating {t : ProClaim} (hfails : k.fails = false) {r}
    (hr : (ProCall.creating t).step hashtext k s = some r) :
    (proInv hashtext).Keeps s (some (.creating t)) r := by
  intro m hsound hmine
  obtain ⟨hlocks, hboth, hcrossed, hroom⟩ := hmine _ rfl
  simp only [ProCall.step, hfails, Bool.false_eq_true, if_false] at hr
  split at hr
  · obtain rfl := Option.some.inj hr
    exact rollsBack hsound rfl (by simp) (by simp)
  · next hnone =>
    obtain rfl := Option.some.inj hr
    refine reads hsound hlocks rfl ⟨hboth, hcrossed, hroom, fun i r hr hinvited => hnone ?_⟩
    exact Table.any_eq_true.2 ⟨i, r, hr, by simp [hinvited]⟩

theorem granting {t : ProClaim} (hfails : k.fails = false) {r}
    (hr : (ProCall.granting t).step hashtext k s = some r) :
    (proInv hashtext).Keeps s (some (.granting t)) r := by
  intro m hsound hmine
  obtain ⟨hlocks, hboth, hcrossed, hroom, hfresh⟩ := hmine _ rfl
  simp only [ProCall.step, hfails, Bool.false_eq_true, if_false] at hr
  split at hr
  · obtain rfl := Option.some.inj hr
    exact rollsBack hsound rfl (by simp) (by simp)
  · next u hu =>
    obtain rfl := Option.some.inj hr
    refine reads hsound hlocks rfl ⟨hboth, hcrossed, hroom, hfresh, u.proUntil, ?_, rfl⟩
    rw [proUntilOf, hu, Option.map_some]

/-- A commit, after which the request has no locks. -/
theorem commits {a b : ProCall} (hsound : s'.Sound)
    (hbeside : s.Beside hashtext (a.held hashtext) s') (hheld : b.held hashtext = [])
    (hknows : b.Knows hashtext s') :
    (proInv hashtext).Kept s (some a) m (s'.unlock (a.held hashtext)) (some b) := by
  refine move (hsound.unlock _) hbeside.thenUnlock ?_ ?_
  · intro b' hb key hkey
    obtain rfl := Option.some.inj hb
    rw [hheld] at hkey
    cases hkey
  · intro b' hb
    obtain rfl := Option.some.inj hb
    exact hknows.beside (.unlock s' _) fun key hkey => by
      rw [hheld] at hkey
      cases hkey

theorem committing {t : ProClaim} {proUntil : ℤ} (hfails : k.fails = false) {r}
    (hr : (ProCall.committing t proUntil).step hashtext k s = some r) :
    (proInv hashtext).Keeps s (some (.committing t proUntil)) r := by
  intro m hsound hmine
  obtain ⟨-, hboth, hcrossed, hroom, hfresh, hextends⟩ := hmine _ rfl
  simp only [ProCall.step, hfails, Bool.false_eq_true, if_false] at hr
  obtain rfl := Option.some.inj hr
  exact commits (hsound.claim hboth hcrossed hroom hfresh hextends) (.claim hboth proUntil) rfl
    trivial

/-! ### The steps of a release -/

theorem finding {inviterUserId : ℕ} (hfails : k.fails = false) {r}
    (hr : (ProCall.finding inviterUserId).step hashtext k s = some r) :
    (proInv hashtext).Keeps s (some (.finding inviterUserId)) r := by
  intro m hsound _
  simp only [ProCall.step, hfails, Bool.false_eq_true, if_false] at hr
  obtain rfl := Option.some.inj hr
  refine reads hsound (fun _ hkey => by cases hkey) rfl ?_
  intro p hp
  obtain ⟨hrow, hmatch⟩ := Table.mem_filter.1 hp
  simp only [Bool.and_eq_true, beq_iff_eq] at hmatch
  exact ⟨p.2, hrow, hmatch.1, rfl⟩

theorem releasing {inviterUserId : ℕ} {now : ℤ} {pending : List (ℕ × ProReferral)}
    (hfails : k.fails = false) {r}
    (hr : (ProCall.releasing inviterUserId now pending).step hashtext k s = some r) :
    (proInv hashtext).Keeps s (some (.releasing inviterUserId now pending)) r := by
  intro m hsound hmine
  have hrefers : ProRelease.RefersAll s inviterUserId pending := (hmine _ rfl).2
  cases pending with
  | nil =>
    simp only [ProCall.step, hfails, Bool.false_eq_true, if_false] at hr
    obtain rfl := Option.some.inj hr
    exact stops hsound
  | cons p rest =>
    obtain ⟨id, row⟩ := p
    have hrest : ProRelease.RefersAll s inviterUserId rest := fun p hp =>
      hrefers p (List.mem_cons_of_mem _ hp)
    simp only [ProCall.step, hfails, Bool.false_eq_true, if_false] at hr
    split at hr
    · obtain rfl := Option.some.inj hr
      exact reads hsound (fun _ hkey => by cases hkey) rfl
        ⟨hrefers (id, row) List.mem_cons_self, hrest⟩
    · obtain rfl := Option.some.inj hr
      exact reads hsound (fun _ hkey => by cases hkey) rfl hrest

theorem lockingInviter {t : ProRelease} (hfails : k.fails = false) {r}
    (hr : (ProCall.lockingInviter t).step hashtext k s = some r) :
    (proInv hashtext).Keeps s (some (.lockingInviter t)) r := by
  intro m hsound hmine
  obtain ⟨hlocks, hrefers⟩ := hmine _ rfl
  simp only [ProCall.step, hfails, Bool.false_eq_true, if_false] at hr
  obtain ⟨s', hlock, rfl⟩ := Option.map_eq_some_iff.1 hr
  exact locks hsound hlocks rfl rfl hlock hrefers

theorem claiming {t : ProRelease} (hfails : k.fails = false) {r}
    (hr : (ProCall.claiming t).step hashtext k s = some r) :
    (proInv hashtext).Keeps s (some (.claiming t)) r := by
  intro m hsound hmine
  obtain ⟨hlocks, ⟨row, hrow, hinviter, hmonths⟩, hrest⟩ := hmine _ rfl
  simp only [ProCall.step, hfails, Bool.false_eq_true, if_false] at hr
  split at hr
  · next hnone =>
    obtain rfl := Option.some.inj hr
    rw [hrow, Option.any_some, Option.isNone_iff_eq_none] at hnone
    exact reads hsound hlocks rfl ⟨⟨row, hrow, hinviter, hmonths, hnone⟩, hrest⟩
  · obtain rfl := Option.some.inj hr
    refine rollsBack hsound rfl ?_ ?_
    · intro b hb
      obtain rfl := Option.some.inj hb
      rfl
    · intro b hb
      obtain rfl := Option.some.inj hb
      exact hrest

theorem reading {t : ProRelease} (hfails : k.fails = false) {r}
    (hr : (ProCall.reading t).step hashtext k s = some r) :
    (proInv hashtext).Keeps s (some (.reading t)) r := by
  intro m hsound hmine
  obtain ⟨hlocks, hpending, hrest⟩ := hmine _ rfl
  simp only [ProCall.step, hfails, Bool.false_eq_true, if_false] at hr
  split at hr
  · obtain rfl := Option.some.inj hr
    exact rollsBack hsound rfl (by simp) (by simp)
  · next u hu =>
    obtain rfl := Option.some.inj hr
    refine reads hsound hlocks rfl ⟨hpending, hrest, u.proUntil, ?_, rfl⟩
    rw [proUntilOf, hu, Option.map_some]

theorem granted {t : ProRelease} {proUntil : ℤ} (hfails : k.fails = false) {r}
    (hr : (ProCall.granted t proUntil).step hashtext k s = some r) :
    (proInv hashtext).Keeps s (some (.granted t proUntil)) r := by
  intro m hsound hmine
  obtain ⟨-, hpending, hrest, hextends⟩ := hmine _ rfl
  simp only [ProCall.step, hfails, Bool.false_eq_true, if_false] at hr
  obtain rfl := Option.some.inj hr
  have hbeside : s.Beside hashtext [hashtext t.inviterUserId]
      ((s.grant t.id t.now).extend t.inviterUserId t.id .granted proUntil) :=
    .grant hpending proUntil
  refine commits (a := .granted t proUntil) (b := .releasing t.inviterUserId t.now t.rest)
    (hsound.grant hpending hextends) hbeside rfl ?_
  intro p hp
  obtain ⟨row, hrow, hinviter, hmonths⟩ := hrest p hp
  obtain ⟨row', hrow', hinviter', hmonths', -⟩ := hbeside.kept p.1 row hrow
  exact ⟨row', hrow', hinviter'.trans hinviter, hmonths'.trans hmonths⟩

/-! ### Any step -/

theorem step {a : ProCall} {r} (hr : a.step hashtext k s = some r) :
    (proInv hashtext).Keeps s (some a) r := by
  cases hfails : k.fails with
  | true =>
    intro m hsound _
    simp only [ProCall.step, hfails, if_true] at hr
    obtain rfl := Option.some.inj hr
    exact rollsBack hsound rfl (by simp) (by simp)
  | false =>
    cases a with
    | claim userId code => exact claim hfails hr
    | findingClaimant userId inviterId inviter => exact findingClaimant hfails hr
    | locking t rest => exact locking hfails hr
    | crossing t => exact crossing hfails hr
    | earning t => exact earning hfails hr
    | creating t => exact creating hfails hr
    | granting t => exact granting hfails hr
    | committing t proUntil => exact committing hfails hr
    | finding inviterUserId => exact finding hfails hr
    | releasing inviterUserId now pending => exact releasing hfails hr
    | lockingInviter t => exact lockingInviter hfails hr
    | claiming t => exact claiming hfails hr
    | reading t => exact reading hfails hr
    | granted t proUntil => exact granted hfails hr

end ProKept

namespace ProBooks

theorem linked_of_users {users : Table ProAccount} (h : s.Sound)
    (hold : ∀ u a, users.get? u = some a →
      (∃ a₀, s.users.get? u = some a₀ ∧ a₀.proUntil = a.proUntil) ∨ s.users.get? u = none)
    (hstill : ∀ u a, s.users.get? u = some a → ∃ a', users.get? u = some a') :
    ({ s with users := users } : ProBooks).Sound := by
  refine ⟨⟨h.once, h.notCrossed, h.months, h.claimed, h.granted, h.only, h.later, ?_⟩, h.each, ?_⟩
  · intro u a ha
    rcases hold u a ha with ⟨a₀, ha₀, hsame⟩ | hnone
    · rw [← hsame]
      exact h.linked u a₀ ha₀
    · have hempty : (s.extensions.filter fun e => e.userId == u) = [] := by
        rw [List.filter_eq_nil_iff]
        intro e he hmatch
        obtain ⟨a', ha'⟩ := h.known e he
        rw [eq_of_beq hmatch, hnone] at ha'
        cases ha'
      show Linked (s.extensions.filter fun e => e.userId == u) a.proUntil
      rw [hempty]
      trivial
  · intro e he
    obtain ⟨a, ha⟩ := h.known e he
    exact hstill e.userId a ha

end ProBooks

theorem ProKept.event {e : ProEvent} {r} (hr : e.step s = some r) :
    (proInv hashtext).Keeps s none r := by
  intro m hsound _
  cases e with
  | create profile =>
    obtain rfl := Option.some.inj hr
    refine ProKept.move (ProBooks.linked_of_users hsound ?_ ?_) (.rows (fun _ h _ => h) ?_ rfl)
      (by simp) (by simp)
    · intro u a ha
      rcases Table.get?_insert_cases ha with ⟨rfl, -⟩ | hold
      · exact .inr (Table.get?_next _)
      · exact .inl ⟨a, hold, rfl⟩
    · intro u a ha
      exact ⟨a, Table.get?_insert_of_some _ ha⟩
    · intro u x _ hx
      obtain ⟨a, ha, rfl⟩ := Option.map_eq_some_iff.1 hx
      rw [ProBooks.proUntilOf, Table.get?_insert_of_some _ ha, Option.map_some]
  | update userId profile =>
    obtain rfl := Option.some.inj hr
    refine ProKept.move (ProBooks.linked_of_users hsound ?_ ?_) (.rows (fun _ h _ => h) ?_ rfl)
      (by simp) (by simp)
    · intro u a ha
      rw [Table.get?_modify] at ha
      split at ha
      · obtain ⟨a₀, ha₀, rfl⟩ := Option.map_eq_some_iff.1 ha
        exact .inl ⟨a₀, ha₀, rfl⟩
      · exact .inl ⟨a, ha, rfl⟩
    · intro u a ha
      rw [Table.get?_modify, ha]
      split
      · exact ⟨_, rfl⟩
      · exact ⟨_, rfl⟩
    · intro u x _ hx
      obtain ⟨a, ha, rfl⟩ := Option.map_eq_some_iff.1 hx
      rw [ProBooks.proUntilOf, Table.get?_modify, ha]
      split
      · rfl
      · rfl
  | claim userId code =>
    obtain rfl := Option.some.inj hr
    exact ProKept.move hsound (.refl s) (by simp [ProCall.held]) (by simp [ProCall.Knows])
  | releaseInviterMonths inviterUserId =>
    obtain rfl := Option.some.inj hr
    exact ProKept.move hsound (.refl s) (by simp [ProCall.held]) (by simp [ProCall.Knows])

end Steps

/-! ## Runs -/

theorem ProBooks.sound_initial (users : Table ProAccount) : (ProBooks.initial users).Sound where
  once _ _ _ _ hr := by cases hr
  notCrossed _ _ _ _ hr := by cases hr
  months _ := Nat.zero_le _
  claimed _ _ hr := by cases hr
  granted _ _ hr := by cases hr
  only _ he := by cases he
  later _ he := by cases he
  linked _ _ _ := trivial
  each _ _ hr := by cases hr
  known _ he := by cases he

theorem pro_months {hashtext : ℕ → ℤ} {users : Table ProAccount}
    {moves : List (Move ProEvent ProChance)} {x : Calls ProBooks ProCall}
    (hrun : (proReferrals hashtext).machine.run (.idle (.initial users)) moves = some x) :
    x.shared.Lawful := by
  have hidle : (proInv hashtext).Holds (.idle (.initial users)) :=
    CallInv.holds_idle (ProBooks.sound_initial users)
  have hx : (proInv hashtext).Holds x := by
    refine Machine.run_inv _ (I := (proInv hashtext).Holds) ?_ hidle hrun
    intro y move y' hy hmove
    cases move with
    | event e =>
      obtain ⟨s, c, he, rfl⟩ := CallSystem.machine_event.1 hmove
      exact hy.begin (ProKept.event he)
    | step i k =>
      obtain ⟨c, s, c', hi, hs, rfl⟩ := CallSystem.machine_step.1 hmove
      exact hy.step hi (ProKept.step hs)
  exact hx.whole.toLawful

/-- An account of a professional, with a code. -/
def proAccount (code : String) : ProAccount where
  phone := none
  idDocNumber := none
  createdAt := 0
  professional := true
  proReferralCode := some code
  proUntil := none

/-- Two professionals. -/
def twoProfessionals : Table ProAccount :=
  ((Table.empty : Table ProAccount).insert (proAccount "AAAAAAAA")).insert (proAccount "BBBBBBBB")

/-- The next steps of a request. -/
def proSteps (i n : ℕ) : List (Move ProEvent ProChance) := List.replicate n (.step i {})

/-- Each claims the code of the other; the one that is behind finds that they have referred each
other. Then the inviter's month is released, by one of two that look at the status at once. -/
def claimedAcross : List (Move ProEvent ProChance) :=
  [.event (.claim 2 "AAAAAAAA"), .event (.claim 1 "BBBBBBBB")] ++ proSteps 2 2 ++ proSteps 1 4 ++
    proSteps 1 7 ++ proSteps 2 4 ++
    [.event (.releaseInviterMonths 1), .event (.releaseInviterMonths 1)] ++ proSteps 3 3 ++ proSteps 4 2 ++ proSteps 3 3 ++ proSteps 4 2

theorem claimed_across : ∃ x,
    (proReferrals fun u => u).machine.run (.idle (.initial twoProfessionals)) claimedAcross = some x ∧
    x.shared.extensions.map (fun e => (e.userId, e.reason)) = [(1, .granted), (2, .claimed)] ∧
    x.shared.Lawful := by
  have hsome : ((proReferrals fun u => u).machine.run (.idle (.initial twoProfessionals))
      claimedAcross).any (fun x => x.shared.extensions.map (fun e => (e.userId, e.reason)) ==
        [(1, .granted), (2, .claimed)]) = true := by
    decide +kernel
  obtain ⟨x, hrun, hout⟩ := (Option.any_eq_true _ _).1 hsome
  exact ⟨x, hrun, eq_of_beq hout, pro_months hrun⟩

end Barbershop
