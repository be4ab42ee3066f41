import Barbershop.Account.Social
import Barbershop.Lib.Guard

/-!
# A social identity opens its own account

The links of one kind of account are kept apart by the tables (`SocialBooks.Distinct`). Over that,
two facts last: that an id at a provider is stored on an account (`SocialBooks.Stored`), until the
provider is unlinked; and that an account is closed to a provider (`SocialBooks.Closed`), from when
it is unlinked until it is linked again from inside. What a login can do is said once, in
`SocialChecks.Outcome`.
-/

namespace Barbershop

open Lib

theorem SocialLink.clashes_comm (l l' : SocialLink) : l.clashes l' = l'.clashes l := by
  have hid : (l.providerUserId.isSome && l.providerUserId == l'.providerUserId) =
      (l'.providerUserId.isSome && l'.providerUserId == l.providerUserId) := by
    by_cases h : l.providerUserId = l'.providerUserId
    · rw [h]
    · have h' : l'.providerUserId ≠ l.providerUserId := Ne.symm h
      rw [beq_false_of_ne h, beq_false_of_ne h', Bool.and_false, Bool.and_false]
  simp only [clashes, hid, BEq.comm (a := l.provider), BEq.comm (a := l.account),
    BEq.comm (a := l.providerEmail)]

theorem givenId_eq_some {pid : Option String} {i : String} :
    givenId pid = some i ↔ pid = some i ∧ i ≠ "" := by
  simp [givenId, Option.filter_eq_some_iff]

namespace SocialBooks

variable {s s' : SocialBooks} {account k : ℕ} {provider : String} {l : SocialLink}

/-! ## What the tables keep -/

/-- No two links clash. -/
def Distinct (s : SocialBooks) : Prop :=
  ∀ k j l l', s.links.get? k = some l → s.links.get? j = some l' → l.clashes l' = true → k = j

/-- The id is stored on the account. -/
def Stored (account : ℕ) (provider id : String) (s : SocialBooks) : Prop :=
  ∃ k l, s.links.get? k = some l ∧ l.account = account ∧ l.provider = provider ∧ l.id? = some id

/-- The account has no link at the provider, and says that it was taken away. -/
structure Closed (account : ℕ) (provider : String) (s : SocialBooks) : Prop where
  noted : ∃ a, s.accounts.get? account = some a ∧ provider ∈ a.socialUnlinkedProviders
  apart : ∀ {k l}, s.links.get? k = some l → l.provider = provider → l.account ≠ account

theorem createLink_eq_some : s.createLink l = some s' ↔
    (∀ k l', s.links.get? k = some l' → l'.clashes l = false) ∧
      s' = { s with links := s.links.insert l } := by
  simp only [createLink]
  split_ifs with h
  · simp only [false_iff, not_and]
    intro hfree
    rw [← Table.any_eq_false] at hfree
    rw [hfree] at h
    cases h
  · rw [Bool.not_eq_true, Table.any_eq_false] at h
    rw [Option.some.injEq]
    exact ⟨fun e => ⟨h, e.symm⟩, fun e => e.2.symm⟩

theorem updateLink_eq_some : s.updateLink k l = some s' ↔
    (∀ j l', s.links.get? j = some l' → j ≠ k → l'.clashes l = false) ∧
      s' = { s with links := s.links.modify k fun _ => l } := by
  have hany : (s.links.any fun j l' => j != k && l'.clashes l) = false ↔
      ∀ j l', s.links.get? j = some l' → j ≠ k → l'.clashes l = false := by
    rw [Table.any_eq_false]
    refine forall_congr' fun j => forall_congr' fun l' => forall_congr' fun _ => ?_
    by_cases hj : j = k <;> simp [hj]
  simp only [updateLink]
  split_ifs with h
  · simp only [false_iff, not_and]
    intro hfree
    rw [hany.2 hfree] at h
    cases h
  · rw [Bool.not_eq_true, hany] at h
    rw [Option.some.injEq]
    exact ⟨fun e => ⟨h, e.symm⟩, fun e => e.2.symm⟩

theorem Distinct.createLink (h : s.Distinct) (hs' : s.createLink l = some s') : s'.Distinct := by
  obtain ⟨hfree, rfl⟩ := createLink_eq_some.1 hs'
  intro k j l₁ l₂ h₁ h₂ hclash
  rcases Table.get?_insert_cases h₁ with ⟨rfl, rfl⟩ | h₁'
  · rcases Table.get?_insert_cases h₂ with ⟨rfl, rfl⟩ | h₂'
    · rfl
    · rw [SocialLink.clashes_comm, hfree j l₂ h₂'] at hclash
      cases hclash
  · rcases Table.get?_insert_cases h₂ with ⟨rfl, rfl⟩ | h₂'
    · rw [hfree k l₁ h₁'] at hclash
      cases hclash
    · exact h _ _ _ _ h₁' h₂' hclash

theorem Distinct.updateLink (h : s.Distinct) (hs' : s.updateLink k l = some s') : s'.Distinct := by
  obtain ⟨hfree, rfl⟩ := updateLink_eq_some.1 hs'
  have hread : ∀ {i l'}, (s.links.modify k fun _ => l).get? i = some l' →
      i = k ∧ l' = l ∨ i ≠ k ∧ s.links.get? i = some l' := by
    intro i l' hi
    rw [Table.get?_modify] at hi
    split at hi
    · next hik =>
      obtain ⟨-, -, rfl⟩ := Option.map_eq_some_iff.1 hi
      exact .inl ⟨hik, rfl⟩
    · next hik => exact .inr ⟨hik, hi⟩
  intro i j l₁ l₂ h₁ h₂ hclash
  rcases hread h₁ with ⟨rfl, rfl⟩ | ⟨hi, h₁'⟩
  · rcases hread h₂ with ⟨rfl, rfl⟩ | ⟨hj, h₂'⟩
    · rfl
    · rw [SocialLink.clashes_comm, hfree j l₂ h₂' hj] at hclash
      cases hclash
  · rcases hread h₂ with ⟨rfl, rfl⟩ | ⟨-, h₂'⟩
    · rw [hfree i l₁ h₁' hi] at hclash
      cases hclash
    · exact h _ _ _ _ h₁' h₂' hclash

/-- Two links with one id at a provider are of one account. -/
theorem Distinct.account_eq (h : s.Distinct) {j : ℕ} {l' : SocialLink}
    (hl : s.links.get? k = some l) (hl' : s.links.get? j = some l')
    (hprovider : l.provider = l'.provider) (hid : l.providerUserId = l'.providerUserId)
    (hsome : l.providerUserId.isSome = true) : k = j ∧ l = l' := by
  obtain rfl := h _ _ _ _ hl hl' (by simp [SocialLink.clashes, hprovider, ← hid, hsome])
  rw [hl] at hl'
  exact ⟨rfl, Option.some.inj hl'⟩

/-! ### Writes -/

/-- A link is written over that keeps its account, its provider and an id that it has. -/
structure Revises (l l' : SocialLink) : Prop where
  account : l'.account = l.account
  provider : l'.provider = l.provider
  id : ∀ i, l.id? = some i → l'.id? = some i

theorem Stored.createLink {id : String} (h : s.Stored account provider id)
    (hs' : s.createLink l = some s') : s'.Stored account provider id := by
  obtain ⟨-, rfl⟩ := createLink_eq_some.1 hs'
  obtain ⟨k, l', hl', hfacts⟩ := h
  exact ⟨k, l', Table.get?_insert_of_some _ hl', hfacts⟩

theorem Stored.updateLink {id : String} {l' : SocialLink} (h : s.Stored account provider id)
    (hl : s.links.get? k = some l) (hrevises : Revises l l')
    (hs' : s.updateLink k l' = some s') : s'.Stored account provider id := by
  obtain ⟨-, rfl⟩ := updateLink_eq_some.1 hs'
  obtain ⟨j, l₁, hl₁, haccount, hprovider, hid⟩ := h
  by_cases hj : j = k
  · subst hj
    rw [hl] at hl₁
    obtain rfl := Option.some.inj hl₁
    refine ⟨j, l', ?_, hrevises.account.trans haccount, hrevises.provider.trans hprovider,
      hrevises.id id hid⟩
    simp [hl]
  · exact ⟨j, l₁, by rw [Table.get?_modify_of_ne _ _ hj, hl₁], haccount, hprovider, hid⟩

theorem Closed.createLink (h : s.Closed account provider)
    (hother : ¬(l.account = account ∧ l.provider = provider)) (hs' : s.createLink l = some s') :
    s'.Closed account provider := by
  obtain ⟨-, rfl⟩ := createLink_eq_some.1 hs'
  refine ⟨h.noted, fun hl' hprovider haccount => ?_⟩
  rcases Table.get?_insert_cases hl' with ⟨-, rfl⟩ | hl'
  · exact hother ⟨haccount, hprovider⟩
  · exact h.apart hl' hprovider haccount

theorem Closed.updateLink {l' : SocialLink} (h : s.Closed account provider)
    (hl : s.links.get? k = some l) (hrevises : Revises l l')
    (hs' : s.updateLink k l' = some s') : s'.Closed account provider := by
  obtain ⟨-, rfl⟩ := updateLink_eq_some.1 hs'
  refine ⟨h.noted, fun {j l₁} hl₁ hprovider => ?_⟩
  rw [Table.get?_modify] at hl₁
  split at hl₁
  · obtain ⟨-, -, rfl⟩ := Option.map_eq_some_iff.1 hl₁
    rw [hrevises.account]
    exact h.apart hl (hrevises.provider.symm.trans hprovider)
  · exact h.apart hl₁ hprovider

/-- Accounts are written, and none forgets a provider that was taken away. -/
theorem Closed.accounts (h : s.Closed account provider) {accounts : Table SocialAccount}
    (hkeeps : ∀ a, s.accounts.get? account = some a → provider ∈ a.socialUnlinkedProviders →
      ∃ a', accounts.get? account = some a' ∧ provider ∈ a'.socialUnlinkedProviders) :
    Closed account provider { s with accounts := accounts } := by
  obtain ⟨a, ha, hmem⟩ := h.noted
  exact ⟨hkeeps a ha hmem, h.apart⟩

end SocialBooks

open SocialBooks

/-! ## A login -/

namespace SocialChecks

variable {c : SocialChecks} {who : SocialIdentity} {s : SocialBooks} {ok : Bool}

/-- What a login can do. -/
inductive Outcome (c : SocialChecks) (who : SocialIdentity) (s : SocialBooks) :
    SocialBooks × Except String SocialLogin → Prop
  | unpicked {e} (hpick : c.existingLink who s = .error e) : Outcome c who s (s, .error e)
  | refused {existing e} (hpick : c.existingLink who s = .ok existing) :
      Outcome c who s (completeLink who s existing, .error e)
  /-- By a link. -/
  | opened {k l} (hpick : c.existingLink who s = .ok (some (k, l))) :
      Outcome c who s (completeLink who s (some (k, l)), .ok ⟨l.account, some k⟩)
  /-- By the account's e-mail; the link is made if it can be. -/
  | linked {id account} (hpick : c.existingLink who s = .ok none)
      (haccount : s.accounts.get? id = some account)
      (hlinked : who.provider ∉ account.socialUnlinkedProviders) :
      Outcome c who s ((s.createLink (newLink who id)).getD s, .ok ⟨id, none⟩)
  /-- The account is made, and the link is not. -/
  | unmade {existing e s'} (hpick : c.existingLink who s = .ok existing)
      (hs' : s' = completeLink who s existing) :
      Outcome c who s ({ s' with accounts := s'.accounts.insert ⟨who.email, true, []⟩ }, .error e)
  | made {existing s' linked} (hpick : c.existingLink who s = .ok existing)
      (hs' : s' = completeLink who s existing)
      (hlinked : SocialBooks.createLink { s' with accounts := s'.accounts.insert ⟨who.email, true, []⟩ }
        (newLink who s'.accounts.next) = some linked) :
      Outcome c who s (linked, .ok ⟨s'.accounts.next, none⟩)

theorem findOrCreate_outcome (c : SocialChecks) (who : SocialIdentity) (s : SocialBooks) (ok : Bool) :
    c.Outcome who s (c.findOrCreate who s ok) := by
  unfold findOrCreate
  split
  · next hpick => exact .unpicked hpick
  next existing hpick =>
  dsimp only
  split
  · next id account hfound =>
    split
    · exact .refused hpick
    split
    · exact .refused hpick
    next hunlinked =>
    cases existing with
    | some r =>
      obtain ⟨k, l⟩ := r
      obtain ⟨a, -, hpair⟩ := Option.map_eq_some_iff.1 hfound
      obtain ⟨rfl, -⟩ := Prod.mk.inj hpair
      exact .opened hpick
    | none =>
      have hrow : s.accounts.find? (fun _ a => c.same a.email who.email) = some (id, account) := hfound
      exact .linked hpick (Table.find?_some hrow).1 fun hmem => hunlinked ⟨rfl, hmem⟩
  · split_ifs
    · exact .refused hpick
    · split
      · exact .unmade hpick rfl
      · next hlinked => exact .made hpick rfl hlinked

/-- A link that was found is one of the provider, and has no id or the one that was asked for. -/
theorem existingLink_some {k : ℕ} {l : SocialLink}
    (hpick : c.existingLink who s = .ok (some (k, l))) :
    s.links.get? k = some l ∧ l.provider = who.provider ∧
      ∀ i, givenId who.providerUserId = some i → l.id? = none ∨ l.id? = some i := by
  unfold existingLink at hpick
  cases hbyId : (givenId who.providerUserId).bind (s.linkById who.provider) with
  | some r =>
    rw [hbyId] at hpick
    obtain rfl : r = (k, l) := by simpa [pickSocialLink] using hpick
    obtain ⟨i, hi, hfound⟩ := Option.bind_eq_some_iff.1 hbyId
    obtain ⟨hl, hrow⟩ := Table.find?_some hfound
    simp only [Bool.and_eq_true, beq_iff_eq] at hrow
    refine ⟨hl, hrow.1, fun j hj => .inr ?_⟩
    rw [hi] at hj
    obtain rfl := Option.some.inj hj
    rw [SocialLink.id?, hrow.2]
    exact givenId_eq_some.2 ⟨rfl, (givenId_eq_some.1 hi).2⟩
  | none =>
    rw [hbyId] at hpick
    simp only [Option.isSome_none, Bool.false_eq_true, if_false] at hpick
    cases hbyEmail : s.linkByEmail c.same who.provider who.email with
    | none =>
      rw [hbyEmail] at hpick
      simp [pickSocialLink] at hpick
    | some r =>
      rw [hbyEmail] at hpick
      simp only [pickSocialLink] at hpick
      split_ifs at hpick with hanother
      obtain rfl : r = (k, l) := by simpa using hpick
      obtain ⟨hl, hrow⟩ := Table.find?_some hbyEmail
      simp only [Bool.and_eq_true, beq_iff_eq] at hrow
      refine ⟨hl, hrow.1, fun i hi => ?_⟩
      cases hid : l.id? with
      | none => exact .inl rfl
      | some j =>
        right
        have hsame : l.providerUserId = who.providerUserId := by
          by_contra hne
          exact hanother ⟨by rw [hid]; rfl, by rw [hi]; rfl, hne⟩
        rw [SocialLink.id?, hsame, hi] at hid
        exact hid.symm

/-- An id that is stored is found by. -/
theorem existingLink_stored {account : ℕ} {i : String} (hs : s.Distinct)
    (hstored : s.Stored account who.provider i) (hi : givenId who.providerUserId = some i) :
    ∃ k l, c.existingLink who s = .ok (some (k, l)) ∧ l.account = account ∧ l.id? = some i := by
  obtain ⟨k, l, hl, haccount, hprovider, hid⟩ := hstored
  have hraw := (givenId_eq_some.1 hid).1
  cases hfound : s.linkById who.provider i with
  | none =>
    have hnone := Table.find?_none.1 hfound k l hl
    simp [hprovider, hraw] at hnone
  | some r =>
    obtain ⟨hr, hrow⟩ := Table.find?_some hfound
    simp only [Bool.and_eq_true, beq_iff_eq] at hrow
    obtain ⟨-, hsame⟩ := hs.account_eq hl hr (hprovider.trans hrow.1.symm)
      (hraw.trans hrow.2.symm) (by rw [hraw]; rfl)
    refine ⟨r.1, r.2, ?_, hsame ▸ haccount, hsame ▸ hid⟩
    simp [existingLink, hi, hfound, pickSocialLink]

/-- A login completes a link or leaves it. -/
theorem completeLink_cases (existing : Option (ℕ × SocialLink))
    (hread : ∀ r ∈ existing, s.links.get? r.1 = some r.2) :
    completeLink who s existing = s ∨
      ∃ k l l', s.links.get? k = some l ∧ Revises l l' ∧
        s.updateLink k l' = some (completeLink who s existing) := by
  cases existing with
  | none => exact .inl rfl
  | some r =>
    obtain ⟨k, l⟩ := r
    simp only [completeLink]
    split_ifs with hmissing
    · cases hup : s.updateLink k { l with providerUserId := who.providerUserId } with
      | none => exact .inl rfl
      | some s' =>
        refine .inr ⟨k, l, { l with providerUserId := who.providerUserId }, hread (k, l) rfl,
          ⟨rfl, rfl, fun i hi => ?_⟩, hup⟩
        rw [hmissing.2] at hi
        cases hi
    · exact .inl rfl

/-- What every write of a link keeps, a login that finds a link keeps. -/
theorem completeLink_inv {I : SocialBooks → Prop} {existing : Option (ℕ × SocialLink)}
    (hpick : c.existingLink who s = .ok existing) (h : I s)
    (hupdate : ∀ {k l l' s'}, s.links.get? k = some l → Revises l l' →
      s.updateLink k l' = some s' → I s') : I (completeLink who s existing) := by
  have hread : ∀ r ∈ existing, s.links.get? r.1 = some r.2 := by
    intro r hr
    rw [hr] at hpick
    exact (existingLink_some hpick).1
  rcases completeLink_cases existing hread with hsame | ⟨k, l, l', hl, hrevises, hup⟩
  · rw [hsame]
    exact h
  · exact hupdate hl hrevises hup

theorem completeLink_accounts (existing : Option (ℕ × SocialLink)) :
    (completeLink who s existing).accounts = s.accounts := by
  cases existing with
  | none => rfl
  | some r =>
    obtain ⟨k, l⟩ := r
    simp only [completeLink]
    split_ifs
    · cases hup : s.updateLink k { l with providerUserId := who.providerUserId } with
      | none => rfl
      | some s' =>
        obtain ⟨-, rfl⟩ := updateLink_eq_some.1 hup
        rfl
    · rfl

/-! ### What a login keeps -/

theorem getD_createLink_inv {I : SocialBooks → Prop} {l : SocialLink} (h : I s)
    (hcreate : ∀ {s'}, s.createLink l = some s' → I s') : I ((s.createLink l).getD s) := by
  cases hs' : s.createLink l with
  | none => exact h
  | some s' => exact hcreate hs'

/-- The account that a login makes. -/
def create (who : SocialIdentity) (s : SocialBooks) : SocialBooks :=
  { s with accounts := s.accounts.insert ⟨who.email, true, []⟩ }

theorem findOrCreate_inv {I : SocialBooks → Prop} (h : I s)
    (hupdate : ∀ {k l l' s'}, s.links.get? k = some l → Revises l l' →
      s.updateLink k l' = some s' → I s')
    (hlink : ∀ {id account s'}, s.accounts.get? id = some account →
      who.provider ∉ account.socialUnlinkedProviders → s.createLink (newLink who id) = some s' → I s')
    (hcreate : ∀ {s'}, I s' → s'.accounts = s.accounts → I (create who s') ∧
      ∀ s'', (create who s').createLink (newLink who s'.accounts.next) = some s'' → I s'') :
    I (c.findOrCreate who s ok).1 := by
  have hcomplete : ∀ {existing}, c.existingLink who s = .ok existing →
      I (completeLink who s existing) :=
    fun hpick => completeLink_inv hpick h hupdate
  have houtcome := c.findOrCreate_outcome who s ok
  generalize c.findOrCreate who s ok = r at houtcome ⊢
  cases houtcome with
  | unpicked => exact h
  | refused hpick => exact hcomplete hpick
  | opened hpick => exact hcomplete hpick
  | linked hpick haccount hlinked => exact getD_createLink_inv h (hlink haccount hlinked)
  | unmade hpick hs' =>
    subst hs'
    exact (hcreate (hcomplete hpick) (completeLink_accounts _)).1
  | made hpick hs' hlinked =>
    subst hs'
    exact (hcreate (hcomplete hpick) (completeLink_accounts _)).2 _ hlinked

theorem distinct_findOrCreate (h : s.Distinct) : (c.findOrCreate who s ok).1.Distinct := by
  apply c.findOrCreate_inv (I := SocialBooks.Distinct) h
  · exact fun _ _ hup => h.updateLink hup
  · exact fun _ _ hs' => h.createLink hs'
  · intro s' hs' _
    have hcreated : (create who s').Distinct := hs'
    exact ⟨hcreated, fun _ hlinked => hcreated.createLink hlinked⟩

theorem stored_findOrCreate {account : ℕ} {provider i : String}
    (h : s.Stored account provider i) : (c.findOrCreate who s ok).1.Stored account provider i := by
  apply c.findOrCreate_inv (I := SocialBooks.Stored account provider i) h
  · exact fun hl hrevises hup => h.updateLink hl hrevises hup
  · exact fun _ _ hs' => h.createLink hs'
  · intro s' hs' _
    have hcreated : (create who s').Stored account provider i := hs'
    exact ⟨hcreated, fun _ hlinked => hcreated.createLink hlinked⟩

theorem closed_findOrCreate {account : ℕ} {provider : String} (h : s.Closed account provider) :
    (c.findOrCreate who s ok).1.Closed account provider := by
  apply c.findOrCreate_inv (I := SocialBooks.Closed account provider) h
  · exact fun hl hrevises hup => h.updateLink hl hrevises hup
  · intro id a s' ha hlinked hs'
    refine h.createLink (fun hsame => ?_) hs'
    obtain ⟨rfl, rfl⟩ := hsame
    obtain ⟨b, hb, hmem⟩ := h.noted
    rw [newLink, ha] at hb
    obtain rfl := Option.some.inj hb
    exact hlinked hmem
  · intro s' hs' _
    have hcreated : (create who s').Closed account provider :=
      hs'.accounts fun a ha hmem => ⟨a, Table.get?_insert_of_some _ ha, hmem⟩
    refine ⟨hcreated, fun _ hlinked => hcreated.createLink (fun hsame => ?_) hlinked⟩
    obtain ⟨a, ha, -⟩ := hs'.noted
    have hlt := Table.lt_next_of_get? ha
    have heq : s'.accounts.next = account := hsame.1
    omega

/-! ### What a login opens -/

/-- A login with an id that is stored opens the account that it is stored on. -/
theorem findOrCreate_stored {account : ℕ} {i : String} (hs : s.Distinct)
    (hstored : s.Stored account who.provider i) (hi : givenId who.providerUserId = some i)
    {o : SocialLogin} (ho : (c.findOrCreate who s ok).2 = .ok o) : o.account = account := by
  obtain ⟨k, l, hfound, haccount, hid⟩ := c.existingLink_stored hs hstored hi
  have houtcome := c.findOrCreate_outcome who s ok
  generalize c.findOrCreate who s ok = r at houtcome ho
  cases houtcome with
  | unpicked hpick => cases ho
  | refused hpick => cases ho
  | unmade hpick hs' => cases ho
  | opened hpick =>
    rw [hfound] at hpick
    obtain ⟨rfl, rfl⟩ := Prod.mk.inj (Option.some.inj (Except.ok.inj hpick))
    obtain rfl := Except.ok.inj ho
    exact haccount
  | linked hpick haccount hlinked =>
    rw [hfound] at hpick
    cases hpick
  | made hpick hs' hlinked =>
    -- the account that is made cannot have the link
    rw [hfound] at hpick
    obtain rfl := Except.ok.inj hpick
    subst hs'
    have hkept : completeLink who s (some (k, l)) = s := by simp [completeLink, hid]
    rw [hkept] at hlinked
    obtain ⟨hfree, -⟩ := createLink_eq_some.1 hlinked
    obtain ⟨hl, hprovider, -⟩ := existingLink_some hfound
    have hclash := hfree k l hl
    have hraw := (givenId_eq_some.1 hid).1
    have hraw' := (givenId_eq_some.1 hi).1
    simp [SocialLink.clashes, newLink, hprovider, hraw, hraw'] at hclash

/-- The link that a login is opened by has no other id. -/
theorem findOrCreate_link {k : ℕ} {l : SocialLink} {i : String}
    (hl : s.links.get? k = some l) (hi : givenId who.providerUserId = some i) {o : SocialLogin}
    (ho : (c.findOrCreate who s ok).2 = .ok o) (hk : o.link = some k) :
    l.provider = who.provider ∧ (l.id? = none ∨ l.id? = some i) := by
  have houtcome := c.findOrCreate_outcome who s ok
  generalize c.findOrCreate who s ok = r at houtcome ho
  cases houtcome with
  | unpicked hpick => cases ho
  | refused hpick => cases ho
  | unmade hpick hs' => cases ho
  | opened hpick =>
    obtain rfl := Except.ok.inj ho
    obtain rfl := Option.some.inj hk
    obtain ⟨hl', hprovider, hid⟩ := existingLink_some hpick
    rw [hl] at hl'
    obtain rfl := Option.some.inj hl'
    exact ⟨hprovider, hid i hi⟩
  | linked hpick haccount hlinked =>
    obtain rfl := Except.ok.inj ho
    cases hk
  | made hpick hs' hlinked =>
    obtain rfl := Except.ok.inj ho
    cases hk

/-- A login opens no account that is closed to its provider. -/
theorem findOrCreate_closed {account : ℕ} (h : s.Closed account who.provider) {o : SocialLogin}
    (ho : (c.findOrCreate who s ok).2 = .ok o) : o.account ≠ account := by
  have houtcome := c.findOrCreate_outcome who s ok
  generalize c.findOrCreate who s ok = r at houtcome ho
  cases houtcome with
  | unpicked hpick => cases ho
  | refused hpick => cases ho
  | unmade hpick hs' => cases ho
  | opened hpick =>
    obtain rfl := Except.ok.inj ho
    obtain ⟨hl, hprovider, -⟩ := existingLink_some hpick
    exact h.apart hl hprovider
  | linked hpick haccount hlinked =>
    obtain rfl := Except.ok.inj ho
    rintro rfl
    obtain ⟨a, ha, hmem⟩ := h.noted
    rw [haccount] at ha
    obtain rfl := Option.some.inj ha
    exact hlinked hmem
  | made hpick hs' hlinked =>
    obtain rfl := Except.ok.inj ho
    subst hs'
    obtain ⟨a, ha, -⟩ := h.noted
    have hlt := Table.lt_next_of_get? ha
    rw [← @completeLink_accounts who s] at hlt
    exact hlt.ne'

end SocialChecks

/-! ## The other requests -/

section Requests

variable {c : SocialChecks} {who : SocialIdentity} {s s' : SocialBooks} {account : ℕ}

/-- What connecting a provider writes: the account's one link there, and that it counts again. -/
theorem linkSocialAccount_ok (h : c.linkSocialAccount account who s = .ok s') : ∃ s₁,
    (s.createLink ⟨account, who.provider, who.email, givenId who.providerUserId⟩ = some s₁ ∨
      ∃ k l l', s.links.get? k = some l ∧ l.account = account ∧ l.provider = who.provider ∧
        Revises l l' ∧ s.updateLink k l' = some s₁) ∧
    s' = { s₁ with accounts := s₁.accounts.modify account fun a => { a with
      socialUnlinkedProviders := a.socialUnlinkedProviders.filter (· ≠ who.provider) } } := by
  simp only [SocialChecks.linkSocialAccount] at h
  split_ifs at h with helsewhere hother
  split at h
  · cases h
  next s₁ hupsert =>
  refine ⟨s₁, ?_, (Except.ok.inj h).symm⟩
  split at hupsert
  · exact .inl hupsert
  next k l hown =>
  obtain ⟨hl, hrow⟩ := Table.find?_some hown
  simp only [Bool.and_eq_true, beq_iff_eq] at hrow
  refine .inr ⟨k, l, { l with
    providerEmail := who.email
    providerUserId := (givenId who.providerUserId).or l.providerUserId }, hl, hrow.1, hrow.2,
    ⟨rfl, rfl, fun i hi => ?_⟩, hupsert⟩
  cases hid : givenId who.providerUserId with
  | none => exact hi
  | some j =>
    have hsame : l.providerUserId = some j := by
      by_contra hne
      simp [hown, hi, hid, hne] at helsewhere
    rw [SocialLink.id?, hsame] at hi
    exact hi

theorem distinct_linkSocialAccount (h : s.Distinct)
    (hok : c.linkSocialAccount account who s = .ok s') : s'.Distinct := by
  obtain ⟨s₁, hwrite, rfl⟩ := linkSocialAccount_ok hok
  have hwritten : s₁.Distinct := by
    rcases hwrite with hcreate | ⟨k, l, l', -, -, -, -, hup⟩
    · exact h.createLink hcreate
    · exact h.updateLink hup
  exact hwritten

theorem stored_linkSocialAccount {a : ℕ} {provider i : String} (h : s.Stored a provider i)
    (hok : c.linkSocialAccount account who s = .ok s') : s'.Stored a provider i := by
  obtain ⟨s₁, hwrite, rfl⟩ := linkSocialAccount_ok hok
  have hwritten : s₁.Stored a provider i := by
    rcases hwrite with hcreate | ⟨k, l, l', hl, -, -, hrevises, hup⟩
    · exact h.createLink hcreate
    · exact h.updateLink hl hrevises hup
  exact hwritten

theorem closed_linkSocialAccount {a : ℕ} {provider : String} (h : s.Closed a provider)
    (hother : ¬(account = a ∧ who.provider = provider))
    (hok : c.linkSocialAccount account who s = .ok s') : s'.Closed a provider := by
  obtain ⟨s₁, hwrite, rfl⟩ := linkSocialAccount_ok hok
  have hclosed : s₁.Closed a provider := by
    rcases hwrite with hcreate | ⟨k, l, l', hl, -, -, hrevises, hup⟩
    · exact h.createLink hother hcreate
    · exact h.updateLink hl hrevises hup
  refine hclosed.accounts fun u hu hmem => ?_
  rw [Table.get?_modify]
  split
  · next hsame =>
    refine ⟨_, by rw [hu, Option.map_some], ?_⟩
    have hne : provider ≠ who.provider := fun heq => hother ⟨hsame.symm, heq.symm⟩
    exact List.mem_filter.2 ⟨hmem, by simpa using hne⟩
  · exact ⟨u, hu, hmem⟩

theorem distinct_unlinkSocialAccount {provider : String} (h : s.Distinct) :
    (s.unlinkSocialAccount account provider).Distinct :=
  fun k j l l' hl hl' => h k j l l' (Table.get?_eraseAll.1 hl).1 (Table.get?_eraseAll.1 hl').1

theorem stored_unlinkSocialAccount {a : ℕ} {provider unlinked i : String}
    (h : s.Stored a provider i) (hother : ¬(account = a ∧ unlinked = provider)) :
    (s.unlinkSocialAccount account unlinked).Stored a provider i := by
  obtain ⟨k, l, hl, rfl, rfl, hid⟩ := h
  refine ⟨k, l, Table.get?_eraseAll.2 ⟨hl, ?_⟩, rfl, rfl, hid⟩
  rw [Bool.and_eq_false_iff, beq_eq_false_iff_ne, beq_eq_false_iff_ne]
  by_contra hboth
  simp only [not_or, not_not] at hboth
  exact hother ⟨hboth.1.symm, hboth.2.symm⟩

theorem noted_unlinkSocialAccount {unlinked provider : String} {a : ℕ} {u : SocialAccount}
    (hu : s.accounts.get? a = some u)
    (hmem : provider ∈ u.socialUnlinkedProviders ∨ account = a ∧ unlinked = provider) :
    ∃ u', (s.unlinkSocialAccount account unlinked).accounts.get? a = some u' ∧
      provider ∈ u'.socialUnlinkedProviders := by
  simp only [unlinkSocialAccount, Table.get?_modify]
  split
  · next hsame =>
    refine ⟨_, by rw [hu, Option.map_some], ?_⟩
    dsimp only
    split
    · next hin => exact hmem.elim (fun h => h) fun heq => heq.2 ▸ hin
    · rcases hmem with hmem | ⟨-, rfl⟩
      · exact List.mem_append_left _ hmem
      · simp
  · next hne => exact ⟨u, hu, hmem.resolve_right fun heq => hne heq.1.symm⟩

theorem closed_unlinkSocialAccount {a : ℕ} {provider unlinked : String} (h : s.Closed a provider) :
    (s.unlinkSocialAccount account unlinked).Closed a provider := by
  obtain ⟨u, hu, hmem⟩ := h.noted
  exact ⟨noted_unlinkSocialAccount hu (.inl hmem),
    fun hl => h.apart (Table.get?_eraseAll.1 hl).1⟩

/-- What is unlinked is closed. -/
theorem closed_of_unlink {provider : String} (haccount : (s.accounts.get? account).isSome = true) :
    (s.unlinkSocialAccount account provider).Closed account provider := by
  obtain ⟨u, hu⟩ := Option.isSome_iff_exists.1 haccount
  refine ⟨noted_unlinkSocialAccount hu (.inr ⟨rfl, rfl⟩), fun hl hprovider hsame => ?_⟩
  have hleft := (Table.get?_eraseAll.1 hl).2
  simp [hprovider, hsame] at hleft

/-- Staff write accounts, and take no note away. -/
theorem updateUser_ok {normalizeEmail lower : String → String} {email : Option String}
    {isActive : Option Bool} (h : updateUser normalizeEmail lower account email isActive s = .ok s') :
    ∃ f : SocialAccount → SocialAccount,
      (∀ a, (f a).socialUnlinkedProviders = a.socialUnlinkedProviders) ∧
        s' = { s with accounts := s.accounts.modify account f } := by
  simp only [updateUser] at h
  split at h
  · cases h
  next user huser =>
  split_ifs at h
  let other := (email.map normalizeEmail).filter (· ≠ normalizeEmail user.email)
  exact ⟨fun a => { a with email := other.getD a.email, isActive := isActive.getD a.isActive },
    fun _ => rfl, (Except.ok.inj h).symm⟩

end Requests

/-! ## Runs -/

section Runs

variable {normalizeEmail lower trim : String → String} {kind : AccountKind}
  {s s' : SocialBooks} {e : SocialRequest}

namespace AccountKind

def checks (lower : String → String) : AccountKind → SocialChecks
  | staff => staffChecks lower
  | client => clientChecks

theorem login_eq (who : SocialIdentity) (ok : Bool) (s : SocialBooks) :
    kind.login normalizeEmail lower who ok s =
      (kind.checks lower).findOrCreate (who.normalized normalizeEmail) s ok := by
  cases kind <;> rfl

theorem link_eq (account : ℕ) (who : SocialIdentity) (s : SocialBooks) :
    kind.link normalizeEmail lower trim account who s =
      (kind.checks lower).linkSocialAccount account (who.trimmed normalizeEmail trim) s := by
  cases kind <;> rfl

/-- What the five writes keep, a request keeps. -/
theorem step_inv {I : SocialBooks → Prop}
    (hlogin : ∀ c who ok, I (SocialChecks.findOrCreate c who s ok).1)
    (hlink : ∀ c account who, e = .link account who → ∀ {who' s'}, who'.provider = who.provider →
      SocialChecks.linkSocialAccount c account who' s = .ok s' → I s')
    (hunlink : ∀ account provider, e = .unlink account provider →
      (s.accounts.get? account).isSome = true → I (s.unlinkSocialAccount account provider))
    (hupdate : ∀ (account : ℕ) (f : SocialAccount → SocialAccount),
      (∀ a, (f a).socialUnlinkedProviders = a.socialUnlinkedProviders) →
        I { s with accounts := s.accounts.modify account f })
    (hstep : (kind.logins normalizeEmail lower trim).step s e = some s') : I s' := by
  cases e with
  | login who ok =>
    obtain rfl := Option.some.inj hstep
    rw [login_eq]
    exact hlogin _ _ _
  | link account who =>
    simp only [logins, step, link_eq] at hstep
    split_ifs at hstep
    refine hlink _ account who rfl ?_ (toOption_eq_some.1 hstep)
    rfl
  | unlink account provider =>
    simp only [logins, step] at hstep
    split_ifs at hstep with haccount
    obtain rfl := Option.some.inj hstep
    exact hunlink account provider rfl haccount
  | update account email isActive =>
    cases kind with
    | staff =>
      obtain ⟨f, hf, rfl⟩ := updateUser_ok (toOption_eq_some.1 hstep)
      exact hupdate account f hf
    | client => cases hstep

theorem distinct_step (h : s.Distinct)
    (hstep : (kind.logins normalizeEmail lower trim).step s e = some s') : s'.Distinct := by
  refine step_inv (I := SocialBooks.Distinct) (fun _ _ _ => SocialChecks.distinct_findOrCreate h)
    (fun _ _ _ _ _ _ _ hok => distinct_linkSocialAccount h hok)
    (fun _ _ _ _ => distinct_unlinkSocialAccount h) (fun _ _ _ => h) hstep

theorem stored_step {account : ℕ} {provider i : String} (h : s.Stored account provider i)
    (hother : e ≠ .unlink account provider)
    (hstep : (kind.logins normalizeEmail lower trim).step s e = some s') :
    s'.Stored account provider i := by
  refine step_inv (I := SocialBooks.Stored account provider i)
    (fun _ _ _ => SocialChecks.stored_findOrCreate h)
    (fun _ _ _ _ _ _ _ hok => stored_linkSocialAccount h hok)
    (fun a p he _ => stored_unlinkSocialAccount h ?_) (fun _ _ _ => h) hstep
  rintro ⟨rfl, rfl⟩
  exact hother he

theorem closed_step {account : ℕ} {provider : String} (h : s.Closed account provider)
    (hother : ∀ who, e = .link account who → who.provider ≠ provider)
    (hstep : (kind.logins normalizeEmail lower trim).step s e = some s') :
    s'.Closed account provider := by
  refine step_inv (I := SocialBooks.Closed account provider)
    (fun _ _ _ => SocialChecks.closed_findOrCreate h)
    (fun _ a who he who' _ hprovider hok => closed_linkSocialAccount h ?_ hok)
    (fun _ _ _ _ => closed_unlinkSocialAccount h) (fun a f hf => ?_) hstep
  · rintro ⟨rfl, rfl⟩
    exact hother who he hprovider.symm
  · refine h.accounts fun u hu hmem => ?_
    rw [Table.get?_modify]
    split
    · next hsame => exact ⟨f u, by rw [hu, Option.map_some], hf u ▸ hmem⟩
    · exact ⟨u, hu, hmem⟩

end AccountKind

/-- In every state that the tables can reach, an id at a provider is on one account; from when it is
stored until it is unlinked a login with it opens that account or is refused; no login is opened by
a link with another id; and from when a provider is unlinked until it is linked again from inside no
login by it opens the account. -/
theorem social_identity {x : SocialBooks} {moves : List SocialRequest} (hs : s.Distinct)
    (hrun : (kind.logins normalizeEmail lower trim).run s moves = some x) :
    (∀ account account' provider i, x.Stored account provider i → x.Stored account' provider i →
      account = account') ∧
    (∀ account provider i, x.Stored account provider i → ∀ later y,
      (kind.logins normalizeEmail lower trim).run x later = some y →
      .unlink account provider ∉ later → ∀ who ok o, who.provider = provider →
      givenId who.providerUserId = some i → (kind.login normalizeEmail lower who ok y).2 = .ok o →
      o.account = account) ∧
    (∀ who ok o k l i, givenId who.providerUserId = some i →
      (kind.login normalizeEmail lower who ok x).2 = .ok o → o.link = some k →
      x.links.get? k = some l → l.provider = who.provider ∧ (l.id? = none ∨ l.id? = some i)) ∧
    (∀ account provider x' later y,
      (kind.logins normalizeEmail lower trim).step x (.unlink account provider) = some x' →
      (kind.logins normalizeEmail lower trim).run x' later = some y →
      (∀ who, .link account who ∈ later → who.provider ≠ provider) → ∀ who ok o,
      who.provider = provider → (kind.login normalizeEmail lower who ok y).2 = .ok o →
      o.account ≠ account) := by
  have hdistinct : ∀ {s s' later}, s.Distinct →
      (kind.logins normalizeEmail lower trim).run s later = some s' → s'.Distinct :=
    fun h hrun => Machine.run_inv _ (I := SocialBooks.Distinct)
      (fun h hstep => AccountKind.distinct_step h hstep) h hrun
  have hx := hdistinct hs hrun
  refine ⟨?_, ?_, ?_, ?_⟩
  · rintro account account' provider i ⟨k, l, hl, rfl, hprovider, hid⟩
      ⟨j, l', hl', rfl, hprovider', hid'⟩
    have hraw := (givenId_eq_some.1 hid).1
    have hraw' := (givenId_eq_some.1 hid').1
    obtain ⟨-, rfl⟩ := hx.account_eq hl hl' (hprovider.trans hprovider'.symm)
      (hraw.trans hraw'.symm) (by rw [hraw]; rfl)
    rfl
  · intro account provider i hstored later y hlater hnone who ok o hprovider hi ho
    subst hprovider
    have hkept : y.Stored account who.provider i := by
      refine Machine.run_inv_of_meets _ (I := SocialBooks.Stored account who.provider i)
        (C := fun _ e => e ≠ .unlink account who.provider)
        (fun h hne hstep => AccountKind.stored_step h hne hstep) hstored ?_ hlater
      rw [Machine.meets_iff]
      rintro before e after - rfl - rfl
      exact hnone (List.mem_append_right _ List.mem_cons_self)
    rw [AccountKind.login_eq] at ho
    refine SocialChecks.findOrCreate_stored (i := i) (hdistinct hx hlater) ?_ ?_ ho
    · exact hkept
    · exact hi
  · intro who ok o k l i hi ho hk hl
    rw [AccountKind.login_eq] at ho
    show l.provider = (who.normalized normalizeEmail).provider ∧ _
    refine SocialChecks.findOrCreate_link hl ?_ ho hk
    exact hi
  · intro account provider x' later y hunlink hlater hnone who ok o hprovider ho
    subst hprovider
    simp only [AccountKind.logins, AccountKind.step] at hunlink
    split_ifs at hunlink with haccount
    obtain rfl := Option.some.inj hunlink
    have hclosed : y.Closed account who.provider := by
      refine Machine.run_inv_of_meets _ (I := SocialBooks.Closed account who.provider)
        (C := fun _ e => ∀ who', e = .link account who' → who'.provider ≠ who.provider)
        (fun h hne hstep => AccountKind.closed_step h hne hstep) (closed_of_unlink haccount) ?_ hlater
      rw [Machine.meets_iff]
      rintro before e after - rfl - who' rfl
      exact hnone who' (List.mem_append_right _ List.mem_cons_self)
    rw [AccountKind.login_eq] at ho
    refine SocialChecks.findOrCreate_closed ?_ ho
    exact hclosed

/-- A user with a password. -/
def oneUser : SocialBooks := ⟨Table.empty.insert ⟨"ana@x.com", true, []⟩, .empty⟩

def googleLogin (email id : String) : SocialIdentity := ⟨email, "google", some id⟩

/-- The id is stored with the user's e-mail and opens the account under another; another id with the
user's e-mail is refused; and so is the first one once the provider is unlinked. -/
theorem google_opens_one_account : ∃ x y,
    (AccountKind.staff.logins (fun e => e) (fun e => e) fun e => e).run oneUser
      [.login (googleLogin "ana@x.com" "1") true] = some x ∧
    (AccountKind.staff.logins (fun e => e) (fun e => e) fun e => e).step x (.unlink 1 "google") =
      some y ∧
    (AccountKind.staff.login (fun e => e) (fun e => e) (googleLogin "bia@x.com" "1") true x).2 =
      .ok ⟨1, some 1⟩ ∧
    (∀ who ok o, who.provider = "google" → givenId who.providerUserId = some "1" →
      (AccountKind.staff.login (fun e => e) (fun e => e) who ok x).2 = .ok o → o.account = 1) ∧
    ∀ who ok o, who.provider = "google" →
      (AccountKind.staff.login (fun e => e) (fun e => e) who ok y).2 = .ok o → o.account ≠ 1 := by
  have hsome : ((AccountKind.staff.logins (fun e => e) (fun e => e) fun e => e).run oneUser
      [.login (googleLogin "ana@x.com" "1") true]).any (fun x =>
        x.links.get? 1 == some ⟨1, "google", "ana@x.com", some "1"⟩ &&
        ((AccountKind.staff.login (fun e => e) (fun e => e) (googleLogin "bia@x.com" "1") true
          x).2.toOption == some ⟨1, some 1⟩) &&
        ((AccountKind.staff.logins (fun e => e) (fun e => e) fun e => e).step x
          (.unlink 1 "google")).isSome) = true := by
    decide +kernel
  obtain ⟨x, hrun, hout⟩ := (Option.any_eq_true _ _).1 hsome
  simp only [Bool.and_eq_true, beq_iff_eq, toOption_eq_some] at hout
  obtain ⟨⟨hlink, hlogin⟩, hunlink⟩ := hout
  obtain ⟨y, hy⟩ := Option.isSome_iff_exists.1 hunlink
  have hdistinct : oneUser.Distinct := fun _ _ _ _ hl => by cases hl
  obtain ⟨-, hstored, -, hclosed⟩ := social_identity hdistinct hrun
  have hid : x.Stored 1 "google" "1" := ⟨1, _, hlink, rfl, rfl, rfl⟩
  refine ⟨x, y, hrun, hy, hlogin, ?_, ?_⟩
  · exact hstored 1 "google" "1" hid [] x rfl List.not_mem_nil
  · exact hclosed 1 "google" y [] y hy rfl fun _ hmem => absurd hmem List.not_mem_nil

end Runs

end Barbershop
