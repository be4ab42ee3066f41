import Barbershop.Rent.Agreed
import Barbershop.Rent.Shared

/-!
# No rent after the link ends

A live subscription is that of the link or is about to be linked by the `authorize` that created it;
and a link that is not active has no subscription and no rent. Both hold as long as the rent is written
while the link is active, a status is written over the one that was read, and a subscription that is
dropped from the link has ended.
-/

namespace Barbershop

open Lib

/-! ## The law -/

/-- The ways of a link's status. -/
def LinkStatus.goes : LinkStatus → LinkStatus → Bool
  | pending, active | pending, declined | pending, cancelled | active, removed => true
  | declined, pending | cancelled, pending | removed, pending => true
  | _, _ => false

/-- A link that is not active has no rent. -/
def SharedLink.RentEnded (s : SharedLink) : Prop :=
  s.status ≠ .active → s.deal.link.rentStatus = .none ∧ ∀ id, s.deal.lives id = false

/-! ## What a write has to meet -/

/-- The rent is written while the link is active; a subscription that leaves the link cannot be
charged any more; and the transaction that creates one is not over before it is linked. -/
def TermsCall.keepsLink (k : TermsChance) (c : TermsCall) (s : RentDeal) : Bool :=
  match c with
  | canceled _ _ => !s.charged
  | ending _ (.toManual _) | saving _ _ (.set _) | activating => s.link.status == .active
  | linking _ _ id _ _ =>
    if k.timesOut then !s.lives id || s.link.rentStripeSubscriptionId == some id
    else s.link.status == .active && (!s.charged || s.link.rentStripeSubscriptionId == some id)
  | forgetting seen => !s.charged && (s.link.status == .active || seen.status != .active)
  | _ => true

/-- And a status is written over the one that the call read; an active link is ended while it has no
subscription. -/
def SharedCall.keepsLink (k : SharedChance) (c : SharedCall) (s : SharedLink) : Bool :=
  match c with
  | rent c => c.keepsLink k.terms s.deal
  | inviting seen => s.status == seen
  | responding _ | cancelling => s.status == .pending
  | blocking _ declining => !declining || s.status == .pending
  | unlinking => !s.deal.charged
  | removing => s.status == .active && s.deal.link.rentStripeSubscriptionId.isNone
  | _ => true

/-! ## Subscriptions and their owners -/

/-- The subscription that a call is about to link. -/
def TermsCall.links : TermsCall → Multiset ℕ
  | linking _ _ id _ _ => {id}
  | _ => 0

namespace RentDeal

/-- `m`: the subscriptions that are about to be linked. -/
structure Owned (s : RentDeal) (m : Multiset ℕ) : Prop where
  owned : ∀ ⦃id⦄, s.lives id = true → s.link.rentStripeSubscriptionId = some id ∨ id ∈ m
  ended : s.link.status ≠ .active →
    s.link.rentStripeSubscriptionId = none ∧ s.link.rentStatus = .none

variable {s s' : RentDeal} {m : Multiset ℕ}

/-- A write that leaves the subscription of the link and begins none. -/
theorem Owned.keep (h : s.Owned m) (hlives : ∀ id, s'.lives id = true → s.lives id = true)
    (hsub : s'.link.rentStripeSubscriptionId = s.link.rentStripeSubscriptionId)
    (hstatus : s'.link.status = s.link.status)
    (hrent : s'.link.rentStatus = s.link.rentStatus ∨ s'.link.rentStatus = .none ∨
      s.link.status = .active) : s'.Owned m where
  owned := by
    intro id hid
    rw [hsub]
    exact h.owned (hlives id hid)
  ended := by
    intro hnot
    rw [hstatus] at hnot
    obtain ⟨hnone, hended⟩ := h.ended hnot
    refine ⟨hsub.trans hnone, ?_⟩
    rcases hrent with hsame | hnone' | hactive
    · exact hsame.trans hended
    · exact hnone'
    · exact absurd hactive hnot

/-- A write that drops a subscription that cannot be charged. -/
theorem Owned.unlink (h : s.Owned m) (hcharged : s.charged = false)
    (hlives : ∀ id, s'.lives id = true → s.lives id = true)
    (hsub : s'.link.rentStripeSubscriptionId = none) (hstatus : s'.link.status = s.link.status)
    (hrent : s'.link.rentStatus = .none ∨ s.link.status = .active) : s'.Owned m where
  owned := by
    intro id hid
    rcases h.owned (hlives id hid) with hlinked | hmem
    · exact absurd (hlives id hid) (not_charged hcharged hlinked)
    · exact .inr hmem
  ended := by
    intro hnot
    rw [hstatus] at hnot
    exact ⟨hsub, hrent.resolve_right hnot⟩

theorem Owned.add (h : s.Owned m) (n : Multiset ℕ) : s.Owned (n + m) where
  owned _ hid := (h.owned hid).imp_right fun hmem => Multiset.mem_add.2 (.inr hmem)
  ended := h.ended

theorem lives_modify {id j : ℕ} {f : RentSub → RentSub}
    (hf : ∀ x, s.subs.get? id = some x → (f x).status.live = true → x.status.live = true)
    (h : ({ s with subs := s.subs.modify id f } : RentDeal).lives j = true) : s.lives j = true := by
  simp only [lives, Option.any_eq_true] at h ⊢
  obtain ⟨x, hx, hlive⟩ := h
  by_cases hj : j = id
  · subst hj
    rw [Table.get?_modify_self, Option.map_eq_some_iff] at hx
    obtain ⟨y, hy, rfl⟩ := hx
    exact ⟨y, hy, hf y hy hlive⟩
  · rw [Table.get?_modify_of_ne _ _ hj] at hx
    exact ⟨x, hx, hlive⟩

theorem lives_cancelSubscription {id j : ℕ} (h : (s.cancelSubscription id).lives j = true) :
    s.lives j = true := by
  refine lives_modify (fun x _ hlive => ?_) h
  split at hlive
  · cases hlive
  · exact hlive

theorem lives_reprice {id price j : ℕ} (hreprice : s.reprice id price = some s')
    (h : s'.lives j = true) : s.lives j = true := by
  obtain ⟨t, ht, rfl⟩ := Option.map_eq_some_iff.1 hreprice
  obtain ⟨-, -, -, rfl⟩ := Table.tryModify_eq_some.1 ht
  exact lives_modify (f := ({ · with price := price })) (fun _ _ hlive => hlive) h

theorem reprice_link {id price : ℕ} (hreprice : s.reprice id price = some s') :
    s'.link = s.link := by
  obtain ⟨t, ht, rfl⟩ := Option.map_eq_some_iff.1 hreprice
  rfl

end RentDeal

/-! ## Steps of the rent -/

section Rent

variable {currency : String} {k : TermsChance} {s s' : RentDeal} {m : Multiset ℕ}
  {goes : TermsCall.Goes}

namespace TermsCall

/-- What one move of the rent leaves. -/
structure Leads (m : Multiset ℕ) (s s' : RentDeal) (c : Option TermsCall) : Prop where
  owned : s'.Owned (c.elim 0 links + m)
  status : s'.link.status = s.link.status

theorem leads_keep {c : Option TermsCall} (h : s.Owned m)
    (hlives : ∀ id, s'.lives id = true → s.lives id = true)
    (hsub : s'.link.rentStripeSubscriptionId = s.link.rentStripeSubscriptionId)
    (hstatus : s'.link.status = s.link.status)
    (hrent : s'.link.rentStatus = s.link.rentStatus ∨ s'.link.rentStatus = .none ∨
      s.link.status = .active) : Leads m s s' c :=
  ⟨(h.keep hlives hsub hstatus hrent).add _, hstatus⟩

/-- The move leaves the link. -/
theorem leads_same {c : Option TermsCall} (h : s.Owned m)
    (hlives : ∀ id, s'.lives id = true → s.lives id = true) (hlink : s'.link = s.link) :
    Leads m s s' c :=
  leads_keep h hlives (by rw [hlink]) (by rw [hlink]) (.inl (by rw [hlink]))

theorem leads_refl {c : Option TermsCall} (h : s.Owned m) : Leads m s s c :=
  leads_same h (fun _ hid => hid) rfl

theorem leads_unlink {c : Option TermsCall} (h : s.Owned m) (hcharged : s.charged = false)
    (hlives : ∀ id, s'.lives id = true → s.lives id = true)
    (hsub : s'.link.rentStripeSubscriptionId = none) (hstatus : s'.link.status = s.link.status)
    (hrent : s'.link.rentStatus = .none ∨ s.link.status = .active) : Leads m s s' c :=
  ⟨(h.unlink hcharged hlives hsub hstatus hrent).add _, hstatus⟩

/-! ### Some steps on their own -/

theorem saving_leads {seen : RentTerms} {new : Option (ℕ × ℕ)} {by' : RentChange}
    (h : s.Owned m) (hkeeps : (saving seen new by').keepsLink k s = true)
    (hstep : (saving seen new by').step currency k s = some (s', goes)) :
    Leads m s s' goes.running := by
  obtain ⟨rfl, rfl⟩ := Prod.mk.inj (Option.some.inj hstep)
  cases by' with
  | set cents => exact leads_keep h (fun _ hid => hid) rfl rfl (.inr (.inr (eq_of_beq hkeeps)))
  | accepted pending => exact leads_keep h (fun _ hid => hid) rfl rfl (.inl rfl)

theorem claiming_leads {seen : RentTerms} {pending : ℚ} {accept : Bool} (h : s.Owned m)
    (hstep : (claiming seen pending accept).step currency k s = some (s', goes)) :
    Leads m s s' goes.running := by
  simp only [step] at hstep
  repeat' split at hstep
  all_goals obtain ⟨rfl, rfl⟩ := Prod.mk.inj (Option.some.inj hstep)
  · exact leads_keep h (fun _ hid => hid) rfl rfl (.inl rfl)
  · exact leads_keep h (fun _ hid => hid) rfl rfl (.inl rfl)
  · exact leads_keep h (fun _ hid => hid) rfl rfl (.inl rfl)
  · exact leads_refl h

theorem goOnLocked_leads {x : Result TermsCall} (h : s.Owned m) :
    Leads m s (goOnLocked x s).1 (goOnLocked x s).2.running := by
  cases x with
  | error r => exact leads_same h (fun _ hid => hid) rfl
  | ok c => exact leads_refl h

theorem resuming_leads {seen : RentTerms} {id userId : ℕ} (h : s.Owned m)
    (hstep : (resuming seen id userId).step currency k s = some (s', goes)) :
    Leads m s s' goes.running := by
  simp only [step] at hstep
  repeat' split at hstep
  all_goals obtain ⟨rfl, rfl⟩ := Prod.mk.inj (Option.some.inj hstep)
  · exact leads_same h (fun _ hid => hid) rfl
  · exact leads_same h (fun _ hid => hid) rfl
  · exact leads_refl h
  · exact goOnLocked_leads h

/-- The subscription that is created is the one that the call goes on to link. -/
theorem subscribing_leads {seen : RentTerms} {price userId : ℕ} (h : s.Owned m)
    (hstep : (subscribing seen price userId).step currency k s = some (s', goes)) :
    Leads m s s' goes.running := by
  obtain ⟨rfl, rfl⟩ := Prod.mk.inj (Option.some.inj hstep)
  unfold subscribe
  dsimp only
  split
  · exact leads_refl h
  · have hlive : (if k.active then .active else .incomplete : RentSubStatus).live = true := by
      split <;> rfl
    rw [if_pos hlive]
    refine ⟨⟨?_, h.ended⟩, rfl⟩
    intro id hid
    simp only [RentDeal.lives, Option.any_eq_true] at hid
    obtain ⟨x, hx, hlives⟩ := hid
    rcases Table.get?_insert_cases hx with ⟨rfl, -⟩ | hold
    · exact .inr (Multiset.mem_add.2 (.inl (Multiset.mem_singleton_self _)))
    · refine (h.owned ?_).imp_right fun hmem => Multiset.mem_add.2 (.inr hmem)
      simp only [RentDeal.lives, Option.any_eq_true]
      exact ⟨x, hold, hlives⟩

theorem linking_leads {seen : RentTerms} {price id userId : ℕ} {status : RentSubStatus}
    (h : s.Owned ({id} + m)) (hkeeps : (linking seen price id status userId).keepsLink k s = true)
    (hstep : (linking seen price id status userId).step currency k s = some (s', goes)) :
    Leads m s s' goes.running := by
  simp only [step] at hstep
  simp only [keepsLink] at hkeeps
  have hother : ∀ {j}, s.lives j = true → s.link.rentStripeSubscriptionId = some j ∨ j = id ∨ j ∈ m := by
    intro j hj
    refine (h.owned hj).imp_right fun hmem => ?_
    simpa using hmem
  split at hstep
  · next htime =>
    obtain ⟨rfl, rfl⟩ := Prod.mk.inj (Option.some.inj hstep)
    rw [if_pos htime, Bool.or_eq_true, Bool.not_eq_true', beq_iff_eq] at hkeeps
    refine leads_same (s := s) ⟨fun j hj => ?_, h.ended⟩ (fun _ hid => hid) rfl
    rcases hother hj with hlinked | rfl | hmem
    · exact .inl hlinked
    · exact .inl (hkeeps.resolve_left (by simp [hj]))
    · exact .inr hmem
  · next htime =>
    obtain ⟨rfl, rfl⟩ := Prod.mk.inj (Option.some.inj hstep)
    rw [if_neg htime] at hkeeps
    simp only [Bool.and_eq_true, beq_iff_eq, Bool.or_eq_true, Bool.not_eq_true'] at hkeeps
    obtain ⟨hactive, hcharged⟩ := hkeeps
    refine ⟨⟨fun j hj => ?_, fun hnot => absurd hactive hnot⟩, rfl⟩
    have hlives : s.lives j = true := hj
    rcases hother hlives with hlinked | rfl | hmem
    · rcases hcharged with hnone | hsame
      · exact absurd hlives (RentDeal.not_charged hnone hlinked)
      · exact .inl (hsame.symm.trans hlinked)
    · exact .inl rfl
    · exact .inr (Multiset.mem_add.2 (.inr hmem))

theorem step_leads {c : TermsCall} (h : s.Owned (c.links + m)) (hkeeps : c.keepsLink k s = true)
    (hstep : c.step currency k s = some (s', goes)) : Leads m s s' goes.running := by
  have hfree : c.links = 0 → s.Owned m := by
    intro hzero
    rwa [hzero, zero_add] at h
  cases c with
  | linking seen price id status userId => exact linking_leads h hkeeps hstep
  | saving seen new by' => exact saving_leads (hfree rfl) hkeeps hstep
  | claiming seen pending accept => exact claiming_leads (hfree rfl) hstep
  | resuming seen id userId => exact resuming_leads (hfree rfl) hstep
  | subscribing seen price userId => exact subscribing_leads (hfree rfl) hstep
  | setRent ctx data =>
    simp only [step] at hstep
    repeat' split at hstep
    all_goals
      obtain ⟨rfl, rfl⟩ := Prod.mk.inj (Option.some.inj hstep)
      exact leads_refl (hfree rfl)
  | findingSub seen after =>
    simp only [step] at hstep
    split at hstep
    all_goals
      obtain ⟨rfl, rfl⟩ := Prod.mk.inj (Option.some.inj hstep)
      exact leads_refl (hfree rfl)
  | canceling seen id after =>
    obtain ⟨rfl, rfl⟩ := Prod.mk.inj (Option.some.inj hstep)
    exact leads_same (hfree rfl) (fun _ hid => RentDeal.lives_cancelSubscription hid) rfl
  | canceled seen after =>
    obtain ⟨rfl, rfl⟩ := Prod.mk.inj (Option.some.inj hstep)
    have hcharged : s.charged = false := by simpa [keepsLink] using hkeeps
    exact leads_unlink (hfree rfl) hcharged (fun _ hid => hid) rfl rfl (.inl rfl)
  | ending seen after =>
    cases after with
    | clear =>
      obtain ⟨rfl, rfl⟩ := Prod.mk.inj (Option.some.inj hstep)
      exact leads_keep (hfree rfl) (fun _ hid => hid) rfl rfl (.inr (.inl rfl))
    | toManual cents =>
      obtain ⟨rfl, rfl⟩ := Prod.mk.inj (Option.some.inj hstep)
      exact leads_keep (hfree rfl) (fun _ hid => hid) rfl rfl (.inr (.inr (eq_of_beq hkeeps)))
  | backToCard seen cents =>
    obtain ⟨rfl, rfl⟩ := Prod.mk.inj (Option.some.inj hstep)
    exact leads_keep (hfree rfl) (fun _ hid => hid) rfl rfl (.inr (.inl rfl))
  | proposing cents =>
    obtain ⟨rfl, rfl⟩ := Prod.mk.inj (Option.some.inj hstep)
    exact leads_keep (hfree rfl) (fun _ hid => hid) rfl rfl (.inl rfl)
  | pricing seen id by' =>
    obtain ⟨rfl, rfl⟩ := Prod.mk.inj (Option.some.inj hstep)
    exact leads_same (hfree rfl) (fun _ hid => hid) rfl
  | repricing seen id price by' =>
    simp only [step] at hstep
    split at hstep
    · obtain ⟨rfl, rfl⟩ := Prod.mk.inj (Option.some.inj hstep)
      exact leads_refl (hfree rfl)
    · next hreprice =>
      obtain ⟨rfl, rfl⟩ := Prod.mk.inj (Option.some.inj hstep)
      exact leads_same (hfree rfl) (fun _ hid => RentDeal.lives_reprice hreprice hid)
        (RentDeal.reprice_link hreprice)
  | respond ctx accept | authorize ctx card =>
    obtain ⟨rfl, rfl⟩ := Prod.mk.inj (Option.some.inj hstep)
    exact leads_refl (hfree rfl)
  | locking ctx =>
    simp only [step] at hstep
    split at hstep
    · cases hstep
    · obtain ⟨rfl, rfl⟩ := Prod.mk.inj (Option.some.inj hstep)
      exact leads_same (hfree rfl) (fun _ hid => hid) rfl
  | loading ctx =>
    have heq : goOnLocked (checkAuthorize ctx s.link) s = (s', goes) := Option.some.inj hstep
    have hleads := goOnLocked_leads (x := checkAuthorize ctx s.link) (hfree rfl)
    rwa [heq] at hleads
  | payingInvoice =>
    simp only [step] at hstep
    split at hstep
    all_goals
      obtain ⟨rfl, rfl⟩ := Prod.mk.inj (Option.some.inj hstep)
      exact leads_same (hfree rfl) (fun _ hid => hid) rfl
  | activating =>
    obtain ⟨rfl, rfl⟩ := Prod.mk.inj (Option.some.inj hstep)
    exact leads_keep (hfree rfl) (fun _ hid => hid) rfl rfl (.inr (.inr (eq_of_beq hkeeps)))
  | firstPrice seen userId =>
    obtain ⟨rfl, rfl⟩ := Prod.mk.inj (Option.some.inj hstep)
    exact leads_same (hfree rfl) (fun _ hid => hid) rfl
  | keepingPrice seen price userId | droppingPrice =>
    obtain ⟨rfl, rfl⟩ := Prod.mk.inj (Option.some.inj hstep)
    exact leads_keep (hfree rfl) (fun _ hid => hid) rfl rfl (.inl rfl)
  | deleted id =>
    simp only [step] at hstep
    split at hstep
    all_goals
      obtain ⟨rfl, rfl⟩ := Prod.mk.inj (Option.some.inj hstep)
      exact leads_refl (hfree rfl)
  | forgetting seen =>
    obtain ⟨rfl, rfl⟩ := Prod.mk.inj (Option.some.inj hstep)
    simp only [keepsLink, Bool.and_eq_true, Bool.not_eq_true', Bool.or_eq_true, beq_iff_eq,
      bne_iff_ne] at hkeeps
    refine leads_unlink (hfree rfl) hkeeps.1 (fun _ hid => hid) rfl rfl ?_
    rcases hkeeps.2 with hactive | hnot
    · exact .inr hactive
    · exact .inl (if_neg fun hboth => hnot hboth.2)

end TermsCall

theorem TermsEvent.apply_leads {e : TermsEvent} {r : RentDeal × Option TermsCall} (h : s.Owned m)
    (hanswer : ∀ status, e ≠ .answer status) (hevent : e.apply s = some r) :
    TermsCall.Leads m s r.1 r.2 := by
  cases e with
  | arrive c =>
    simp only [apply] at hevent
    split at hevent
    · obtain rfl := Option.some.inj hevent
      exact TermsCall.leads_refl h
    · cases hevent
  | status id next =>
    simp only [apply] at hevent
    split at hevent
    · next hlives =>
      obtain rfl := Option.some.inj hevent
      refine TermsCall.leads_same h (fun j hj => RentDeal.lives_modify (fun x hx _ => ?_) hj) rfl
      unfold RentDeal.lives at hlives
      rwa [hx] at hlives
    · cases hevent
  | subscriptionDeleted id =>
    simp only [apply] at hevent
    split at hevent
    · cases hevent
    · obtain rfl := Option.some.inj hevent
      exact TermsCall.leads_refl h
  | invoice i id paid =>
    simp only [apply] at hevent
    split at hevent
    · next hsub =>
      obtain rfl := Option.some.inj hevent
      refine TermsCall.leads_keep h (fun _ hid => hid) rfl rfl (.inr (.inr ?_))
      -- only a link that is active has a subscription
      by_contra hnot
      rw [(h.ended hnot).1] at hsub
      cases hsub
    · obtain rfl := Option.some.inj hevent
      exact TermsCall.leads_refl h
  | answer status => exact absurd rfl (hanswer status)
  | timeout =>
    obtain rfl := Option.some.inj hevent
    exact TermsCall.leads_same h (fun _ hid => hid) rfl

end Rent

/-! ## Steps of the link -/

/-- The subscription that a call is about to link. -/
def SharedCall.links : SharedCall → Multiset ℕ
  | rent c => c.links
  | _ => 0

/-- An invite that goes on has read a link that is over. -/
def SharedCall.Knows : SharedCall → Prop
  | inviting seen => LinkStatus.goes seen .pending = true
  | _ => True

structure SharedLink.Sound (s : SharedLink) (m : Multiset ℕ) : Prop where
  moves : ∀ move ∈ s.moves, LinkStatus.goes move.1 move.2 = true
  deal : s.deal.Owned m

def sharedInv : CallInv SharedLink SharedCall (Multiset ℕ) where
  weight := SharedCall.links
  whole s m := s.Sound m
  each _ c := c.Knows

namespace SharedLink

variable {s s' : SharedLink} {m : Multiset ℕ}

theorem Sound.setStatus (h : s.Sound m) {status : LinkStatus}
    (hgoes : LinkStatus.goes s.status status = true)
    (hended : status ≠ .active → s.deal.link.rentStripeSubscriptionId = none ∧
      s.deal.link.rentStatus = .none) : (s.setStatus status).Sound m where
  moves := by
    intro move hmove
    simp only [SharedLink.setStatus] at hmove
    split at hmove
    · exact h.moves move hmove
    · rcases List.mem_cons.1 hmove with rfl | hold
      · exact hgoes
      · exact h.moves move hold
  deal := ⟨h.deal.owned, hended⟩

/-- A link that is not active leaves for another status. -/
theorem Sound.leave (h : s.Sound m) {status : LinkStatus}
    (hgoes : LinkStatus.goes s.status status = true) (hnot : s.status ≠ .active) :
    (s.setStatus status).Sound m :=
  h.setStatus hgoes fun _ => h.deal.ended hnot

theorem Sound.ended (h : s.Sound 0) : s.RentEnded := by
  intro hnot
  obtain ⟨hnone, hrent⟩ := h.deal.ended hnot
  refine ⟨hrent, fun id => ?_⟩
  rw [Bool.eq_false_iff]
  intro hlives
  rcases h.deal.owned hlives with hlinked | hmem
  · rw [hnone] at hlinked
    cases hlinked
  · exact absurd hmem (Multiset.notMem_zero id)

end SharedLink

namespace SharedKept

variable {s s' : SharedLink} {m : Multiset ℕ} {c c' : Option SharedCall} {k : SharedChance}

theorem keeps (hsound : ∀ m, s.Sound (sharedInv.weigh c + m) → s'.Sound (sharedInv.weigh c' + m))
    (hmine : ∀ a ∈ c', a.Knows) : sharedInv.Keeps s c (s', c') := by
  intro m h _
  exact ⟨hsound m h, hmine, fun _ hd _ => hd, fun _ _ _ _ _ => trivial⟩

/-- A call that is over once it has written. -/
theorem ends {a : SharedCall} (hlinks : a.links = 0) (hsound : ∀ m, s.Sound m → s'.Sound m) :
    sharedInv.Keeps s (some a) (s', none) := by
  refine keeps (fun m h => ?_) (by simp)
  have hweigh : sharedInv.weigh (some a) = 0 := hlinks
  rw [hweigh, zero_add] at h
  rw [CallInv.weigh_none, zero_add]
  exact hsound m h

/-- A call that only reads. -/
theorem reads {a : SharedCall} (hlinks : a.links = 0) (hnext : ∀ b ∈ c', b.links = 0 ∧ b.Knows) :
    sharedInv.Keeps s (some a) (s, c') := by
  have hweigh : sharedInv.weigh c' = 0 := by
    cases c' with
    | none => rfl
    | some b => exact (hnext b rfl).1
  refine keeps (fun m h => ?_) fun b hb => (hnext b hb).2
  have hweigh' : sharedInv.weigh (some a) = 0 := hlinks
  rwa [hweigh, ← hweigh']

/-- A call that checks what it read goes on with what the checks give. -/
theorem checks {a : SharedCall} {x : Result SharedCall} (hlinks : a.links = 0)
    (hnext : ∀ b, x = .ok b → b.links = 0 ∧ b.Knows) :
    sharedInv.Keeps s (some a) (s, x.toOption) := by
  refine reads hlinks fun b hb => hnext b ?_
  cases x with
  | error r => cases hb
  | ok b' =>
    obtain rfl := Option.some.inj hb
    rfl

theorem weigh_map (c : Option TermsCall) :
    sharedInv.weigh (c.map .rent) = c.elim 0 TermsCall.links := by
  cases c with
  | none => rfl
  | some c => rfl

theorem knows_map (c : Option TermsCall) : ∀ a ∈ c.map SharedCall.rent, a.Knows := by
  intro a ha
  obtain ⟨b, -, rfl⟩ := Option.map_eq_some_iff.1 ha
  trivial

theorem rent {currency : String} {call : TermsCall}
    (hkeeps : (SharedCall.rent call).keepsLink k s = true) {r}
    (hr : (SharedCall.rent call).step currency k s = some r) :
    sharedInv.Keeps s (some (.rent call)) r := by
  simp only [SharedCall.step] at hr
  split at hr
  · next hfails =>
    obtain rfl := Option.some.inj hr
    have hlinks : (SharedCall.rent call).links = 0 := by
      cases call with
      | linking => simp [TermsCall.callsStripe] at hfails
      | _ => rfl
    refine ends hlinks fun m h => ⟨h.moves, ?_⟩
    dsimp only
    split
    · exact h.deal.keep (fun _ hid => hid) rfl rfl (.inl rfl)
    · exact h.deal
  · obtain ⟨⟨d, goes⟩, hstep, rfl⟩ := Option.map_eq_some_iff.1 hr
    refine keeps (fun m h => ⟨h.moves, ?_⟩) (knows_map _)
    rw [weigh_map]
    exact (TermsCall.step_leads h.deal hkeeps hstep).owned

theorem invite {currency : String} {ctx : Caller} {member : Option InvitedShop} {r}
    (hr : (SharedCall.invite ctx member).step currency k s = some r) :
    sharedInv.Keeps s (some (.invite ctx member)) r := by
  obtain rfl := Option.some.inj hr
  apply checks rfl
  intro b hb
  unfold SharedCall.checkInvite at hb
  simp only [bind_eq_ok, refuseIf_eq_ok, pure_eq_ok, not_or] at hb
  obtain ⟨-, -, member, -, -, -, -, -, -, ⟨hactive, hpending⟩, -, -, -, -, rfl⟩ := hb
  refine ⟨rfl, ?_⟩
  simp only [SharedCall.Knows]
  cases hstatus : s.status with
  | active => exact absurd hstatus hactive
  | pending => exact absurd hstatus hpending
  | declined | cancelled | removed => rfl

theorem inviting {currency : String} {seen : LinkStatus}
    (hkeeps : (SharedCall.inviting seen).keepsLink k s = true) {r}
    (hr : (SharedCall.inviting seen).step currency k s = some r) :
    sharedInv.Keeps s (some (.inviting seen)) r := by
  obtain rfl := Option.some.inj hr
  intro m h hmine
  have hgoes : LinkStatus.goes s.status .pending = true := by
    rw [eq_of_beq hkeeps]
    exact hmine _ rfl
  have hnot : s.status ≠ .active := by
    intro hactive
    rw [hactive] at hgoes
    cases hgoes
  refine ends rfl (fun m h => ?_) m h hmine
  have hset := h.leave hgoes hnot
  exact ⟨hset.moves, hset.deal⟩

theorem responding {currency : String} {accept : Bool}
    (hkeeps : (SharedCall.responding accept).keepsLink k s = true) {r}
    (hr : (SharedCall.responding accept).step currency k s = some r) :
    sharedInv.Keeps s (some (.responding accept)) r := by
  obtain rfl := Option.some.inj hr
  have hpending : s.status = .pending := eq_of_beq hkeeps
  have hgoes : LinkStatus.goes s.status (if accept then .active else .declined) = true := by
    rw [hpending]
    cases accept with
    | true => rfl
    | false => rfl
  refine ends rfl fun m h => ?_
  have hset := h.leave hgoes (by simp [hpending])
  exact ⟨hset.moves, hset.deal⟩

theorem cancelling {currency : String}
    (hkeeps : SharedCall.cancelling.keepsLink k s = true) {r}
    (hr : SharedCall.cancelling.step currency k s = some r) :
    sharedInv.Keeps s (some .cancelling) r := by
  obtain rfl := Option.some.inj hr
  have hpending : s.status = .pending := eq_of_beq hkeeps
  have hgoes : LinkStatus.goes s.status .cancelled = true := by
    rw [hpending]
    rfl
  refine ends rfl fun m h => ?_
  have hset := h.leave hgoes (by simp [hpending])
  exact ⟨hset.moves, hset.deal⟩

theorem cancelingSub {currency : String} {id : ℕ} {r}
    (hr : (SharedCall.cancelingSub id).step currency k s = some r) :
    sharedInv.Keeps s (some (.cancelingSub id)) r := by
  simp only [SharedCall.step] at hr
  split at hr
  · obtain rfl := Option.some.inj hr
    exact reads rfl (by simp)
  · obtain rfl := Option.some.inj hr
    refine keeps (fun m h => ⟨h.moves, ?_⟩) fun a ha => ?_
    · exact h.deal.keep (fun _ hid => RentDeal.lives_cancelSubscription hid) rfl rfl (.inl rfl)
    · obtain rfl := Option.some.inj ha
      trivial

theorem unlinking {currency : String} (hkeeps : SharedCall.unlinking.keepsLink k s = true) {r}
    (hr : SharedCall.unlinking.step currency k s = some r) :
    sharedInv.Keeps s (some .unlinking) r := by
  obtain rfl := Option.some.inj hr
  have hcharged : s.deal.charged = false := by simpa [SharedCall.keepsLink] using hkeeps
  refine keeps (fun m h => ⟨h.moves, ?_⟩) fun a ha => ?_
  · exact h.deal.unlink hcharged (fun _ hid => hid) rfl rfl (.inl rfl)
  · obtain rfl := Option.some.inj ha
    trivial

theorem removing {currency : String} (hkeeps : SharedCall.removing.keepsLink k s = true) {r}
    (hr : SharedCall.removing.step currency k s = some r) :
    sharedInv.Keeps s (some .removing) r := by
  obtain rfl := Option.some.inj hr
  simp only [SharedCall.keepsLink, Bool.and_eq_true, beq_iff_eq, Option.isNone_iff_eq_none] at hkeeps
  obtain ⟨hactive, hnone⟩ := hkeeps
  refine ends rfl fun m h => ⟨?_, h.deal.owned, fun _ => ⟨hnone, rfl⟩⟩
  intro move hmove
  have hmoves : move = (s.status, .removed) ∨ move ∈ s.moves := by
    simpa [SharedLink.setLink, SharedLink.setStatus, hactive] using hmove
  rcases hmoves with rfl | hold
  · simp [hactive, LinkStatus.goes]
  · exact h.moves move hold

theorem blocking {currency : String} {blocked declining : Bool}
    (hkeeps : (SharedCall.blocking blocked declining).keepsLink k s = true) {r}
    (hr : (SharedCall.blocking blocked declining).step currency k s = some r) :
    sharedInv.Keeps s (some (.blocking blocked declining)) r := by
  obtain rfl := Option.some.inj hr
  refine ends rfl fun m h => ?_
  cases declining with
  | false => exact ⟨h.moves, h.deal⟩
  | true =>
    have hpending : s.status = .pending := by simpa [SharedCall.keepsLink] using hkeeps
    have hgoes : LinkStatus.goes s.status .declined = true := by
      rw [hpending]
      rfl
    have hset := h.leave hgoes (by simp [hpending])
    exact ⟨hset.moves, hset.deal⟩

theorem step {currency : String} {a : SharedCall} (hkeeps : a.keepsLink k s = true) {r}
    (hr : a.step currency k s = some r) : sharedInv.Keeps s (some a) r := by
  cases a with
  | rent c => exact rent hkeeps hr
  | invite ctx member => exact invite hr
  | inviting seen => exact inviting hkeeps hr
  | respond ctx accept =>
    obtain rfl := Option.some.inj hr
    apply checks rfl
    intro b hb
    simp only [SharedCall.checkRespond, bind_eq_ok, pure_eq_ok] at hb
    obtain ⟨-, -, -, -, rfl⟩ := hb
    exact ⟨rfl, trivial⟩
  | responding accept => exact responding hkeeps hr
  | endLink ctx =>
    obtain rfl := Option.some.inj hr
    apply checks rfl
    intro b hb
    simp only [SharedCall.checkEnd, bind_eq_ok, pure_eq_ok] at hb
    obtain ⟨-, -, -, -, -, -, rfl⟩ := hb
    split <;> exact ⟨rfl, trivial⟩
  | cancelling => exact cancelling hkeeps hr
  | findingSub =>
    obtain rfl := Option.some.inj hr
    apply reads rfl
    intro b hb
    obtain rfl := Option.some.inj hb
    cases s.deal.link.rentStripeSubscriptionId with
    | none => exact ⟨rfl, trivial⟩
    | some id => exact ⟨rfl, trivial⟩
  | cancelingSub id => exact cancelingSub hr
  | unlinking => exact unlinking hkeeps hr
  | removing => exact removing hkeeps hr
  | setInviteBlock ctx blocked =>
    obtain rfl := Option.some.inj hr
    apply checks rfl
    intro b hb
    simp only [SharedCall.checkInviteBlock, bind_eq_ok, pure_eq_ok] at hb
    obtain ⟨-, -, -, -, -, -, rfl⟩ := hb
    exact ⟨rfl, trivial⟩
  | blocking blocked declining => exact blocking hkeeps hr

/-- A call that begins. -/
theorem begins {a : SharedCall} (hlinks : a.links = 0) (hknows : a.Knows) :
    sharedInv.Keeps s none (s, some a) := by
  refine keeps (fun m h => ?_) fun b hb => ?_
  · have hweigh : sharedInv.weigh (some a) = 0 := hlinks
    rwa [hweigh]
  · obtain rfl := Option.some.inj hb
    exact hknows

theorem event {e : SharedEvent} {r} (hr : e.apply s = some r) : sharedInv.Keeps s none r := by
  cases e with
  | rent e =>
    have hrent : ∀ {e : TermsEvent}, (∀ status, e ≠ .answer status) →
        ((e.apply s.deal).map fun r => (({ s with deal := r.1 } : SharedLink),
          r.2.map SharedCall.rent)) = some r → sharedInv.Keeps s none r := by
      intro e hanswer hevent
      obtain ⟨⟨d, next⟩, happly, rfl⟩ := Option.map_eq_some_iff.1 hevent
      refine keeps (fun m h => ⟨h.moves, ?_⟩) (knows_map _)
      rw [CallInv.weigh_none, zero_add] at h
      rw [weigh_map]
      exact (TermsEvent.apply_leads h.deal hanswer happly).owned
    cases e with
    | answer status => cases hr
    | arrive c => exact hrent (fun _ => by simp) hr
    | status id next => exact hrent (fun _ => by simp) hr
    | subscriptionDeleted id => exact hrent (fun _ => by simp) hr
    | invoice i id paid => exact hrent (fun _ => by simp) hr
    | timeout => exact hrent (e := .timeout) (fun _ => by simp) hr
  | invite ctx member =>
    obtain rfl := Option.some.inj hr
    exact begins rfl trivial
  | respond ctx accept =>
    obtain rfl := Option.some.inj hr
    exact begins rfl trivial
  | endLink ctx =>
    obtain rfl := Option.some.inj hr
    exact begins rfl trivial
  | setInviteBlock ctx blocked =>
    obtain rfl := Option.some.inj hr
    exact begins rfl trivial

end SharedKept

/-! ## Runs -/

/-- A new link has no rent. -/
theorem SharedLink.sound_initial (host member : ℕ) (owner : Option ℕ) :
    (SharedLink.initial host member owner).Sound 0 where
  moves move hmove := by cases hmove
  deal := {
    owned := fun id hid => by
      have hnone : (SharedLink.initial host member owner).deal.lives id = false := rfl
      rw [hnone] at hid
      cases hid
    ended := fun _ => ⟨rfl, rfl⟩ }

theorem rent_ends_with_link {currency : String} {host member : ℕ} {owner : Option ℕ}
    {moves : List (Move SharedEvent SharedChance)} {x : Calls SharedLink SharedCall}
    (hmeets : (sharedCalls currency).machine.Meets (CallSystem.When (fun _ _ => True)
      fun k c s => c.keepsLink k s = true) (.idle (.initial host member owner)) moves)
    (hrun : (sharedCalls currency).machine.run (.idle (.initial host member owner)) moves =
      some x) :
    (∀ move ∈ x.shared.moves, LinkStatus.goes move.1 move.2 = true) ∧
      (x.quiet = true → x.shared.RentEnded) := by
  have hidle : sharedInv.Holds (.idle (SharedLink.initial host member owner)) :=
    CallInv.holds_idle (SharedLink.sound_initial host member owner)
  have hx : sharedInv.Holds x := by
    refine hidle.run ?_ ?_ hmeets hrun
    · intro e s r _ hevent
      exact SharedKept.event hevent
    · intro k c s r hkeeps hstep
      exact SharedKept.step hkeeps hstep
  exact ⟨hx.whole.moves, fun hquiet => SharedLink.Sound.ended (hx.quiet hquiet)⟩

/-- A step in which everything goes well. -/
def sharedChance : SharedChance where
  terms := goodCard 0
  fails := false
  updatedAt := 0

/-- The next steps of a call. -/
def sharedSteps (i n : ℕ) : List (Move SharedEvent SharedChance) :=
  List.replicate n (.step i sharedChance)

/-- An invite between the unit and the business of the professional. -/
def newSharedLink : SharedLink := .initial 1 2 (some 2)

/-- The invite is accepted, and the rent is set to 100. -/
def sharedAndRented : List (Move SharedEvent SharedChance) :=
  .event (.respond tenant true) :: sharedSteps 1 2 ++
    .event (.rent (.arrive (.setRent (owner 0) ⟨some 100, none⟩))) :: sharedSteps 2 2

/-- The professional authorises the rent, and the space ends the link. -/
def authorizedThenEnded : List (Move SharedEvent SharedChance) :=
  sharedAndRented ++ .event (.rent (.arrive (.authorize tenant ⟨true, true⟩))) ::
    sharedSteps 3 7 ++ .event (.endLink (owner 0)) :: sharedSteps 4 5

theorem authorized_then_ended : ∃ x,
    (sharedCalls "BRL").machine.run (.idle newSharedLink) authorizedThenEnded = some x ∧
    x.shared.moves = [(.active, .removed), (.pending, .active)] ∧
    (x.shared.deal.subs.get? 1).isSome = true ∧ x.shared.RentEnded := by
  have hmeets : (sharedCalls "BRL").machine.Meets (CallSystem.When (fun _ _ => True)
      fun k c s => c.keepsLink k s = true) (.idle newSharedLink) authorizedThenEnded := by
    decide +kernel
  have hsome : ((sharedCalls "BRL").machine.run (.idle newSharedLink) authorizedThenEnded).any
      (fun x => x.shared.moves == [(.active, .removed), (.pending, .active)] && x.quiet &&
        (x.shared.deal.subs.get? 1).isSome) = true := by
    decide +kernel
  simp only [Option.any_eq_true, Bool.and_eq_true, beq_iff_eq] at hsome
  obtain ⟨x, hrun, ⟨hmoves, hquiet⟩, hsub⟩ := hsome
  exact ⟨x, hrun, hmoves, hsub, (rent_ends_with_link hmeets hrun).2 hquiet⟩

/-- The professional accepts an invite that the space has cancelled since it was read. -/
def acceptedAcrossCancel : List (Move SharedEvent SharedChance) :=
  .event (.respond tenant true) :: sharedSteps 1 1 ++
    .event (.endLink (owner 0)) :: sharedSteps 2 2 ++ sharedSteps 1 1

/-- The space ends the link while the professional's subscription is not in it yet. -/
def endedAcrossAuthorize : List (Move SharedEvent SharedChance) :=
  sharedAndRented ++ .event (.rent (.arrive (.authorize tenant ⟨true, true⟩))) ::
    sharedSteps 3 6 ++ .event (.endLink (owner 0)) :: sharedSteps 4 3 ++ sharedSteps 3 1

/-- The professional leaves while the space sets the rent. -/
def endedAcrossSetRent : List (Move SharedEvent SharedChance) :=
  .event (.respond tenant true) :: sharedSteps 1 2 ++
    .event (.rent (.arrive (.setRent (owner 0) ⟨some 100, none⟩))) :: sharedSteps 2 1 ++
    .event (.endLink tenant) :: sharedSteps 3 3 ++ sharedSteps 2 1

/-- A cancelled invite becomes active; and at rest a link that was removed is charged, or waits for
the card of its rent. -/
theorem rent_outlives_link :
    (∃ x, (sharedCalls "BRL").machine.run (.idle newSharedLink) acceptedAcrossCancel = some x ∧
      (.cancelled, .active) ∈ x.shared.moves) ∧
    (∃ x, (sharedCalls "BRL").machine.run (.idle newSharedLink) endedAcrossAuthorize = some x ∧
      x.quiet = true ∧ x.shared.status = .removed ∧ x.shared.deal.lives 1 = true ∧
      x.shared.deal.link.rentStripeSubscriptionId = some 1 ∧ ¬x.shared.RentEnded) ∧
    ∃ x, (sharedCalls "BRL").machine.run (.idle newSharedLink) endedAcrossSetRent = some x ∧
      x.quiet = true ∧ x.shared.status = .removed ∧
      x.shared.deal.link.rentStatus = .awaitingPayment ∧ ¬x.shared.RentEnded := by
  refine ⟨?_, ?_, ?_⟩
  · have hsome : ((sharedCalls "BRL").machine.run (.idle newSharedLink) acceptedAcrossCancel).any
        (fun x => decide ((.cancelled, .active) ∈ x.shared.moves)) = true := by
      decide +kernel
    obtain ⟨x, hrun, hmem⟩ := (Option.any_eq_true _ _).1 hsome
    exact ⟨x, hrun, of_decide_eq_true hmem⟩
  · have hsome : ((sharedCalls "BRL").machine.run (.idle newSharedLink) endedAcrossAuthorize).any
        (fun x => x.quiet && x.shared.status == .removed && x.shared.deal.lives 1 &&
          x.shared.deal.link.rentStripeSubscriptionId == some 1) = true := by
      decide +kernel
    simp only [Option.any_eq_true, Bool.and_eq_true, beq_iff_eq] at hsome
    obtain ⟨x, hrun, ⟨⟨hquiet, hremoved⟩, hlives⟩, hsub⟩ := hsome
    refine ⟨x, hrun, hquiet, hremoved, hlives, hsub, fun hended => ?_⟩
    have hdead := (hended (by simp [hremoved])).2 1
    rw [hlives] at hdead
    cases hdead
  · have hsome : ((sharedCalls "BRL").machine.run (.idle newSharedLink) endedAcrossSetRent).any
        (fun x => x.quiet && x.shared.status == .removed &&
          x.shared.deal.link.rentStatus == .awaitingPayment) = true := by
      decide +kernel
    simp only [Option.any_eq_true, Bool.and_eq_true, beq_iff_eq] at hsome
    obtain ⟨x, hrun, ⟨hquiet, hremoved⟩, hrent⟩ := hsome
    refine ⟨x, hrun, hquiet, hremoved, hrent, fun hended => ?_⟩
    have hnone := (hended (by simp [hremoved])).1
    rw [hrent] at hnone
    cases hnone

end Barbershop
