import Barbershop.Plan.Checkout

/-!
# The active subscriptions of an account

Renewals, refunds, Stripe's webhooks and changes of plan, each by what it leaves of an account: the
owners of the subscriptions and the payments of the checkouts (`PlansKeep`), and the number of active
subscriptions, counting the free one that an expiry has yet to create (`PlanGoes.balance`).
`keepsOne` is what a step has to meet for the balance.
-/

namespace Barbershop

open Lib

/-! ## Active subscriptions -/

/-- How many subscriptions of the account are active. -/
def activePlans (u : ℕ) (t : Table PlatformSubscription) : ℕ :=
  (t.filter fun _ sub => sub.activeOf u).length

theorem activePlans_eq_sum (u : ℕ) (t : Table PlatformSubscription) :
    activePlans u t = t.sum fun _ sub => if sub.activeOf u then 1 else 0 := by
  unfold activePlans
  simpa using Table.length_filter (M := ℕ) t fun _ sub => sub.activeOf u

theorem activePlans_insert (u : ℕ) (t : Table PlatformSubscription) (sub : PlatformSubscription) :
    activePlans u (t.insert sub) = activePlans u t + if sub.activeOf u then 1 else 0 := by
  simp [activePlans_eq_sum]

/-- A write that leaves owner and status alone, or that writes the status it finds. -/
theorem activePlans_modify_eq (u : ℕ) {t : Table PlatformSubscription} {id : ℕ}
    (f : PlatformSubscription → PlatformSubscription)
    (hf : ∀ sub ∈ t.get? id, (f sub).activeOf u = sub.activeOf u) :
    activePlans u (t.modify id f) = activePlans u t := by
  rw [activePlans_eq_sum, activePlans_eq_sum]
  exact Table.sum_modify_eq f _ fun sub hsub => by rw [hf sub hsub]

/-- The end of an active subscription of the account. -/
theorem activePlans_modify_end (u : ℕ) {t : Table PlatformSubscription} {id : ℕ}
    {sub : PlatformSubscription} (f : PlatformSubscription → PlatformSubscription)
    (hid : t.get? id = some sub) (hactive : sub.activeOf u = true) (hf : (f sub).activeOf u = false) :
    activePlans u (t.modify id f) + 1 = activePlans u t := by
  have hsum := Table.sum_modify f (fun _ sub => if sub.activeOf u then 1 else 0) hid
  rw [activePlans_eq_sum, activePlans_eq_sum]
  simpa [hactive, hf] using hsum

/-! ## What every call keeps -/

/-- Between an earlier and a later row of a payment. -/
structure PlanPayment.SameCheckout (p p' : PlanPayment) : Prop where
  key : p'.renewalKey = p.renewalKey
  subscription : p'.subscriptionId = p.subscriptionId
  intent : ∀ id, p'.transactionId = some (.checkout id) ↔ p.transactionId = some (.checkout id)

theorem PlanPayment.SameCheckout.refl (p : PlanPayment) : p.SameCheckout p :=
  ⟨rfl, rfl, fun _ => .rfl⟩

theorem PlanPayment.SameCheckout.trans {p q r : PlanPayment} (h : p.SameCheckout q)
    (h' : q.SameCheckout r) : p.SameCheckout r where
  key := h'.key.trans h.key
  subscription := h'.subscription.trans h.subscription
  intent id := (h'.intent id).trans (h.intent id)

/-- Between an earlier and a later state: subscriptions keep their owners and payments their
checkouts, and a new payment is of no checkout. -/
structure PlansKeep (s s' : Plans) : Prop where
  owner : ∀ {i sub}, s.subscriptions.get? i = some sub →
    ∃ sub', s'.subscriptions.get? i = some sub' ∧ sub'.userId = sub.userId
  row : ∀ {i p}, s.payments.get? i = some p →
    ∃ p', s'.payments.get? i = some p' ∧ p.SameCheckout p'
  new : ∀ {i p'}, s'.payments.get? i = some p' → s.payments.get? i = none →
    ∀ id, p'.transactionId ≠ some (.checkout id)

namespace PlansKeep

variable {s s' s'' : Plans}

theorem of_eq (hsubs : s'.subscriptions = s.subscriptions) (hpayments : s'.payments = s.payments) :
    PlansKeep s s' where
  owner hi := ⟨_, hsubs ▸ hi, rfl⟩
  row hi := ⟨_, hpayments ▸ hi, .refl _⟩
  new hi hnone := by
    rw [hpayments, hnone] at hi
    cases hi

theorem refl (s : Plans) : PlansKeep s s := .of_eq rfl rfl

theorem trans (h : PlansKeep s s') (h' : PlansKeep s' s'') : PlansKeep s s'' where
  owner hi := by
    obtain ⟨sub', hi', howner⟩ := h.owner hi
    obtain ⟨sub'', hi'', howner'⟩ := h'.owner hi'
    exact ⟨sub'', hi'', howner'.trans howner⟩
  row hi := by
    obtain ⟨p', hi', hp⟩ := h.row hi
    obtain ⟨p'', hi'', hp'⟩ := h'.row hi'
    exact ⟨p'', hi'', hp.trans hp'⟩
  new := by
    intro i p'' hi hnone id heq
    cases hmid : s'.payments.get? i with
    | none => exact h'.new hi hmid id heq
    | some p' =>
      obtain ⟨q, hq, hsame⟩ := h'.row hmid
      obtain rfl := Option.some.inj (hi.symm.trans hq)
      exact h.new hmid hnone id ((hsame.intent id).1 heq)

theorem modify_subscription (s : Plans) (id : ℕ) {f : PlatformSubscription → PlatformSubscription}
    (hf : ∀ sub, (f sub).userId = sub.userId) :
    PlansKeep s { s with subscriptions := s.subscriptions.modify id f } where
  owner {i sub} hi := by
    rw [Table.get?_modify, hi]
    split
    · exact ⟨f sub, rfl, hf sub⟩
    · exact ⟨sub, rfl, rfl⟩
  row hi := ⟨_, hi, .refl _⟩
  new hi hnone := by
    rw [hnone] at hi
    cases hi

theorem insert_subscription (s : Plans) (sub : PlatformSubscription) :
    PlansKeep s { s with subscriptions := s.subscriptions.insert sub } where
  owner hi := ⟨_, Table.get?_insert_of_some _ hi, rfl⟩
  row hi := ⟨_, hi, .refl _⟩
  new hi hnone := by
    rw [hnone] at hi
    cases hi

theorem modify_payment (s : Plans) {id : ℕ} {f : PlanPayment → PlanPayment}
    (hf : ∀ p ∈ s.payments.get? id, p.SameCheckout (f p)) :
    PlansKeep s { s with payments := s.payments.modify id f } where
  owner hi := ⟨_, hi, rfl⟩
  row {i p} hi := by
    rw [Table.get?_modify, hi]
    split
    · next hid => exact ⟨f p, rfl, hf p (hid ▸ hi)⟩
    · exact ⟨p, rfl, .refl p⟩
  new hi hnone := by
    rw [Table.get?_modify, hnone] at hi
    split at hi <;> cases hi

theorem insert_payment (s : Plans) {p : PlanPayment}
    (hp : ∀ id, p.transactionId ≠ some (.checkout id)) :
    PlansKeep s { s with payments := s.payments.insert p } where
  owner hi := ⟨_, hi, rfl⟩
  row hi := ⟨_, Table.get?_insert_of_some _ hi, .refl _⟩
  new hi hnone := by
    rw [Table.get?_insert] at hi
    split at hi
    · obtain rfl := Option.some.inj hi
      exact hp
    · rw [hnone] at hi
      cases hi

end PlansKeep

/-! ## What a step does -/

/-- A call has moved on, or ended; `n` is the number of free subscriptions that it had yet to
create for the account, and `weight` what it has yet to create. -/
structure PlanGoes (u : ℕ) {τ : Type} (weight : τ → ℕ) (ok : Plans → τ → Prop) (n : ℕ)
    (s s' : Plans) (c : Option τ) : Prop where
  keep : PlansKeep s s'
  balance : activePlans u s'.subscriptions + c.elim 0 weight = activePlans u s.subscriptions + n
  ok : ∀ a ∈ c, ok s' a

namespace PlanGoes

variable {u : ℕ} {τ τ' : Type} {weight : τ → ℕ} {weight' : τ' → ℕ} {ok : Plans → τ → Prop}
  {ok' : Plans → τ' → Prop} {n : ℕ} {s s' : Plans}

/-- A write that leaves the number of active subscriptions alone, of a call that goes on. -/
theorem next (h : PlansKeep s s')
    (hactive : activePlans u s'.subscriptions = activePlans u s.subscriptions) {c : τ}
    (hweight : weight c = n) (hok : ok s' c) : PlanGoes u weight ok n s s' (some c) :=
  ⟨h, by simp [hactive, hweight], by simpa using hok⟩

theorem done (h : PlansKeep s s')
    (hactive : activePlans u s'.subscriptions = activePlans u s.subscriptions) :
    PlanGoes u weight ok 0 s s' none := ⟨h, by simp [hactive], by simp⟩

/-- A call that only looked, and goes on. -/
theorem look {c : τ} (hweight : weight c = n) (hok : ok s c) : PlanGoes u weight ok n s s (some c) :=
  .next (.refl s) rfl hweight hok

theorem stop : PlanGoes u weight ok 0 s s none := .done (.refl s) rfl

/-- A call inside another. -/
theorem within {ρ ρ' : Type} {p : Progress τ ρ} {wrap : τ → τ'} {after : ρ → Progress τ' ρ'}
    (h : PlanGoes u weight ok n s s' p.running) (hweight : ∀ c, weight' (wrap c) = weight c)
    (hok : ∀ c, ok s' c → ok' s' (wrap c))
    (hafter : ∀ r, ∀ c' ∈ (after r).running, weight' c' = 0 ∧ ok' s' c') :
    PlanGoes u weight' ok' n s s' (p.within wrap after).running := by
  obtain ⟨hkeep, hbalance, hcalls⟩ := h
  cases p with
  | next c => exact ⟨hkeep, by simpa [Progress.within, hweight] using hbalance,
      by simpa [Progress.within] using hok c (hcalls c rfl)⟩
  | done r =>
    refine ⟨hkeep, ?_, fun c' hc' => (hafter r c' hc').2⟩
    simp only [Progress.running_done, Option.elim_none, add_zero] at hbalance
    rw [Progress.within, hbalance.symm]
    cases hc : (after r).running with
    | none => simp
    | some c' => simp [(hafter r c' hc).1]

/-- A call that is the last thing another does. -/
theorem last {ρ ρ' : Type} {p : Progress τ ρ} {wrap : τ → τ'} {out : ρ → ρ'}
    (h : PlanGoes u weight ok n s s' p.running) (hweight : ∀ c, weight' (wrap c) = weight c)
    (hok : ∀ c, ok s' c → ok' s' (wrap c)) :
    PlanGoes u weight' ok' n s s' (p.within wrap fun r => .done (out r)).running :=
  h.within hweight hok fun _ => by simp

end PlanGoes

/-! ## The pieces -/

section Pieces

variable {cat : PlanCatalog} {k : RenewalChance} {u : ℕ} {s : Plans}

/-- The row under a key is the account's. -/
def Plans.OwnedBy (s : Plans) (id userId : ℕ) : Prop :=
  ∃ sub, s.subscriptions.get? id = some sub ∧ sub.userId = userId

/-- The payment under a key is of a renewal. -/
def Plans.Keyed (s : Plans) (id : ℕ) : Prop :=
  ∃ p, s.payments.get? id = some p ∧ p.renewalKey ≠ none

theorem Plans.OwnedBy.keep {s' : Plans} {id userId : ℕ} (h : s.OwnedBy id userId)
    (hk : PlansKeep s s') : s'.OwnedBy id userId := by
  obtain ⟨sub, hsub, howner⟩ := h
  obtain ⟨sub', hsub', howner'⟩ := hk.owner hsub
  exact ⟨sub', hsub', howner'.trans howner⟩

theorem Plans.Keyed.keep {s' : Plans} {id : ℕ} (h : s.Keyed id) (hk : PlansKeep s s') :
    s'.Keyed id := by
  obtain ⟨p, hp, hkey⟩ := h
  obtain ⟨p', hp', hsame⟩ := hk.row hp
  exact ⟨p', hp', hsame.key ▸ hkey⟩

namespace ExpireSubscription

/-- The free subscriptions that the call has yet to create. -/
def creates (u : ℕ) : ExpireSubscription → ℕ
  | creating userId => if userId = u then 1 else 0
  | deactivating .. => 0

/-- It ends an active subscription, and there is a free plan. -/
def keepsOne (cat : PlanCatalog) (u : ℕ) (s : Plans) : ExpireSubscription → Bool
  | deactivating id userId => userId != u || (s.subscriptions.get? id).any (·.status == .active)
  | creating userId => userId != u || cat.freePlan.isSome

def Belongs (s : Plans) : ExpireSubscription → Prop
  | deactivating id userId => s.OwnedBy id userId
  | creating _ => True

theorem planGoes (c : ExpireSubscription) (hok : c.Belongs s)
    (hone : c.keepsOne cat u s = true) :
    PlanGoes u (creates u) Belongs (c.creates u) s (c.step cat s).1 (c.step cat s).2.running := by
  cases c with
  | deactivating id userId =>
    obtain ⟨sub, hid, rfl⟩ := hok
    refine ⟨.modify_subscription s id fun _ => rfl, ?_, fun _ h => by cases h; trivial⟩
    simp only [step, Progress.running_next, Option.elim_some, creates, add_zero]
    by_cases howner : sub.userId = u
    · have hactive : sub.activeOf u = true := by
        simpa [keepsOne, howner, hid, PlatformSubscription.activeOf] using hone
      rw [if_pos howner]
      exact activePlans_modify_end u _ hid hactive (by simp [PlatformSubscription.activeOf])
    · rw [if_neg howner, add_zero]
      refine activePlans_modify_eq u _ fun sub' hsub' => ?_
      obtain rfl := Option.some.inj (hid.symm.trans hsub')
      have hother : (sub.userId == u) = false := by simpa using howner
      simp [PlatformSubscription.activeOf, hother]
  | creating userId =>
    simp only [step]
    cases hfree : cat.freePlan with
    | none =>
      have howner : userId ≠ u := by simpa [keepsOne, hfree] using hone
      simp only [creates, howner, if_false]
      exact .stop
    | some planId =>
      refine ⟨.insert_subscription s _, ?_, by simp⟩
      simp [activePlans_insert, creates, free, PlatformSubscription.activeOf]

end ExpireSubscription

namespace MarkRenewalFailed

theorem planGoes (c : MarkRenewalFailed) :
    PlanGoes u (fun _ => 0) (fun _ _ => True) 0 s (c.step k s).1 (c.step k s).2.running := by
  cases c with
  | marking id =>
    simp only [step]
    split
    · exact .stop
    · have hkeep : PlansKeep s { s with
          payments := s.payments.modify id fun p => { p with status := .failed } } :=
        .modify_payment s fun p _ => ⟨rfl, rfl, fun _ => .rfl⟩
      exact .next hkeep rfl rfl trivial
  | dating id seen =>
    exact .done (.modify_subscription s id fun _ => rfl) (activePlans_modify_eq u _ fun _ _ => rfl)

end MarkRenewalFailed

namespace FinalizeRenewal

/-- A pending payment is settled only while its subscription is active. -/
def keepsOne (u : ℕ) (s : Plans) : FinalizeRenewal → Bool
  | reading _ => true
  | committing id subscriptionId _ => !(s.payments.get? id).any (·.status == .pending) ||
      (s.subscriptions.get? subscriptionId).all fun sub => sub.userId != u || sub.status == .active

theorem planGoes (c : FinalizeRenewal) (hone : c.keepsOne u s = true) :
    PlanGoes u (fun _ => 0) (fun _ _ => True) 0 s (c.step k s).1 (c.step k s).2.running := by
  cases c with
  | reading id =>
    simp only [step]
    split
    · exact .stop
    · split
      · exact .stop
      · exact .look rfl trivial
  | committing id subscriptionId next =>
    simp only [step, commit]
    split
    · exact .stop
    · next payments hmod =>
      obtain ⟨p, hp, hpending, rfl⟩ := Table.tryModify_eq_some.1 hmod
      have hkeep : PlansKeep s { s with payments := s.payments.modify id (complete k.now) } :=
        .modify_payment s fun p _ => ⟨rfl, rfl, fun _ => .rfl⟩
      have hsub : ∀ s' : Plans, PlansKeep s' { s' with
          subscriptions := s'.subscriptions.modify subscriptionId (renewed next) } :=
        fun s' => .modify_subscription s' subscriptionId fun _ => rfl
      refine .done ((hkeep.trans (hsub _)).trans (.of_eq rfl rfl)) ?_
      refine activePlans_modify_eq u _ fun sub hsub => ?_
      have hsub := Option.mem_def.1 hsub
      simp only [keepsOne, hp, hsub, hpending, Option.any_some, Option.all_some, Bool.not_true,
        Bool.false_or, Bool.or_eq_true, bne_iff_ne, beq_iff_eq] at hone
      rcases hone with howner | hactive
      · simp [renewed, PlatformSubscription.activeOf, howner]
      · simp [renewed, PlatformSubscription.activeOf, hactive]

end FinalizeRenewal

end Pieces

/-! ## Renewals -/

section Renewals

variable {cat : PlanCatalog} {k : RenewalChance} {u : ℕ} {s : Plans}

/-- The payments of checkouts are not those of renewals. -/
def Plans.Apart (s : Plans) : Prop :=
  ∀ {i p}, s.payments.get? i = some p → p.renewalKey ≠ none →
    ∀ id, p.transactionId ≠ some (.checkout id)

/-- The note of an intent on the payment of a renewal. -/
theorem Plans.Apart.withTransaction (h : s.Apart) {id : ℕ} (hkeyed : s.Keyed id)
    (key : RenewalKey) : PlansKeep s { s with
      payments := s.payments.modify id (RenewSubscription.withTransaction key) } := by
  refine .modify_payment s fun p hp => ?_
  obtain ⟨p', hp', hkey⟩ := hkeyed
  obtain rfl := Option.some.inj (Eq.trans hp.symm hp')
  refine ⟨rfl, rfl, fun pi => ⟨fun heq => ?_, fun heq => absurd heq (h hp hkey pi)⟩⟩
  simp [RenewSubscription.withTransaction] at heq

namespace ReconcileRenewal

def keepsOne (u : ℕ) (s : Plans) : ReconcileRenewal → Bool
  | finalizing c => c.keepsOne u s
  | _ => true

def Belongs (s : Plans) : ReconcileRenewal → Prop
  | reading id | searching id _ | recording id _ => s.Keyed id
  | _ => True

theorem planGoes (c : ReconcileRenewal) (hok : c.Belongs s) (hone : c.keepsOne u s = true)
    (hapart : s.Apart) :
    PlanGoes u (fun _ => 0) Belongs 0 s (c.step k s).1 (c.step k s).2.running := by
  cases c with
  | reading id =>
    simp only [step]
    split
    · exact .stop
    · split
      · exact .stop
      · split
        · exact .look rfl trivial
        · exact .stop
        · split
          · exact .stop
          · exact .look rfl hok
  | searching id seen =>
    simp only [step]
    split
    · exact .look rfl trivial
    · exact .look rfl hok
  | recording id key => exact .next (hapart.withTransaction hok key) rfl rfl trivial
  | retrieving id key =>
    simp only [step]
    split
    · exact .stop
    · exact .look rfl trivial
    · exact .stop
    · exact .stop
    · exact .look rfl trivial
  | finalizing c => exact (c.planGoes hone).last (fun _ => rfl) fun _ _ => trivial
  | failing c => exact c.planGoes.last (fun _ => rfl) fun _ _ => trivial

end ReconcileRenewal

namespace RenewSubscription

def creates (u : ℕ) : RenewSubscription → ℕ
  | expiring c => c.creates u
  | _ => 0

def keepsOne (cat : PlanCatalog) (u : ℕ) (s : Plans) : RenewSubscription → Bool
  | reconciling _ c => c.keepsOne u s
  | finalizing c => c.keepsOne u s
  | expiring c => c.keepsOne cat u s
  | _ => true

def Belongs (s : Plans) : RenewSubscription → Prop
  | switching d _ | advancing d | looking d | throttling d | counting d | claiming d _ =>
    s.OwnedBy d.subscriptionId d.userId
  | reconciling d c => s.OwnedBy d.subscriptionId d.userId ∧ c.Belongs s
  | choosing _ _ id | charging _ _ id | refused id _ | recording id _ _ => s.Keyed id
  | expiring c => c.Belongs s
  | _ => True

variable {d : DueRenewal}

theorem creates_priced (d : DueRenewal) : (priced cat d).creates u = 0 := by
  unfold priced
  split <;> rfl

theorem creates_tolerated (d : DueRenewal) : (tolerated d).creates u = 0 := by
  unfold tolerated
  split <;> rfl

theorem creates_afterPending (d : DueRenewal) : (afterPending d).creates u = 0 := by
  unfold afterPending
  split
  · rfl
  · exact creates_tolerated d

theorem belongs_priced (h : s.OwnedBy d.subscriptionId d.userId) : (priced cat d).Belongs s := by
  unfold priced
  split <;> exact h

theorem belongs_tolerated (h : s.OwnedBy d.subscriptionId d.userId) : (tolerated d).Belongs s := by
  unfold tolerated
  split <;> exact h

theorem belongs_afterPending (h : s.OwnedBy d.subscriptionId d.userId) :
    (afterPending d).Belongs s := by
  unfold afterPending
  split
  · exact h
  · exact belongs_tolerated h

/-- A charge writes nothing but Stripe's intents. -/
theorem keep_charge (key : RenewalKey) (amount : ℤ) :
    PlansKeep s (s.chargeOffSession key amount k).1 ∧
      (s.chargeOffSession key amount k).1.subscriptions = s.subscriptions := by
  unfold Plans.chargeOffSession
  split
  · exact ⟨.refl s, rfl⟩
  · cases k.charge.created with
    | none => exact ⟨.refl s, rfl⟩
    | some status => exact ⟨.of_eq rfl rfl, rfl⟩

theorem planGoes (c : RenewSubscription) (hok : c.Belongs s) (hone : c.keepsOne cat u s = true)
    (hapart : s.Apart) : PlanGoes u (creates u) Belongs (c.creates u) s (c.step cat k s).1
      (c.step cat k s).2.running := by
  cases c with
  | reading id ignoreDailyLimit =>
    simp only [step]
    split
    · exact .stop
    · next sub periodEnd hfound =>
      obtain ⟨sub', hsub, hmap⟩ := Option.bind_eq_some_iff.1 hfound
      obtain ⟨_, _, heq⟩ := Option.map_eq_some_iff.1 hmap
      obtain ⟨rfl, rfl⟩ := Prod.mk.inj heq
      split
      · exact .stop
      · split
        · exact .look rfl ⟨sub', hsub, rfl⟩
        · split
          · exact .look (creates_priced _) (belongs_priced ⟨sub', hsub, rfl⟩)
          · exact .look rfl ⟨sub', hsub, rfl⟩
  | switching d planId =>
    simp only [step]
    split
    · exact .look (creates_priced d) (belongs_priced hok)
    · next subscriptions hmod =>
      obtain ⟨_, _, _, rfl⟩ := Table.tryModify_eq_some.1 hmod
      have hkeep : PlansKeep s { s with
          subscriptions := s.subscriptions.modify d.subscriptionId fun sub =>
            { sub with planId := planId, pendingPlanId := none } } :=
        .modify_subscription s d.subscriptionId fun _ => rfl
      have howned : Plans.OwnedBy _ d.subscriptionId d.userId := Plans.OwnedBy.keep hok hkeep
      exact .next hkeep (activePlans_modify_eq u _ fun _ _ => rfl) (creates_priced _)
        (belongs_priced howned)
  | advancing d =>
    simp only [step]
    split
    · exact .stop
    · next subscriptions hmod =>
      obtain ⟨_, _, _, rfl⟩ := Table.tryModify_eq_some.1 hmod
      exact .done (.modify_subscription s d.subscriptionId fun _ => rfl)
        (activePlans_modify_eq u _ fun _ _ => rfl)
  | looking d =>
    simp only [step]
    split
    · exact .look (creates_afterPending d) (belongs_afterPending hok)
    · next id p hfind =>
      obtain ⟨hp, hattempt⟩ := Table.find?_some hfind
      refine .look rfl ⟨hok, p, hp, fun hnone => ?_⟩
      simp [DueRenewal.attempts, hnone] at hattempt
  | reconciling d c =>
    have hgoes := c.planGoes (k := k) hok.2 hone hapart
    have howned := hok.1.keep hgoes.keep
    refine hgoes.within (fun _ => rfl) (fun _ hc => ⟨howned, hc⟩) fun out => ?_
    split
    · simpa using ⟨creates_afterPending d, belongs_afterPending howned⟩
    · simp
  | throttling d =>
    simp only [step]
    split
    · exact .stop
    · exact .look (creates_tolerated d) (belongs_tolerated hok)
  | counting d => exact .look rfl hok
  | claiming d attempt =>
    simp only [step]
    split
    · exact .stop
    · refine .next (.insert_payment s fun pi => by simp [claim]) rfl rfl ?_
      exact ⟨claim cat d attempt, Table.get?_insert_self _ _, by simp [claim]⟩
  | choosing d attempt id =>
    simp only [step]
    split
    · exact .look rfl hok
    · exact .look rfl trivial
  | charging d attempt id =>
    obtain ⟨hkeep, hsubs⟩ := keep_charge (s := s) (k := k) (d.key attempt)
      (roundHalfUp ((cat.plans d.planId).price * 100))
    have hactive := congrArg (activePlans u) hsubs
    have hkeyed := Plans.Keyed.keep hok hkeep
    simp only [step]
    split
    · exact .next hkeep hactive rfl hkeyed
    · exact .next hkeep hactive rfl hkeyed
    · exact .next hkeep hactive rfl trivial
    · exact .done hkeep hactive
  | refused id key => exact .next (hapart.withTransaction hok key) rfl rfl trivial
  | recording id key status =>
    simp only [step]
    split
    · exact .next (hapart.withTransaction hok key) rfl rfl trivial
    · exact .done (hapart.withTransaction hok key) rfl
  | finalizing c => exact (c.planGoes hone).last (fun _ => rfl) fun _ _ => trivial
  | failing c => exact c.planGoes.last (fun _ => rfl) fun _ _ => trivial
  | expiring c => exact (c.planGoes hok hone).last (fun _ => rfl) fun _ hc => hc

end RenewSubscription

namespace RenewalCall

def creates (u : ℕ) : RenewalCall → ℕ
  | renew c => c.creates u
  | webhook _ => 0

def keepsOne (cat : PlanCatalog) (u : ℕ) (s : Plans) : RenewalCall → Bool
  | renew c => c.keepsOne cat u s
  | webhook (.finalizing _ c) => c.keepsOne u s
  | webhook (.finding _) => true

def Belongs (s : Plans) : RenewalCall → Prop
  | renew c => c.Belongs s
  | webhook _ => True

theorem planGoes (c : RenewalCall) (hok : c.Belongs s) (hone : c.keepsOne cat u s = true)
    (hapart : s.Apart) :
    PlanGoes u (creates u) Belongs (c.creates u) s (c.step cat k s).1 (c.step cat k s).2 := by
  cases c with
  | renew c =>
    have hgoes := c.planGoes (k := k) hok hone hapart
    refine ⟨hgoes.keep, ?_, Option.forall_mem_map.2 hgoes.ok⟩
    simpa [step, creates, Option.elim_map, Function.comp_def] using hgoes.balance
  | webhook c => cases c with
    | finding key =>
      simp only [step, RenewalWebhook.step]
      split
      · exact .done (.of_eq rfl rfl) rfl
      · exact .look rfl trivial
    | finalizing key c =>
      have hgoes := c.planGoes (k := k) (u := u) hone
      simp only [step, RenewalWebhook.step]
      split
      · next heq =>
        rw [heq] at hgoes
        exact ⟨hgoes.keep, by simpa [creates] using hgoes.balance, by simp [Belongs]⟩
      · next s' _ heq =>
        rw [heq] at hgoes
        have hactive : activePlans u s'.subscriptions = activePlans u s.subscriptions := by
          simpa using hgoes.balance
        exact .done (hgoes.keep.trans (.of_eq rfl rfl)) hactive

end RenewalCall

theorem RenewalEvent.planGoes {e : RenewalEvent} {r : Plans × Option RenewalCall}
    (hr : e.begin s = some r) :
    PlanGoes u (RenewalCall.creates u) RenewalCall.Belongs 0 s r.1 r.2 := by
  cases e with
  | renew id ignoreDailyLimit =>
    obtain rfl := Option.some.inj hr
    exact .look rfl trivial
  | webhook key =>
    obtain ⟨-, heq⟩ := Option.ite_none_right_eq_some.1 hr
    obtain rfl := Option.some.inj heq
    exact .look rfl trivial
  | settle key status =>
    simp only [RenewalEvent.begin] at hr
    split at hr
    · cases hr
    · obtain ⟨-, heq⟩ := Option.ite_none_left_eq_some.1 hr
      obtain rfl := Option.some.inj heq
      exact .done (.of_eq rfl rfl) rfl

end Renewals

/-! ## Refunds, Stripe's subscriptions and changes of plan -/

section Others

variable {cat : PlanCatalog} {k : PlanChance} {u : ℕ}

@[simp] theorem Accounts.plans_giveBack (s : Accounts) (intent : PlanIntent) :
    (s.giveBack intent).plans = s.plans := by
  cases intent with
  | checkout id =>
    simp only [Accounts.giveBack]
    cases s.checkouts id <;> rfl
  | renewal key => rfl
  | upgrade subscriptionId planId periodEnd => rfl

namespace RefundPlan

def creates (u : ℕ) : RefundPlan → ℕ
  | expiring c => c.creates u
  | _ => 0

def keepsOne (cat : PlanCatalog) (u : ℕ) (s : Plans) : RefundPlan → Bool
  | expiring c => c.keepsOne cat u s
  | _ => true

def Belongs (s : Plans) : RefundPlan → Prop
  | dating _ subscriptionId userId => s.OwnedBy subscriptionId userId
  | expiring c => c.Belongs s
  | _ => True

theorem planGoes {s : Accounts} (c : RefundPlan) (hok : c.Belongs s.plans)
    (hone : c.keepsOne cat u s.plans = true) :
    PlanGoes u (creates u) Belongs (c.creates u) s.plans (c.step cat k s).1.plans
      (c.step cat k s).2.running := by
  cases c with
  | refunding id =>
    simp only [step]
    split
    · exact .stop
    · split
      · exact .stop
      · split
        · simp only [Accounts.plans_giveBack]
          exact .look rfl trivial
        · exact .stop
  | finding intent =>
    simp only [step]
    split
    · exact .stop
    · exact .look rfl trivial
  | marking id =>
    simp only [step]
    split
    · exact .stop
    · next payments hmod =>
      obtain ⟨_, _, _, rfl⟩ := Table.tryModify_eq_some.1 hmod
      have hkeep : PlansKeep s.plans { s.plans with
          payments := s.plans.payments.modify id fun p => { p with status := .refunded } } :=
        .modify_payment s.plans fun p _ => ⟨rfl, rfl, fun _ => .rfl⟩
      exact .next hkeep rfl rfl trivial
  | reading id =>
    simp only [step]
    split
    · exact .stop
    · next payment sub hfound =>
      obtain ⟨payment', _, hmap⟩ := Option.bind_eq_some_iff.1 hfound
      obtain ⟨sub', hsub, heq⟩ := Option.map_eq_some_iff.1 hmap
      obtain ⟨rfl, rfl⟩ := Prod.mk.inj heq
      split
      · exact .stop
      · split
        · split
          · exact .stop
          · exact .look rfl trivial
        · exact .look rfl ⟨sub', hsub, rfl⟩
  | restoring id planId =>
    exact .done (.modify_subscription s.plans id fun _ => rfl)
      (activePlans_modify_eq u _ fun _ _ => rfl)
  | dating id subscriptionId userId =>
    simp only [step]
    split
    · exact .look rfl hok
    · exact .stop
  | expiring c => exact (c.planGoes hok hone).last (fun _ => rfl) fun _ hc => hc

end RefundPlan

namespace SubscriptionWebhook

def creates (u : ℕ) : SubscriptionWebhook → ℕ
  | releasing c => c.creates u
  | _ => 0

/-- It makes active what is active, and inactive what is not. -/
def keepsOne (cat : PlanCatalog) (u : ℕ) (s : Plans) : SubscriptionWebhook → Bool
  | activating id =>
    (s.subscriptions.get? id).all fun sub => sub.userId != u || sub.status == .active
  | deactivating id => (s.subscriptions.get? id).all fun sub => !sub.activeOf u
  | releasing c => c.keepsOne cat u s
  | _ => true

def Belongs (s : Plans) : SubscriptionWebhook → Prop
  | releasing c => c.Belongs s
  | _ => True

theorem planGoes {s : Plans} (c : SubscriptionWebhook) (hok : c.Belongs s)
    (hone : c.keepsOne cat u s = true) :
    PlanGoes u (creates u) Belongs (c.creates u) s (c.step cat s).1 (c.step cat s).2.running := by
  cases c with
  | updated stripeId status =>
    simp only [step]
    split
    · exact .stop
    · next id sub hfind =>
      obtain ⟨hsub, -⟩ := Table.find?_some hfind
      have howned : s.OwnedBy id sub.userId := ⟨sub, hsub, rfl⟩
      cases status with
      | canceled | unpaid | incomplete_expired => exact .look rfl howned
      | active | trialing | past_due => exact .look rfl trivial
      | incomplete | paused => exact .stop
  | deleted stripeId =>
    simp only [step]
    split
    · exact .stop
    · exact .look rfl trivial
  | activating id =>
    refine .done (.modify_subscription s id fun _ => rfl) (activePlans_modify_eq u _ fun sub hsub => ?_)
    have hsub := Option.mem_def.1 hsub
    simp only [keepsOne, hsub, Option.all_some, Bool.or_eq_true, bne_iff_ne, beq_iff_eq] at hone
    rcases hone with howner | hactive
    · simp [PlatformSubscription.activeOf, howner]
    · simp [PlatformSubscription.activeOf, hactive]
  | deactivating id =>
    refine .done (.modify_subscription s id fun _ => rfl) (activePlans_modify_eq u _ fun sub hsub => ?_)
    have hsub := Option.mem_def.1 hsub
    simp only [keepsOne, hsub, Option.all_some, Bool.not_eq_true'] at hone
    rw [hone]
    simp [PlatformSubscription.activeOf]
  | releasing c => exact (c.planGoes hok hone).last (fun _ => rfl) fun _ hc => hc

end SubscriptionWebhook

theorem ChangePlan.planGoes {s : Plans} (c : ChangePlan) :
    PlanGoes u (fun _ => 0) (fun _ _ => True) 0 s (c.step cat k s).1 (c.step cat k s).2.running := by
  have hwrite : ∀ id {f : PlatformSubscription → PlatformSubscription},
      (∀ sub, (f sub).userId = sub.userId ∧ (f sub).status = sub.status) →
        PlanGoes u (fun _ : ChangePlan => 0) (fun _ _ => True) 0 s
          { s with subscriptions := s.subscriptions.modify id f } none :=
    fun id f hf => .done (.modify_subscription s id fun sub => (hf sub).1)
      (activePlans_modify_eq u f fun sub _ => by simp [PlatformSubscription.activeOf, hf sub])
  cases c with
  | reading userId newPlanId =>
    simp only [step]
    split
    · exact .stop
    · exact .look rfl trivial
  | keeping id => exact hwrite id fun _ => ⟨rfl, rfl⟩
  | scheduling id newPlanId => exact hwrite id fun _ => ⟨rfl, rfl⟩
  | charging c =>
    simp only [step]
    split
    · exact .look rfl trivial
    · split
      · exact .look rfl trivial
      · exact .stop
  | recording c =>
    simp only [step]
    split
    · exact .look rfl trivial
    · exact .look rfl trivial
  | creating c =>
    have hkeep : PlansKeep s { s with payments := s.payments.insert (c.payment cat) } :=
      .insert_payment s fun id => by simp [PlanUpgrade.payment, PlanUpgrade.intent]
    exact .next hkeep rfl rfl trivial
  | switching id newPlanId periodEnd => exact hwrite id fun _ => ⟨rfl, rfl⟩

end Others

end Barbershop
