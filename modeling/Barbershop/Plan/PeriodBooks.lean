import Barbershop.Plan.Active
import Barbershop.Plan.Period

/-!
# The books of the periods

`PeriodBooks` is what holds of the periods at rest, and, but for one subscription, while a refund is
under way. `PeriodBooks.step` carries it over a step that touches at most one subscription; checkouts
and renewals keep it.
-/

namespace Barbershop

open Lib

/-! ## The books -/

section Books

variable (g : ℕ → PlanPeriod) (s : Plans)

/-- The payments that a period remembers are of its subscription. -/
structure PeriodOwned (id : ℕ) : Prop where
  upgrades : ∀ {p}, p ∈ (g id).upgrades → ∃ row, s.payments.get? p = some row ∧
    row.subscriptionId = id ∧ row.kind = some .plan_upgrade
  opener : ∀ {p}, (g id).opener = some p → ∃ row, s.payments.get? p = some row ∧
    row.subscriptionId = id ∧ row.kind = none

def PeriodRestored (id : ℕ) : Prop :=
  ∀ sub, s.subscriptions.get? id = some sub → sub.stripeSubscriptionId = none →
    s.allRefunded (g id).upgrades = true → (g id).base = some (sub.planId, sub.currentPeriodEnd)

def PeriodEnded (id : ℕ) : Prop :=
  ∀ sub p, s.subscriptions.get? id = some sub → sub.stripeSubscriptionId = none →
    (g id).opener = some p → s.refunded p = true → sub.status = .inactive

/-- The periods are as they should be, but for the subscription `torn` that is to get its plan back,
and `ending` that is to end. -/
structure PeriodBooks (torn ending : Option ℕ) : Prop where
  owned : ∀ id, PeriodOwned g s id
  fresh : ∀ {id}, s.subscriptions.next ≤ id → g id = .unseen
  keyed : ∀ {id p}, s.payments.get? id = some p → p.renewalKey.isSome = true → p.kind = none
  restored : ∀ {id}, some id ≠ torn → PeriodRestored g s id
  ended : ∀ {id}, some id ≠ ending → PeriodEnded g s id

end Books

/-- What a step leaves of the subscriptions, but for `k`. -/
structure SubscriptionsKept (k : Option ℕ) (t t' : Table PlatformSubscription) : Prop where
  next : t.next ≤ t'.next
  rows : ∀ {id sub'}, some id ≠ k → t'.get? id = some sub' →
    t.next ≤ id ∨ ∃ sub, t.get? id = some sub ∧
      sub'.stripeSubscriptionId = sub.stripeSubscriptionId ∧ sub'.planId = sub.planId ∧
        sub'.currentPeriodEnd = sub.currentPeriodEnd ∧
          (sub.status = .inactive → sub'.status = .inactive)

/-- What a step leaves of the payments: no other than those of `k` are refunded by it. -/
structure PaymentsKept (k : Option ℕ) (t t' : Table PlanPayment) : Prop where
  rows : ∀ {id p}, t.get? id = some p → ∃ p', t'.get? id = some p' ∧
    p'.subscriptionId = p.subscriptionId ∧ p'.kind = p.kind ∧
      (some p.subscriptionId ≠ k → p'.status = .refunded → p.status = .refunded)
  keyed : ∀ {id p'}, t'.get? id = some p' → (∃ p, t.get? id = some p ∧
    p'.renewalKey = p.renewalKey ∧ p'.kind = p.kind) ∨ (p'.renewalKey.isSome = true → p'.kind = none)

/-- What a step leaves as it was, but for the subscription `k`. -/
structure PeriodKept (g : ℕ → PlanPeriod) (s : Plans) (k : Option ℕ) (g' : ℕ → PlanPeriod)
    (s' : Plans) : Prop where
  periods : ∀ {id}, some id ≠ k → g' id = g id
  subs : SubscriptionsKept k s.subscriptions s'.subscriptions
  payments : PaymentsKept k s.payments s'.payments

/-! ### Writes -/

namespace SubscriptionsKept

variable {k : Option ℕ}

theorem refl (t : Table PlatformSubscription) : SubscriptionsKept k t t where
  next := le_rfl
  rows _ hid := .inr ⟨_, hid, rfl, rfl, rfl, fun h => h⟩

theorem insert (t : Table PlatformSubscription) (sub : PlatformSubscription) :
    SubscriptionsKept k t (t.insert sub) where
  next := Nat.le_succ _
  rows _ hid := by
    rw [Table.get?_insert] at hid
    split at hid
    · next heq => exact .inl heq.ge
    · exact .inr ⟨_, hid, rfl, rfl, rfl, fun h => h⟩

/-- Some rows end. -/
theorem ended (t : Table PlatformSubscription) {f : ℕ → PlatformSubscription → PlatformSubscription}
    (hf : ∀ id sub, f id sub = sub ∨ f id sub = { sub with status := .inactive }) :
    SubscriptionsKept k t (t.modifyAll f) where
  next := le_rfl
  rows {id sub'} _ hid := by
    rw [Table.get?_modifyAll, Option.map_eq_some_iff] at hid
    obtain ⟨sub, hsub, rfl⟩ := hid
    refine .inr ⟨sub, hsub, ?_⟩
    rcases hf id sub with heq | heq
    · rw [heq]
      exact ⟨rfl, rfl, rfl, fun h => h⟩
    · rw [heq]
      exact ⟨rfl, rfl, rfl, fun _ => rfl⟩

/-- A row is written; what others than `k` say of their periods is kept. -/
theorem modify (t : Table PlatformSubscription) {j : ℕ}
    {f : PlatformSubscription → PlatformSubscription} (hf : some j ≠ k → ∀ sub,
      (f sub).stripeSubscriptionId = sub.stripeSubscriptionId ∧ (f sub).planId = sub.planId ∧
        (f sub).currentPeriodEnd = sub.currentPeriodEnd ∧
          (sub.status = .inactive → (f sub).status = .inactive)) :
    SubscriptionsKept k t (t.modify j f) where
  next := le_rfl
  rows {id sub'} hne hid := by
    rw [Table.get?_modify] at hid
    split at hid
    · next heq =>
      subst heq
      obtain ⟨sub, hsub, rfl⟩ := Option.map_eq_some_iff.1 hid
      exact .inr ⟨sub, hsub, hf hne sub⟩
    · exact .inr ⟨_, hid, rfl, rfl, rfl, fun h => h⟩

theorem trans {t t' t'' : Table PlatformSubscription} (h : SubscriptionsKept k t t')
    (h' : SubscriptionsKept k t' t'') : SubscriptionsKept k t t'' where
  next := h.next.trans h'.next
  rows hne hid := by
    rcases h'.rows hne hid with hnext | ⟨sub', hsub', hstripe', hplan', hend', hstatus'⟩
    · exact .inl (h.next.trans hnext)
    · rcases h.rows hne hsub' with hnext | ⟨sub, hsub, hstripe, hplan, hend, hstatus⟩
      · exact .inl hnext
      · exact .inr ⟨sub, hsub, hstripe'.trans hstripe, hplan'.trans hplan, hend'.trans hend,
          fun hs => hstatus' (hstatus hs)⟩

end SubscriptionsKept

namespace PaymentsKept

variable {k : Option ℕ}

theorem refl (t : Table PlanPayment) : PaymentsKept k t t where
  rows hid := ⟨_, hid, rfl, rfl, fun _ h => h⟩
  keyed hid := .inl ⟨_, hid, rfl, rfl⟩

theorem insert (t : Table PlanPayment) {p : PlanPayment}
    (hp : p.renewalKey.isSome = true → p.kind = none) : PaymentsKept k t (t.insert p) where
  rows hid := ⟨_, Table.get?_insert_of_some _ hid, rfl, rfl, fun _ h => h⟩
  keyed hid := by
    rw [Table.get?_insert] at hid
    split at hid
    · obtain rfl := Option.some.inj hid
      exact .inr hp
    · exact .inl ⟨_, hid, rfl, rfl⟩

theorem modify (t : Table PlanPayment) {j : ℕ} {f : PlanPayment → PlanPayment}
    (hf : ∀ p, (f p).subscriptionId = p.subscriptionId ∧ (f p).kind = p.kind ∧
      (f p).renewalKey = p.renewalKey)
    (hstatus : ∀ {p}, t.get? j = some p → some p.subscriptionId ≠ k →
      (f p).status = .refunded → p.status = .refunded) : PaymentsKept k t (t.modify j f) where
  rows {id p} hid := by
    by_cases heq : id = j
    · subst heq
      exact ⟨f p, by simp [hid], (hf p).1, (hf p).2.1, hstatus hid⟩
    · exact ⟨p, by rw [Table.get?_modify_of_ne _ _ heq, hid], rfl, rfl, fun _ h => h⟩
  keyed {id p'} hid := by
    rw [Table.get?_modify] at hid
    split at hid
    · next heq =>
      subst heq
      obtain ⟨p, hp, rfl⟩ := Option.map_eq_some_iff.1 hid
      exact .inl ⟨p, hp, (hf p).2.2, (hf p).2.1⟩
    · exact .inl ⟨_, hid, rfl, rfl⟩

end PaymentsKept

section Kept

variable {g g' : ℕ → PlanPeriod} {s s' : Plans} {k torn ending torn' ending' : Option ℕ}

theorem PeriodOwned.kept {id : ℕ} (h : PeriodOwned g s id) (hkept : PeriodKept g s k g' s')
    (hid : g' id = g id) : PeriodOwned g' s' id where
  upgrades hp := by
    obtain ⟨row, hrow, hsub, hkind⟩ := h.upgrades (hid ▸ hp)
    obtain ⟨row', hrow', hsub', hkind', -⟩ := hkept.payments.rows hrow
    exact ⟨row', hrow', hsub'.trans hsub, hkind'.trans hkind⟩
  opener hp := by
    obtain ⟨row, hrow, hsub, hkind⟩ := h.opener (hid ▸ hp)
    obtain ⟨row', hrow', hsub', hkind', -⟩ := hkept.payments.rows hrow
    exact ⟨row', hrow', hsub'.trans hsub, hkind'.trans hkind⟩

/-- What was refunded of another subscription's was refunded before. -/
theorem PeriodKept.refunded (hkept : PeriodKept g s k g' s') {p : ℕ} {row : PlanPayment}
    (hrow : s.payments.get? p = some row) (hother : some row.subscriptionId ≠ k)
    (hp : s'.refunded p = true) : s.refunded p = true := by
  obtain ⟨row', hrow', -, -, hstatus⟩ := hkept.payments.rows hrow
  rw [Plans.refunded, hrow', Option.any_some, beq_iff_eq] at hp
  rw [Plans.refunded, hrow, Option.any_some, beq_iff_eq]
  exact hstatus hother hp

/-- The books after a step that touches at most one subscription. -/
theorem PeriodBooks.step (h : PeriodBooks g s torn ending) (hkept : PeriodKept g s k g' s')
    (howned : ∀ {id}, k = some id → PeriodOwned g' s' id)
    (hfresh : ∀ {id}, k = some id → s'.subscriptions.next ≤ id → g' id = .unseen)
    (hrestored : ∀ {id}, k = some id → some id ≠ torn' → PeriodRestored g' s' id)
    (hended : ∀ {id}, k = some id → some id ≠ ending' → PeriodEnded g' s' id)
    (htorn : ∀ {id}, some id ≠ k → some id ≠ torn' → some id ≠ torn)
    (hending : ∀ {id}, some id ≠ k → some id ≠ ending' → some id ≠ ending) :
    PeriodBooks g' s' torn' ending' where
  owned id := by
    by_cases hid : some id = k
    · exact howned hid.symm
    · exact (h.owned id).kept hkept (hkept.periods hid)
  fresh {id} hnext := by
    by_cases hid : some id = k
    · exact hfresh hid.symm hnext
    · rw [hkept.periods hid]
      exact h.fresh (hkept.subs.next.trans hnext)
  keyed hp' hkey := by
    rcases hkept.payments.keyed hp' with ⟨p, hp, hkey', hkind⟩ | hnew
    · exact hkind.trans (h.keyed hp (hkey' ▸ hkey))
    · exact hnew hkey
  restored {id} hid' := by
    by_cases hid : some id = k
    · exact hrestored hid.symm hid'
    · intro sub' hsub' hstripe hall
      rcases hkept.subs.rows hid hsub' with hnext | ⟨sub, hsub, hstripe', hplan, hend, -⟩
      · rw [hkept.periods hid, h.fresh hnext] at hall
        cases hall
      · rw [hkept.periods hid] at hall ⊢
        rw [hplan, hend]
        refine h.restored (htorn hid hid') sub hsub (hstripe'.symm.trans hstripe) ?_
        rw [Plans.allRefunded, Bool.and_eq_true, List.all_eq_true] at hall ⊢
        refine ⟨hall.1, fun p hp => ?_⟩
        obtain ⟨row, hrow, howner, -⟩ := (h.owned id).upgrades hp
        exact hkept.refunded hrow (howner.symm ▸ hid) (hall.2 p hp)
  ended {id} hid' := by
    by_cases hid : some id = k
    · exact hended hid.symm hid'
    · intro sub' p hsub' hstripe hopener hp
      rw [hkept.periods hid] at hopener
      rcases hkept.subs.rows hid hsub' with hnext | ⟨sub, hsub, hstripe', -, -, hstatus⟩
      · rw [h.fresh hnext] at hopener
        cases hopener
      · obtain ⟨row, hrow, howner, -⟩ := (h.owned id).opener hopener
        exact hstatus (h.ended (hending hid hid') sub p hsub (hstripe'.symm.trans hstripe) hopener
          (hkept.refunded hrow (howner.symm ▸ hid) hp))

/-- The books after a step that touches no subscription's period. -/
theorem PeriodBooks.quiet (h : PeriodBooks g s torn ending) (hkept : PeriodKept g s none g' s') :
    PeriodBooks g' s' torn ending :=
  h.step hkept (fun hid => by cases hid) (fun hid => by cases hid) (fun hid => by cases hid)
    (fun hid => by cases hid) (fun _ hid => hid) (fun _ hid => hid)

end Kept

/-! ## Calls -/

/-- The row of a subscription, if the app bills it. -/
def Plans.Billed (s : Plans) (id : ℕ) (p : PlatformSubscription → Prop) : Prop :=
  ∀ sub, s.subscriptions.get? id = some sub → sub.stripeSubscriptionId = none → p sub

/-- What holds while a call is at a point. -/
def AccountCall.Holding (g : ℕ → PlanPeriod) (s : Plans) : AccountCall → Prop
  | refund (.reading id) => ∃ p, s.payments.get? id = some p ∧
      if p.kind = some .plan_upgrade then
        PeriodBooks g s (some p.subscriptionId) none ∧ s.Billed p.subscriptionId fun sub =>
          s.allRefunded (g p.subscriptionId).upgrades = true → sub.status = .active ∧
            ∃ planId, p.previousPlanId = some planId ∧
              (g p.subscriptionId).base = some (planId, sub.currentPeriodEnd)
      else
        PeriodBooks g s none (some p.subscriptionId) ∧
          (PeriodEnded g s p.subscriptionId ∨ RefundPlan.latest s id p = true)
  | refund (.restoring id planId) => PeriodBooks g s (some id) none ∧ s.Billed id fun sub =>
      s.allRefunded (g id).upgrades = true → (g id).base = some (planId, sub.currentPeriodEnd)
  | refund (.dating paymentId id _) => PeriodBooks g s none (some id) ∧ (PeriodEnded g s id ∨
      ∃ p, s.payments.get? paymentId = some p ∧ RefundPlan.latest s paymentId p = true)
  | refund (.expiring (.deactivating id _)) => PeriodBooks g s none (some id)
  | change (.switching id _ _) => PeriodBooks g s none none ∧
      s.Billed id fun _ => s.allRefunded (g id).upgrades = false
  | webhook (.activating id) => PeriodBooks g s none none ∧ s.Billed id fun _ => False
  | renewal c => PeriodBooks g s none none ∧ ∀ p id, c.commits = some (p, id) →
      ∃ row, s.payments.get? p = some row ∧ row.subscriptionId = id ∧ row.kind = none
  | _ => PeriodBooks g s none none

/-- What holds at rest, or while a call is at a point. -/
def PeriodHolds (g : ℕ → PlanPeriod) (s : Plans) (c : Option AccountCall) : Prop :=
  c.elim (PeriodBooks g s none none) (·.Holding g s)

section Steps

variable {cat : PlanCatalog} {k : PlanChance} {g : ℕ → PlanPeriod} {s : Plans}

/-! ### Checkouts -/

/-- A call of a checkout asks for nothing but the books. -/
theorem holds_checkout {c : Option CreateSubscription} (h : PeriodBooks g s none none) :
    PeriodHolds g s (c.map .checkout) := by
  cases c <;> exact h

theorem subscribe_books (h : PeriodBooks g s none none) (o : PlanOrder) (seen : List ℕ) :
    PeriodBooks (Function.update g s.subscriptions.next (.openedBy s.payments.next))
      (o.subscribe cat seen s) none none := by
  have hsubs : SubscriptionsKept (some s.subscriptions.next) s.subscriptions
      (o.subscribe cat seen s).subscriptions :=
    (SubscriptionsKept.ended _ fun id sub => by
      unfold PlanOrder.finish
      split
      · exact .inr rfl
      · exact .inl rfl).trans (SubscriptionsKept.insert _ _)
  have hnew : (o.subscribe cat seen s).payments.get? s.payments.next =
      some (o.payment cat s.subscriptions.next) := Table.get?_insert_self _ _
  have hperiod : Function.update g s.subscriptions.next (.openedBy s.payments.next)
      s.subscriptions.next = .openedBy s.payments.next := Function.update_self ..
  refine h.step (k := some s.subscriptions.next) {
    periods := fun hid => Function.update_of_ne (fun heq => hid (congrArg some heq)) _ _
    subs := hsubs
    payments := PaymentsKept.insert _ fun _ => rfl } ?_ ?_ ?_ ?_ (fun _ hid => hid)
    (fun _ hid => hid)
  · rintro id hid
    obtain rfl := Option.some.inj hid
    refine ⟨fun hp => ?_, fun hp => ?_⟩
    · rw [hperiod] at hp
      cases hp
    · rw [hperiod] at hp
      obtain rfl := Option.some.inj hp
      exact ⟨_, hnew, rfl, rfl⟩
  · intro id hid hnext
    obtain rfl := Option.some.inj hid
    exact absurd hnext (Nat.not_le.2 (Nat.lt_succ_self _))
  · intro id hid _ sub _ _ hall
    obtain rfl := Option.some.inj hid
    rw [hperiod] at hall
    cases hall
  · intro id hid _ sub p _ _ hopener hp
    obtain rfl := Option.some.inj hid
    rw [hperiod] at hopener
    obtain rfl := Option.some.inj hopener
    rw [Plans.refunded, hnew, Option.any_some] at hp
    cases hp

theorem checkout_keeps {c : CreateSubscription} {s : Accounts} {r : Accounts × Option AccountCall}
    (h : PeriodBooks g s.plans none none) (hr : (AccountCall.checkout c).step cat k s = some r) :
    PeriodHolds ((AccountCall.checkout c).watch g s.plans) r.1.plans r.2 := by
  obtain ⟨x, hx, rfl⟩ := Option.map_eq_some_iff.1 hr
  suffices hbooks : PeriodBooks ((AccountCall.checkout c).watch g s.plans) x.1.plans none none from
    holds_checkout hbooks
  cases c with
  | committing o seen =>
    obtain rfl := Option.some.inj hx
    have hsubscribed : PeriodBooks (Function.update g s.plans.subscriptions.next
        (.openedBy s.plans.payments.next)) (o.subscribe cat seen s.plans) none none :=
      subscribe_books h o seen
    unfold PlanOrder.unlock
    cases o.paymentIntentId <;> exact hsubscribed
  | offering r =>
    simp only [CreateSubscription.step] at hx
    split at hx
    · obtain rfl := Option.some.inj hx
      exact h
    · split at hx
      · obtain rfl := Option.some.inj hx
        exact h
      · obtain ⟨-, hx⟩ := Option.ite_none_left_eq_some.1 hx
        obtain rfl := Option.some.inj hx
        exact h
  | locking o =>
    simp only [CreateSubscription.step] at hx
    split at hx
    · obtain rfl := Option.some.inj hx
      exact h
    · obtain ⟨-, hx⟩ := Option.ite_none_left_eq_some.1 hx
      split at hx
      · obtain rfl := Option.some.inj hx
        exact h
      · obtain rfl := Option.some.inj hx
        exact h
  | blocking o =>
    simp only [CreateSubscription.step] at hx
    split at hx
    · obtain rfl := Option.some.inj hx
      exact h
    · obtain rfl := Option.some.inj hx
      exact h
  | claiming o =>
    simp only [CreateSubscription.step] at hx
    split at hx
    · obtain rfl := Option.some.inj hx
      exact h
    · obtain rfl := Option.some.inj hx
      exact h
  | ending o =>
    obtain rfl := Option.some.inj hx
    exact h
  | refunding id =>
    obtain rfl := Option.some.inj hx
    change PeriodBooks g ((if k.accepted then s.giveBack (.checkout id) else s).confirmed id).plans
      none none
    split
    · rw [Accounts.confirmed, Accounts.plans_giveBack]
      exact h
    · exact h

end Steps

/-! ### Renewals -/

/-- A call has moved on, or ended; the payment that it is about to settle is of its subscription. -/
structure PeriodGoes {τ : Type} (commits : τ → Option (ℕ × ℕ)) (g : ℕ → PlanPeriod) (s : Plans)
    (c : Option τ) : Prop where
  books : PeriodBooks g s none none
  row : ∀ a ∈ c, ∀ p id, commits a = some (p, id) →
    ∃ row, s.payments.get? p = some row ∧ row.subscriptionId = id ∧ row.kind = none

namespace PeriodGoes

variable {τ τ' : Type} {commits : τ → Option (ℕ × ℕ)} {commits' : τ' → Option (ℕ × ℕ)}
  {g : ℕ → PlanPeriod} {s : Plans}

theorem done (h : PeriodBooks g s none none) : PeriodGoes commits g s none :=
  ⟨h, fun _ ha => by cases ha⟩

/-- A call that is not about to settle a payment. -/
theorem next {c : τ} (h : PeriodBooks g s none none) (hc : commits c = none) :
    PeriodGoes commits g s (some c) := by
  refine ⟨h, fun a ha p id hcommits => ?_⟩
  obtain rfl := Option.some.inj ha
  rw [hc] at hcommits
  cases hcommits

theorem within {ρ ρ' : Type} {p : Progress τ ρ} {wrap : τ → τ'} {after : ρ → Progress τ' ρ'}
    (h : PeriodGoes commits g s p.running) (hwrap : ∀ c, commits' (wrap c) = commits c)
    (hafter : ∀ r, ∀ c' ∈ (after r).running, commits' c' = none) :
    PeriodGoes commits' g s (p.within wrap after).running := by
  refine ⟨h.books, fun a ha p' id hcommits => ?_⟩
  cases p with
  | next c =>
    obtain rfl := Option.some.inj ha
    exact h.row c rfl p' id (hwrap c ▸ hcommits)
  | done r =>
    rw [hafter r a ha] at hcommits
    cases hcommits

/-- A call that is the last thing another does. -/
theorem last {ρ ρ' : Type} {p : Progress τ ρ} {wrap : τ → τ'} {out : ρ → ρ'}
    (h : PeriodGoes commits g s p.running) (hwrap : ∀ c, commits' (wrap c) = commits c) :
    PeriodGoes commits' g s (p.within wrap fun r => .done (out r)).running :=
  h.within hwrap fun _ _ hc => by cases hc

end PeriodGoes

section Renewals

variable {cat : PlanCatalog} {k : RenewalChance} {g : ℕ → PlanPeriod} {s : Plans}

/-- Payments are written, and none is refunded by it. -/
theorem PeriodBooks.pay {torn ending : Option ℕ} {payments : Table PlanPayment}
    (h : PeriodBooks g s torn ending) (hkept : PaymentsKept none s.payments payments) :
    PeriodBooks g { s with payments := payments } torn ending :=
  h.quiet ⟨fun _ => rfl, .refl _, hkept⟩

/-- Subscriptions are written, but not their plans and due dates. -/
theorem PeriodBooks.subscribe {torn ending : Option ℕ} {subs : Table PlatformSubscription}
    (h : PeriodBooks g s torn ending) (hkept : SubscriptionsKept none s.subscriptions subs) :
    PeriodBooks g { s with subscriptions := subs } torn ending :=
  h.quiet ⟨fun _ => rfl, hkept, .refl _⟩

/-- Only the subscriptions and the payments are looked at. -/
theorem PeriodBooks.congr {torn ending : Option ℕ} {s' : Plans} (h : PeriodBooks g s torn ending)
    (hsubs : s'.subscriptions = s.subscriptions) (hpayments : s'.payments = s.payments) :
    PeriodBooks g s' torn ending :=
  h.quiet ⟨fun _ => rfl, hsubs ▸ .refl _, hpayments ▸ .refl _⟩

theorem ExpireSubscription.books (c : ExpireSubscription) (h : PeriodBooks g s none none) :
    PeriodBooks g (c.step cat s).1 none none := by
  cases c with
  | deactivating id userId => exact h.subscribe (.modify _ fun _ sub => ⟨rfl, rfl, rfl, fun _ => rfl⟩)
  | creating userId =>
    simp only [step]
    cases cat.freePlan with
    | none => exact h
    | some planId => exact h.subscribe (.insert _ _)

theorem MarkRenewalFailed.books (c : MarkRenewalFailed) (h : PeriodBooks g s none none) :
    PeriodBooks g (c.step k s).1 none none := by
  cases c with
  | marking id =>
    simp only [step]
    split
    · exact h
    · exact h.pay (.modify _ (fun p => ⟨rfl, rfl, rfl⟩) fun _ _ hrefunded => by cases hrefunded)
  | dating id seen => exact h.subscribe (.modify _ fun _ sub => ⟨rfl, rfl, rfl, fun hs => hs⟩)

/-- The settled payment opens the next period. -/
theorem FinalizeRenewal.periodGoes (c : FinalizeRenewal) (h : PeriodGoes commits g s (some c)) :
    PeriodGoes commits (settledPeriods g s c.commits) (c.step k s).1 (c.step k s).2.running := by
  cases c with
  | reading id =>
    have hbooks := h.books
    simp only [step]
    split
    · exact .done hbooks
    · next payment hpayment =>
      split
      · exact .done hbooks
      · next hkey =>
        refine ⟨hbooks, fun a ha p subscriptionId hcommits => ?_⟩
        obtain rfl := Option.some.inj ha
        obtain ⟨rfl, rfl⟩ := Prod.mk.inj (Option.some.inj hcommits)
        exact ⟨payment, hpayment, rfl, hbooks.keyed hpayment (Option.isSome_iff_ne_none.2 hkey)⟩
  | committing id subscriptionId next =>
    obtain ⟨row, hrow, howner, hkind⟩ := h.row _ rfl _ _ rfl
    simp only [step, commit, commits, settledPeriods]
    cases htry : s.payments.tryModify id (·.status == .pending) (complete k.now) with
    | none =>
      have hsettled : (s.payments.get? id).any (·.status == .pending) = false := by
        rw [Bool.eq_false_iff]
        intro hany
        obtain ⟨p, hp, hpending⟩ := (Option.any_eq_true _ _).1 hany
        rw [Table.tryModify_eq_none.1 htry p hp] at hpending
        cases hpending
      rw [hsettled, Bool.false_and, if_neg Bool.false_ne_true]
      exact .done h.books
    | some payments =>
      obtain ⟨row', hrow', hpending, rfl⟩ := Table.tryModify_eq_some.1 htry
      obtain rfl := Option.some.inj (hrow.symm.trans hrow')
      rw [hrow, Option.any_some, hpending, Bool.true_and]
      have hpayments : PaymentsKept (some subscriptionId) s.payments
          (s.payments.modify id (complete k.now)) :=
        .modify _ (fun p => ⟨rfl, rfl, rfl⟩) fun _ _ hrefunded => by cases hrefunded
      have hsubs : SubscriptionsKept (some subscriptionId) s.subscriptions
          (s.subscriptions.modify subscriptionId (renewed next)) :=
        .modify _ fun hne => absurd rfl hne
      cases hsub : s.subscriptions.get? subscriptionId with
      | none =>
        rw [Option.isSome_none, if_neg Bool.false_ne_true]
        have hkept : PeriodKept g s (some subscriptionId) g { s with
            payments := s.payments.modify id (complete k.now)
            subscriptions := s.subscriptions.modify subscriptionId (renewed next) } :=
          ⟨fun _ => rfl, hsubs, hpayments⟩
        have hmissing : (s.subscriptions.modify subscriptionId (renewed next)).get? subscriptionId =
            none := by
          simp [hsub]
        refine .done (PeriodBooks.congr (h.books.step hkept ?_ ?_ ?_ ?_ (fun _ hid => hid)
          (fun _ hid => hid)) rfl rfl)
        · exact fun _ => (h.books.owned _).kept hkept rfl
        · exact fun _ hnext => h.books.fresh hnext
        · intro j hj _ sub hget
          obtain rfl := Option.some.inj hj
          rw [hmissing] at hget
          cases hget
        · intro j hj _ sub p hget
          obtain rfl := Option.some.inj hj
          rw [hmissing] at hget
          cases hget
      | some sub =>
        rw [Option.isSome_some, if_pos rfl]
        have hperiod : Function.update g subscriptionId (.openedBy id) subscriptionId =
            .openedBy id := Function.update_self ..
        have hnew : (s.payments.modify id (complete k.now)).get? id = some (complete k.now row) := by
          simp [hrow]
        have hkept : PeriodKept g s (some subscriptionId)
            (Function.update g subscriptionId (.openedBy id)) { s with
              payments := s.payments.modify id (complete k.now)
              subscriptions := s.subscriptions.modify subscriptionId (renewed next) } :=
          ⟨fun hid => Function.update_of_ne (fun heq => hid (congrArg some heq)) _ _, hsubs, hpayments⟩
        refine .done (PeriodBooks.congr (h.books.step hkept ?_ ?_ ?_ ?_ (fun _ hid => hid)
          (fun _ hid => hid)) rfl rfl)
        · intro j hj
          obtain rfl := Option.some.inj hj
          refine ⟨fun hp => ?_, fun hp => ?_⟩
          · rw [hperiod] at hp
            cases hp
          · rw [hperiod] at hp
            obtain rfl := Option.some.inj hp
            exact ⟨_, hnew, howner, hkind⟩
        · intro j hj hnext
          obtain rfl := Option.some.inj hj
          have hlt := Table.lt_next_of_get? hsub
          exact absurd hnext (Nat.not_le.2 hlt)
        · intro j hj _ sub _ _ hall
          obtain rfl := Option.some.inj hj
          rw [hperiod] at hall
          cases hall
        · intro j hj _ sub p _ _ hopener hp
          obtain rfl := Option.some.inj hj
          rw [hperiod] at hopener
          obtain rfl := Option.some.inj hopener
          rw [Plans.refunded] at hp
          dsimp only at hp
          rw [hnew, Option.any_some] at hp
          cases hp

theorem ReconcileRenewal.periodGoes (c : ReconcileRenewal) (h : PeriodGoes commits g s (some c)) :
    PeriodGoes commits (settledPeriods g s c.commits) (c.step k s).1 (c.step k s).2.running := by
  have hbooks := h.books
  cases c with
  | reading id =>
    simp only [step]
    split
    · exact .done hbooks
    · split
      · exact .done hbooks
      · split
        · exact .next hbooks rfl
        · exact .done hbooks
        · split
          · exact .done hbooks
          · exact .next hbooks rfl
  | searching id seen =>
    simp only [step]
    split
    · exact .next hbooks rfl
    · exact .next hbooks rfl
  | recording id key =>
    exact .next (hbooks.pay (.modify _ (fun p => ⟨rfl, rfl, rfl⟩) fun _ _ hs => hs)) rfl
  | retrieving id key =>
    simp only [step]
    split
    · exact .done hbooks
    · exact .next hbooks rfl
    · exact .done hbooks
    · exact .done hbooks
    · exact .next hbooks rfl
  | finalizing c =>
    have hc : PeriodGoes FinalizeRenewal.commits g s (some c) := ⟨hbooks, fun a ha => by
      obtain rfl := Option.some.inj ha
      exact h.row _ rfl⟩
    exact (c.periodGoes hc).last fun _ => rfl
  | failing c =>
    have hc : PeriodGoes (fun _ : MarkRenewalFailed => none) g (c.step k s).1
        (c.step k s).2.running := ⟨c.books hbooks, fun _ _ _ _ hcommits => by cases hcommits⟩
    exact hc.last fun _ => rfl

/-- A subscription is written, and no upgrade of its period is remembered. -/
theorem PeriodBooks.begin (h : PeriodBooks g s none none) {id : ℕ} {sub : PlatformSubscription}
    (hid : s.subscriptions.get? id = some sub) {f : PlatformSubscription → PlatformSubscription}
    {period : PlanPeriod} (hupgrades : period.upgrades = [])
    (hstripe : (f sub).stripeSubscriptionId = sub.stripeSubscriptionId)
    (hopener : period.opener = none ∨
      period.opener = (g id).opener ∧ (sub.status = .inactive → (f sub).status = .inactive)) :
    PeriodBooks (Function.update g id period)
      { s with subscriptions := s.subscriptions.modify id f } none none := by
  have hperiod : Function.update g id period id = period := Function.update_self ..
  have hself : (s.subscriptions.modify id f).get? id = some (f sub) := by simp [hid]
  refine h.step (k := some id) {
    periods := fun hne => Function.update_of_ne (fun heq => hne (congrArg some heq)) _ _
    subs := .modify _ fun hne => absurd rfl hne
    payments := .refl _ } ?_ ?_ ?_ ?_ (fun _ hid => hid) (fun _ hid => hid)
  · intro j hj
    obtain rfl := Option.some.inj hj
    refine ⟨fun hp => ?_, fun {p} hp => ?_⟩
    · rw [hperiod, hupgrades] at hp
      cases hp
    · rw [hperiod] at hp
      rcases hopener with hnone | ⟨hsame, -⟩
      · rw [hnone] at hp
        cases hp
      · exact (h.owned id).opener (hsame ▸ hp)
  · intro j hj hnext
    obtain rfl := Option.some.inj hj
    have hlt := Table.lt_next_of_get? hid
    exact absurd hnext (Nat.not_le.2 hlt)
  · intro j hj _ sub' _ _ hall
    obtain rfl := Option.some.inj hj
    rw [hperiod, hupgrades] at hall
    cases hall
  · intro j hj _ sub' p hsub' hstripe' hp hrefunded
    obtain rfl := Option.some.inj hj
    rw [hperiod] at hp
    obtain rfl := Option.some.inj (hself.symm.trans hsub')
    rcases hopener with hnone | ⟨hsame, hstatus⟩
    · rw [hnone] at hp
      cases hp
    · exact hstatus (h.ended (fun hne => by cases hne) sub p hid (hstripe.symm.trans hstripe')
        (hsame ▸ hp) hrefunded)

theorem Plans.chargeOffSession_rows (key : RenewalKey) (amount : ℤ) :
    (s.chargeOffSession key amount k).1.subscriptions = s.subscriptions ∧
      (s.chargeOffSession key amount k).1.payments = s.payments := by
  unfold Plans.chargeOffSession
  split
  · exact ⟨rfl, rfl⟩
  · cases k.charge.created with
    | none => exact ⟨rfl, rfl⟩
    | some status => exact ⟨rfl, rfl⟩

namespace RenewSubscription

theorem commits_priced (d : DueRenewal) : (priced cat d).commits = none := by
  unfold priced
  split <;> rfl

theorem commits_tolerated (d : DueRenewal) : (tolerated d).commits = none := by
  unfold tolerated
  split <;> rfl

theorem commits_afterPending (d : DueRenewal) : (afterPending d).commits = none := by
  unfold afterPending
  split
  · rfl
  · exact commits_tolerated d

theorem periodGoes (c : RenewSubscription) (h : PeriodGoes commits g s (some c)) :
    PeriodGoes commits (c.watch g s) (c.step cat k s).1 (c.step cat k s).2.running := by
  have hbooks := h.books
  cases c with
  | reading id ignoreDailyLimit =>
    simp only [step]
    split
    · exact .done hbooks
    · split
      · exact .done hbooks
      · split
        · exact .next hbooks rfl
        · split
          · exact .next hbooks (commits_priced _)
          · exact .next hbooks rfl
  | switching d planId =>
    simp only [step, watch]
    cases htry : s.subscriptions.tryModify d.subscriptionId (·.pendingPlanId == some planId)
        (fun sub => { sub with planId := planId, pendingPlanId := none }) with
    | none =>
      have hany : (s.subscriptions.get? d.subscriptionId).any (·.pendingPlanId == some planId) =
          false := by
        rw [Bool.eq_false_iff]
        intro hany
        obtain ⟨sub, hsub, hpending⟩ := (Option.any_eq_true _ _).1 hany
        rw [Table.tryModify_eq_none.1 htry sub hsub] at hpending
        cases hpending
      rw [hany, if_neg Bool.false_ne_true]
      exact .next hbooks (commits_priced d)
    | some subscriptions =>
      obtain ⟨sub, hsub, hpending, rfl⟩ := Table.tryModify_eq_some.1 htry
      rw [hsub, Option.any_some, hpending, if_pos rfl]
      exact .next (hbooks.begin hsub rfl rfl (.inr ⟨rfl, fun hs => hs⟩)) (commits_priced _)
  | advancing d =>
    simp only [step, watch]
    cases htry : s.subscriptions.tryModify d.subscriptionId (·.currentPeriodEnd == some d.periodEnd)
        (fun sub => { sub with currentPeriodEnd := some (d.nextPeriodEnd cat) }) with
    | none =>
      have hany : (s.subscriptions.get? d.subscriptionId).any
          (·.currentPeriodEnd == some d.periodEnd) = false := by
        rw [Bool.eq_false_iff]
        intro hany
        obtain ⟨sub, hsub, hend⟩ := (Option.any_eq_true _ _).1 hany
        rw [Table.tryModify_eq_none.1 htry sub hsub] at hend
        cases hend
      rw [hany, if_neg Bool.false_ne_true]
      exact .done hbooks
    | some subscriptions =>
      obtain ⟨sub, hsub, hend, rfl⟩ := Table.tryModify_eq_some.1 htry
      rw [hsub, Option.any_some, hend, if_pos rfl]
      exact .done (hbooks.begin hsub rfl rfl (.inl rfl))
  | looking d =>
    simp only [step]
    split
    · exact .next hbooks (commits_afterPending d)
    · exact .next hbooks rfl
  | reconciling d c =>
    have hc : PeriodGoes ReconcileRenewal.commits g s (some c) := ⟨hbooks, fun a ha => by
      obtain rfl := Option.some.inj ha
      exact h.row _ rfl⟩
    refine (c.periodGoes hc).within (fun _ => rfl) fun out c' hc' => ?_
    split at hc'
    · obtain rfl := Option.some.inj hc'
      exact commits_afterPending d
    · cases hc'
  | throttling d =>
    simp only [step]
    split
    · exact .done hbooks
    · exact .next hbooks (commits_tolerated d)
  | counting d => exact .next hbooks rfl
  | claiming d attempt =>
    simp only [step]
    split
    · exact .done hbooks
    · exact .next (hbooks.pay (.insert _ fun _ => rfl)) rfl
  | choosing d attempt id =>
    simp only [step]
    split
    · exact .next hbooks rfl
    · exact .next hbooks rfl
  | charging d attempt id =>
    obtain ⟨hsubs, hpayments⟩ := Plans.chargeOffSession_rows (s := s) (k := k) (d.key attempt)
      (roundHalfUp ((cat.plans d.planId).price * 100))
    have hcharged := hbooks.congr hsubs hpayments
    simp only [step]
    split
    · exact .next hcharged rfl
    · exact .next hcharged rfl
    · exact .next hcharged rfl
    · exact .done hcharged
  | refused id key =>
    exact .next (hbooks.pay (.modify _ (fun p => ⟨rfl, rfl, rfl⟩) fun _ _ hs => hs)) rfl
  | recording id key status =>
    have hnoted := hbooks.pay (.modify s.payments (j := id) (f := withTransaction key)
      (fun p => ⟨rfl, rfl, rfl⟩) fun _ _ hs => hs)
    simp only [step]
    split
    · exact .next hnoted rfl
    · exact .done hnoted
  | finalizing c =>
    have hc : PeriodGoes FinalizeRenewal.commits g s (some c) := ⟨hbooks, fun a ha => by
      obtain rfl := Option.some.inj ha
      exact h.row _ rfl⟩
    exact (c.periodGoes hc).last fun _ => rfl
  | failing c =>
    have hc : PeriodGoes (fun _ : MarkRenewalFailed => none) g (c.step k s).1
        (c.step k s).2.running := ⟨c.books hbooks, fun _ _ _ _ hcommits => by cases hcommits⟩
    exact hc.last fun _ => rfl
  | expiring c =>
    have hc : PeriodGoes (fun _ : ExpireSubscription => none) g (c.step cat s).1
        (c.step cat s).2.running := ⟨c.books hbooks, fun _ _ _ _ hcommits => by cases hcommits⟩
    exact hc.last fun _ => rfl

end RenewSubscription

theorem RenewalCall.periodGoes (c : RenewalCall) (h : PeriodGoes commits g s (some c)) :
    PeriodGoes commits (c.watch g s) (c.step cat k s).1 (c.step cat k s).2 := by
  cases c with
  | renew c =>
    have hc : PeriodGoes RenewSubscription.commits g s (some c) := ⟨h.books, fun a ha => by
      obtain rfl := Option.some.inj ha
      exact h.row _ rfl⟩
    have hgoes : PeriodGoes RenewSubscription.commits (c.watch g s) (c.step cat k s).1
      (c.step cat k s).2.running := c.periodGoes hc
    refine ⟨hgoes.books, fun a ha => ?_⟩
    obtain ⟨c', hc', rfl⟩ := Option.map_eq_some_iff.1 ha
    exact hgoes.row c' hc'
  | webhook c =>
    cases c with
    | finding key =>
      simp only [step, RenewalWebhook.step]
      split
      · exact .done (h.books.congr rfl rfl)
      · exact .next h.books rfl
    | finalizing key c =>
      have hc : PeriodGoes FinalizeRenewal.commits g s (some c) := ⟨h.books, fun a ha => by
        obtain rfl := Option.some.inj ha
        exact h.row _ rfl⟩
      have hgoes := c.periodGoes (k := k) hc
      simp only [step, RenewalWebhook.step]
      split
      · next heq =>
        rw [heq] at hgoes
        refine ⟨hgoes.books, fun a ha => ?_⟩
        obtain rfl := Option.some.inj ha
        exact hgoes.row _ rfl
      · next heq =>
        rw [heq] at hgoes
        exact .done (hgoes.books.congr rfl rfl)

end Renewals

end Barbershop
