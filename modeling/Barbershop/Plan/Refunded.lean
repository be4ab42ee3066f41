import Barbershop.Plan.PeriodBooks
import Barbershop.Plan.OneActive

/-!
# A refunded plan is not kept

`AccountCall.keepsPaid` is what each step has to meet: the upgrades of a period are refunded so that
the last of them gives back the plan and the due date from before the first, the payment that opened
the period only while no other came after it, and no upgrade is made without a payment once all of
the period's were refunded. Then, at rest, a plan is where it was before the upgrades that were
refunded, and has ended if the payment of its period was.
-/

namespace Barbershop

open Lib

section Others

variable {cat : PlanCatalog} {k : PlanChance} {g : ℕ → PlanPeriod} {s : Plans}

theorem renewal_keeps {c : RenewalCall} {s : Accounts} {r : Accounts × Option AccountCall}
    (h : PeriodHolds g s.plans (some (.renewal c)))
    (hr : (AccountCall.renewal c).step cat k s = some r) :
    PeriodHolds ((AccountCall.renewal c).watch g s.plans) r.1.plans r.2 := by
  obtain rfl := Option.some.inj hr
  have hc : PeriodGoes RenewalCall.commits g s.plans (some c) := ⟨h.1, fun a ha => by
    obtain rfl := Option.some.inj ha
    exact h.2⟩
  have hgoes : PeriodGoes RenewalCall.commits (c.watch g s.plans)
      (c.step cat k.toRenewalChance s.plans).1 (c.step cat k.toRenewalChance s.plans).2 := c.periodGoes hc
  dsimp only [AccountCall.watch]
  cases hnext : (c.step cat k.toRenewalChance s.plans).2 with
  | none => exact hgoes.books
  | some c' => exact ⟨hgoes.books, fun p id => hgoes.row c' hnext p id⟩

/-! ### Refunds -/

/-- A subscription is written; what it is to be at the end is known. -/
theorem PeriodBooks.setSubscription {torn ending : Option ℕ} {id : ℕ}
    {f : PlatformSubscription → PlatformSubscription}
    (h : PeriodBooks g s torn ending) (hf : ∀ sub, (f sub).stripeSubscriptionId =
      sub.stripeSubscriptionId)
    (hrestored : s.Billed id fun sub => s.allRefunded (g id).upgrades = true →
      (g id).base = some ((f sub).planId, (f sub).currentPeriodEnd))
    (hended : s.Billed id fun sub => ∀ p, (g id).opener = some p → s.refunded p = true →
      (f sub).status = .inactive)
    (htorn : ∀ j, some j = torn → j = id) (hending : ∀ j, some j = ending → j = id) :
    PeriodBooks g { s with subscriptions := s.subscriptions.modify id f } none none := by
  have hback : ∀ {sub'}, (s.subscriptions.modify id f).get? id = some sub' →
      sub'.stripeSubscriptionId = none → ∃ sub, s.subscriptions.get? id = some sub ∧ sub' = f sub ∧
        sub.stripeSubscriptionId = none := by
    intro sub' hsub' hstripe
    rw [Table.get?_modify_self] at hsub'
    obtain ⟨sub, hsub, rfl⟩ := Option.map_eq_some_iff.1 hsub'
    exact ⟨sub, hsub, rfl, (hf sub).symm.trans hstripe⟩
  have hkept : PeriodKept g s (some id) g
      { s with subscriptions := s.subscriptions.modify id f } :=
    ⟨fun _ => rfl, .modify _ fun hne => absurd rfl hne, .refl _⟩
  refine h.step hkept (fun _ => (h.owned _).kept hkept rfl) (fun _ hnext => h.fresh hnext) ?_ ?_ ?_ ?_
  · intro j hj _ sub' hsub' hstripe
    obtain rfl := Option.some.inj hj
    obtain ⟨sub, hsub, rfl, hstripe'⟩ := hback hsub' hstripe
    exact hrestored sub hsub hstripe'
  · intro j hj _ sub' p hsub' hstripe
    obtain rfl := Option.some.inj hj
    obtain ⟨sub, hsub, rfl, hstripe'⟩ := hback hsub' hstripe
    exact hended sub hsub hstripe' p
  · exact fun hne _ heq => hne (congrArg some (htorn _ heq))
  · exact fun hne _ heq => hne (congrArg some (hending _ heq))

/-- The books without exceptions, once what they except holds. -/
theorem PeriodBooks.whole {torn ending : Option ℕ} (h : PeriodBooks g s torn ending)
    (htorn : ∀ id, some id = torn → PeriodRestored g s id)
    (hending : ∀ id, some id = ending → PeriodEnded g s id) : PeriodBooks g s none none where
  owned := h.owned
  fresh := h.fresh
  keyed := h.keyed
  restored {id} _ := by
    by_cases hid : some id = torn
    · exact htorn id hid
    · exact h.restored hid
  ended {id} _ := by
    by_cases hid : some id = ending
    · exact hending id hid
    · exact h.ended hid

theorem restoring_keeps {id planId : ℕ}
    (h : PeriodHolds g s (some (.refund (.restoring id planId)))) :
    PeriodBooks g { s with
      subscriptions := s.subscriptions.modify id fun sub => { sub with planId := planId } }
        none none := by
  obtain ⟨hbooks, hbase⟩ := h
  refine hbooks.setSubscription (fun _ => rfl) hbase ?_ (fun _ hj => Option.some.inj hj)
    (fun _ hj => by cases hj)
  exact fun sub hsub hstripe p hp hrefunded =>
    hbooks.ended (fun hne => by cases hne) sub p hsub hstripe hp hrefunded

theorem deactivating_keeps (cat : PlanCatalog) {id userId : ℕ}
    (h : PeriodHolds g s (some (.refund (.expiring (.deactivating id userId))))) :
    PeriodBooks g ((ExpireSubscription.deactivating id userId).step cat s).1 none none := by
  have hbooks : PeriodBooks g s none (some id) := h
  refine hbooks.setSubscription (fun _ => rfl) ?_ ?_ (fun _ hj => by cases hj)
    (fun _ hj => Option.some.inj hj)
  · exact fun sub hsub hstripe hall => hbooks.restored (fun hne => by cases hne) sub hsub hstripe hall
  · exact fun _ _ _ _ _ _ => rfl

theorem RefundPlan.latest_iff {id : ℕ} {p : PlanPayment} : RefundPlan.latest s id p = true ↔
    ∀ j q, s.payments.get? j = some q → q.subscriptionId = p.subscriptionId →
      (q.status = .completed ∨ q.status = .refunded) →
        q.paymentDate < p.paymentDate ∨ (q.paymentDate = p.paymentDate ∧ j ≤ id) := by
  unfold RefundPlan.latest
  simp only [List.all_eq_true, Prod.forall, Table.mem_filter, Bool.and_eq_true, Bool.or_eq_true,
    beq_iff_eq, decide_eq_true_eq]
  exact ⟨fun h j q hj hsub hs => h j q ⟨hj, hsub, hs⟩, fun h j q hq => h j q hq.1 hq.2.1 hq.2.2⟩

/-- The payment is marked as refunded. -/
def refundedAt (id : ℕ) (s : Plans) : Plans :=
  { s with payments := s.payments.modify id fun p => { p with status := .refunded } }

theorem refundedAt_get? {id j : ℕ} {q : PlanPayment}
    (hq : (refundedAt id s).payments.get? j = some q) : ∃ p, s.payments.get? j = some p ∧
      (j ≠ id ∧ q = p ∨ j = id ∧ q = { p with status := .refunded }) := by
  unfold refundedAt at hq
  rw [Table.get?_modify] at hq
  split at hq
  · next heq =>
    obtain ⟨p, hp, rfl⟩ := Option.map_eq_some_iff.1 hq
    exact ⟨p, hp, .inr ⟨heq, rfl⟩⟩
  · next hne => exact ⟨q, hq, .inl ⟨hne, rfl⟩⟩

/-- What is refunded after a payment was: it, and what was refunded before. -/
theorem refunded_refundedAt {id j : ℕ} (h : (refundedAt id s).refunded j = true) :
    j = id ∨ s.refunded j = true := by
  obtain ⟨q, hq, hstatus⟩ := (Option.any_eq_true _ _).1 h
  obtain ⟨p, hp, ⟨-, rfl⟩ | ⟨rfl, -⟩⟩ := refundedAt_get? hq
  · exact .inr ((Option.any_eq_true _ _).2 ⟨q, hp, hstatus⟩)
  · exact .inl rfl

theorem latest_refundedAt {id : ℕ} {p : PlanPayment} (hp : s.payments.get? id = some p)
    (hcompleted : p.status = .completed) (h : RefundPlan.latest s id p = true) :
    RefundPlan.latest (refundedAt id s) id { p with status := .refunded } = true := by
  rw [RefundPlan.latest_iff] at h ⊢
  intro j q' hq' hsub hstatus
  obtain ⟨q, hq, ⟨-, rfl⟩ | ⟨rfl, rfl⟩⟩ := refundedAt_get? hq'
  · exact h j q' hq hsub hstatus
  · obtain rfl := Option.some.inj (hp.symm.trans hq)
    exact h j p hp rfl (.inl hcompleted)

theorem refundedAt_kept {id : ℕ} {p : PlanPayment} (hp : s.payments.get? id = some p) :
    PeriodKept g s (some p.subscriptionId) g (refundedAt id s) where
  periods _ := rfl
  subs := .refl _
  payments := by
    apply PaymentsKept.modify s.payments (f := fun p => { p with status := .refunded })
    · exact fun q => ⟨rfl, rfl, rfl⟩
    · intro q hq hne _
      obtain rfl := Option.some.inj (hp.symm.trans hq)
      exact absurd rfl hne

/-- A refund is marked, if it meets the condition. -/
theorem marking_keeps {id : ℕ} {p : PlanPayment} (h : PeriodBooks g s none none)
    (hp : s.payments.get? id = some p) (hcompleted : p.status = .completed)
    (hcond : ∀ sub, s.subscriptions.get? p.subscriptionId = some sub →
      p.refundKeeps id sub (g p.subscriptionId) s = true) :
    PeriodHolds g (refundedAt id s) (some (.refund (.reading id))) := by
  have hrow : (refundedAt id s).payments.get? id = some { p with status := .refunded } := by
    simp [refundedAt, hp]
  have hkept := refundedAt_kept (g := g) hp
  have howned : PeriodOwned g (refundedAt id s) p.subscriptionId := (h.owned _).kept hkept rfl
  refine ⟨_, hrow, ?_⟩
  by_cases hkind : p.kind = some .plan_upgrade
  · rw [if_pos hkind]
    constructor
    · refine h.step hkept ?_ (fun _ hnext => h.fresh hnext) ?_ ?_ (fun _ _ hid => by cases hid)
        (fun _ hid => hid)
      · intro j hj
        obtain rfl := Option.some.inj hj
        exact howned
      · exact fun hj hne => absurd hj.symm hne
      · intro j hj _ sub q hsub hstripe hopener hrefunded
        obtain rfl := Option.some.inj hj
        rcases refunded_refundedAt hrefunded with rfl | hbefore
        · -- the payment of an upgrade opens no period
          obtain ⟨row, hrow', -, hnone⟩ := (h.owned _).opener hopener
          obtain rfl := Option.some.inj (hp.symm.trans hrow')
          rw [hnone] at hkind
          cases hkind
        · exact h.ended (fun hne => by cases hne) sub q hsub hstripe hopener hbefore
    · intro sub hsub hstripe hall
      have hkeeps := hcond sub hsub
      rw [PlanPayment.refundKeeps, hstripe, if_pos hkind, Option.isSome_none, Bool.false_or,
        Bool.or_eq_true, Bool.or_eq_true, Bool.and_eq_true, beq_iff_eq] at hkeeps
      rw [Plans.allRefunded, Bool.and_eq_true, Bool.not_eq_true', List.all_eq_true] at hall
      rcases hkeeps with (hempty | hopen) | hready
      · rw [hall.1] at hempty
        cases hempty
      · rw [Bool.not_eq_true', List.all_eq_false] at hopen
        obtain ⟨j, hj, hnot⟩ := hopen
        refine absurd ?_ hnot
        rw [Bool.or_eq_true, beq_iff_eq]
        exact refunded_refundedAt (hall.2 j hj)
      · obtain ⟨planId, hplan, hbase⟩ := (Option.any_eq_true _ _).1 hready.2
        exact ⟨hready.1, planId, hplan, beq_iff_eq.1 hbase⟩
  · rw [if_neg hkind]
    constructor
    · refine h.step hkept ?_ (fun _ hnext => h.fresh hnext) ?_ ?_ (fun _ hid => hid)
        (fun _ _ hid => by cases hid)
      · intro j hj
        obtain rfl := Option.some.inj hj
        exact howned
      · intro j hj _ sub hsub hstripe hall
        obtain rfl := Option.some.inj hj
        refine h.restored (fun hne => by cases hne) sub hsub hstripe ?_
        rw [Plans.allRefunded, Bool.and_eq_true, List.all_eq_true] at hall ⊢
        refine ⟨hall.1, fun q hq => ?_⟩
        rcases refunded_refundedAt (hall.2 q hq) with rfl | hbefore
        · obtain ⟨row, hrow', -, hupgrade⟩ := (h.owned _).upgrades hq
          obtain rfl := Option.some.inj (hp.symm.trans hrow')
          exact absurd hupgrade hkind
        · exact hbefore
      · exact fun hj hne => absurd hj.symm hne
    · by_cases hlatest : RefundPlan.latest s id p = true
      · exact .inr (latest_refundedAt hp hcompleted hlatest)
      · left
        intro sub q hsub hstripe hopener hrefunded
        have hkeeps := hcond sub hsub
        rw [PlanPayment.refundKeeps, hstripe, if_neg hkind, Option.isSome_none, Bool.false_or,
          Bool.or_eq_true, Bool.or_eq_true, bne_iff_ne, beq_iff_eq] at hkeeps
        rcases hkeeps with (hother | hinactive) | hlatest'
        · rcases refunded_refundedAt hrefunded with rfl | hbefore
          · exact absurd hopener hother
          · exact h.ended (fun hne => by cases hne) sub q hsub hstripe hopener hbefore
        · exact hinactive
        · exact absurd hlatest' hlatest

/-- A refund that was marked is looked at. -/
theorem reading_keeps {id : ℕ} {s : Accounts}
    (h : PeriodHolds g s.plans (some (.refund (.reading id)))) :
    PeriodHolds g (((RefundPlan.reading id).step cat k s).1).plans
      (((RefundPlan.reading id).step cat k s).2.running.map .refund) := by
  obtain ⟨p, hp, hholds⟩ := h
  simp only [RefundPlan.step, hp, Option.bind_some]
  by_cases hkind : p.kind = some .plan_upgrade
  · rw [if_pos hkind] at hholds
    obtain ⟨hbooks, hready⟩ := hholds
    cases hsub : s.plans.subscriptions.get? p.subscriptionId with
    | none =>
      refine hbooks.whole (fun j hj sub hsub' => ?_) fun _ hj => by cases hj
      obtain rfl := Option.some.inj hj
      rw [hsub] at hsub'
      cases hsub'
    | some sub =>
      have hrestored : sub.status ≠ .active ∨ p.previousPlanId = none →
          PeriodBooks g s.plans none none := by
        intro hnot
        refine hbooks.whole (fun j hj sub' hsub' hstripe hall => ?_) fun _ hj => by cases hj
        obtain rfl := Option.some.inj hj
        obtain rfl := Option.some.inj (hsub.symm.trans hsub')
        obtain ⟨hactive, planId, hplan, -⟩ := hready sub hsub hstripe hall
        rcases hnot with hinactive | hnone
        · exact absurd hactive hinactive
        · rw [hplan] at hnone
          cases hnone
      simp only [Option.map_some]
      split
      · next hinactive => exact hrestored (.inl hinactive)
      · cases hplan : p.previousPlanId with
        | none => exact hrestored (.inr hplan)
        | some planId =>
          refine ⟨hbooks, fun sub' hsub' hstripe hall => ?_⟩
          obtain ⟨-, planId', hplan', hbase⟩ := hready sub' hsub' hstripe hall
          obtain rfl := Option.some.inj (hplan.symm.trans hplan')
          exact hbase
  · rw [if_neg hkind] at hholds
    obtain ⟨hbooks, hended⟩ := hholds
    cases hsub : s.plans.subscriptions.get? p.subscriptionId with
    | none =>
      refine hbooks.whole (fun _ hj => by cases hj) fun j hj sub q hsub' => ?_
      obtain rfl := Option.some.inj hj
      rw [hsub] at hsub'
      cases hsub'
    | some sub =>
      simp only [Option.map_some]
      split
      · next hinactive =>
        refine hbooks.whole (fun _ hj => by cases hj) fun j hj sub' q hsub' _ _ _ => ?_
        obtain rfl := Option.some.inj hj
        obtain rfl := Option.some.inj (hsub.symm.trans hsub')
        cases hstatus : sub.status with
        | active => exact absurd hstatus hinactive
        | inactive => rfl
      · exact ⟨hbooks, hended.imp_right fun hlatest => ⟨p, hp, hlatest⟩⟩

/-- The step of a refund. -/
theorem planRefund_keeps {c : RefundPlan} {s : Accounts} {r : Accounts × Option AccountCall}
    (h : PeriodHolds g s.plans (some (.refund c)))
    (hr : (AccountCall.refund c).step cat k s = some r)
    (hcond : ∀ id p sub, c = .marking id → s.plans.payments.get? id = some p →
      p.status = .completed → s.plans.subscriptions.get? p.subscriptionId = some sub →
        p.refundKeeps id sub (g p.subscriptionId) s.plans = true) :
    PeriodHolds g r.1.plans r.2 := by
  obtain rfl := Option.some.inj hr
  cases c with
  | refunding id =>
    have hbooks : PeriodBooks g s.plans none none := h
    simp only [RefundPlan.step]
    split
    · exact hbooks
    · split
      · exact hbooks
      · split
        · rw [Accounts.plans_giveBack]
          exact hbooks
        · exact hbooks
  | finding intent =>
    have hbooks : PeriodBooks g s.plans none none := h
    simp only [RefundPlan.step]
    split
    · exact hbooks
    · exact hbooks
  | marking id =>
    have hbooks : PeriodBooks g s.plans none none := h
    simp only [RefundPlan.step]
    split
    · exact hbooks
    · next payments htry =>
      obtain ⟨p, hp, hcompleted, rfl⟩ := Table.tryModify_eq_some.1 htry
      rw [beq_iff_eq] at hcompleted
      exact marking_keeps hbooks hp hcompleted fun sub hsub => hcond id p sub rfl hp hcompleted hsub
  | reading id => exact reading_keeps h
  | restoring id planId => exact restoring_keeps h
  | dating id subscriptionId userId =>
    obtain ⟨hbooks, hended⟩ := h
    simp only [RefundPlan.step]
    split
    · exact hbooks
    · next hlate =>
      refine hbooks.whole (fun _ hj => by cases hj) fun j hj => ?_
      obtain rfl := Option.some.inj hj
      rcases hended with hended | ⟨p, hp, hlatest⟩
      · exact hended
      · rw [hp, Option.any_some] at hlate
        exact absurd hlatest hlate
  | expiring c =>
    cases c with
    | deactivating id userId => exact deactivating_keeps cat h
    | creating userId =>
      have hbooks : PeriodBooks g s.plans none none := h
      exact (ExpireSubscription.creating userId).books hbooks

/-! ### Stripe's subscriptions -/

/-- What is written to a subscription that Stripe bills does not matter. -/
theorem PeriodBooks.stripe {id : ℕ} (h : PeriodBooks g s none none)
    {f : PlatformSubscription → PlatformSubscription} (hbilled : s.Billed id fun _ => False)
    (hf : ∀ sub, (f sub).stripeSubscriptionId = sub.stripeSubscriptionId) :
    PeriodBooks g { s with subscriptions := s.subscriptions.modify id f } none none :=
  h.setSubscription hf (fun sub hsub hstripe => (hbilled sub hsub hstripe).elim)
    (fun sub hsub hstripe => (hbilled sub hsub hstripe).elim) (fun _ hj => by cases hj)
    (fun _ hj => by cases hj)

theorem webhook_keeps {c : SubscriptionWebhook} {s : Accounts} {r : Accounts × Option AccountCall}
    (h : PeriodHolds g s.plans (some (.webhook c)))
    (hr : (AccountCall.webhook c).step cat k s = some r) : PeriodHolds g r.1.plans r.2 := by
  obtain rfl := Option.some.inj hr
  -- a row that was found by its Stripe subscription is not billed by the app
  have hfound : ∀ {stripeId : String} {id : ℕ} {sub : PlatformSubscription},
      (s.plans.subscriptions.find? fun _ sub => sub.stripeSubscriptionId == some stripeId) =
        some (id, sub) → s.plans.Billed id fun _ => False := by
    intro stripeId id sub hfind sub' hsub' hnone
    obtain ⟨hsub, hstripe⟩ := Table.find?_some hfind
    obtain rfl := Option.some.inj (hsub.symm.trans hsub')
    rw [hnone] at hstripe
    cases hstripe
  cases c with
  | updated stripeId status =>
    have hbooks : PeriodBooks g s.plans none none := h
    simp only [SubscriptionWebhook.step]
    split
    · exact hbooks
    · next hfind =>
      cases status with
      | canceled | unpaid | incomplete_expired | incomplete | paused => exact hbooks
      | active | trialing | past_due => exact ⟨hbooks, hfound hfind⟩
  | deleted stripeId =>
    have hbooks : PeriodBooks g s.plans none none := h
    simp only [SubscriptionWebhook.step]
    split
    · exact hbooks
    · exact hbooks
  | activating id =>
    obtain ⟨hbooks, hbilled⟩ := h
    exact hbooks.stripe hbilled fun _ => rfl
  | deactivating id =>
    have hbooks : PeriodBooks g s.plans none none := h
    exact hbooks.subscribe (.modify _ fun _ _ => ⟨rfl, rfl, rfl, fun _ => rfl⟩)
  | releasing c =>
    have hbooks : PeriodBooks g s.plans none none := h
    have hstep : PeriodBooks g (c.step cat s.plans).1 none none := c.books hbooks
    simp only [SubscriptionWebhook.step]
    cases (c.step cat s.plans).2 with
    | next c' => exact hstep
    | done _ => exact hstep

/-! ### Changes of plan -/

/-- What the read of `changePlan` ends in needs nothing but the books. -/
theorem plan_holds {id : ℕ} {sub : PlatformSubscription} {newPlanId : ℕ} {c : ChangePlan}
    (h : PeriodBooks g s none none) (hsub : s.subscriptions.get? id = some sub)
    (hplan : ChangePlan.plan cat k id sub newPlanId = some c) :
    PeriodHolds g s (some (.change c)) := by
  unfold ChangePlan.plan at hplan
  dsimp only at hplan
  repeat' split at hplan
  all_goals first
    | (cases hplan; done)
    | (obtain ⟨_, -, rfl⟩ := Option.map_eq_some_iff.1 hplan; exact h)
    | obtain rfl := Option.some.inj hplan
  · exact h
  · exact h
  · next hstripe _ =>
    refine ⟨h, fun sub' hsub' hnone => ?_⟩
    obtain rfl := Option.some.inj (hsub.symm.trans hsub')
    rw [hnone] at hstripe
    cases hstripe

/-- The payment of an upgrade is written. -/
theorem creating_keeps (u : PlanUpgrade) (h : PeriodBooks g s none none) :
    PeriodHolds ((AccountCall.change (.creating u)).watch g s)
      { s with payments := s.payments.insert (u.payment cat) }
      (some (.change (.switching u.subscriptionId u.newPlanId (some (u.periodEnd cat))))) := by
  have hpayments : ∀ k, PaymentsKept k s.payments (s.payments.insert (u.payment cat)) :=
    fun k => .insert _ fun hkey => by cases hkey
  cases hsub : s.subscriptions.get? u.subscriptionId with
  | none =>
    simp only [AccountCall.watch, hsub, Option.elim_none]
    refine ⟨h.pay (hpayments none), fun sub hget => ?_⟩
    rw [hsub] at hget
    cases hget
  | some sub =>
    simp only [AccountCall.watch, hsub, Option.elim_some]
    have hperiod : Function.update g u.subscriptionId
        ((g u.subscriptionId).upgraded s.payments.next sub) u.subscriptionId =
          (g u.subscriptionId).upgraded s.payments.next sub := Function.update_self ..
    have hnew : (s.payments.insert (u.payment cat)).get? s.payments.next = some (u.payment cat) :=
      Table.get?_insert_self _ _
    have hkept : PeriodKept g s (some u.subscriptionId)
        (Function.update g u.subscriptionId ((g u.subscriptionId).upgraded s.payments.next sub))
        { s with payments := s.payments.insert (u.payment cat) } :=
      ⟨fun hid => Function.update_of_ne (fun heq => hid (congrArg some heq)) _ _, .refl _,
        hpayments _⟩
    -- the new payment is completed
    have hopen : ({ s with payments := s.payments.insert (u.payment cat) } : Plans).allRefunded
        ((g u.subscriptionId).upgraded s.payments.next sub).upgrades = false := by
      simp [Plans.allRefunded, PlanPeriod.upgraded, Plans.refunded, PlanUpgrade.payment]
    constructor
    · refine h.step hkept ?_ ?_ ?_ ?_ (fun _ hid => hid) (fun _ hid => hid)
      · intro j hj
        obtain rfl := Option.some.inj hj
        refine ⟨fun {p} hp => ?_, fun hp => ?_⟩
        · rw [hperiod] at hp
          rcases List.mem_append.1 hp with hold | hnow
          · obtain ⟨row, hrow, howner, hkind⟩ := (h.owned _).upgrades hold
            exact ⟨row, Table.get?_insert_of_some _ hrow, howner, hkind⟩
          · obtain rfl := List.mem_singleton.1 hnow
            exact ⟨_, hnew, rfl, rfl⟩
        · rw [hperiod] at hp
          obtain ⟨row, hrow, howner, hkind⟩ := (h.owned _).opener hp
          exact ⟨row, Table.get?_insert_of_some _ hrow, howner, hkind⟩
      · intro j hj hnext
        obtain rfl := Option.some.inj hj
        exact absurd hnext (Nat.not_le.2 (Table.lt_next_of_get? hsub))
      · intro j hj _ sub' _ _ hall
        obtain rfl := Option.some.inj hj
        rw [hperiod, hopen] at hall
        cases hall
      · intro j hj _ sub' p hsub' hstripe hopener hrefunded
        obtain rfl := Option.some.inj hj
        rw [hperiod] at hopener
        obtain ⟨row, hrow, -, -⟩ := (h.owned _).opener hopener
        refine h.ended (fun hne => by cases hne) sub' p hsub' hstripe hopener ?_
        rw [Plans.refunded, Table.get?_insert_of_some _ hrow] at hrefunded
        rw [Plans.refunded, hrow]
        exact hrefunded
    · intro _ _ _
      rw [hperiod]
      exact hopen

theorem change_keeps {c : ChangePlan} {s : Accounts} {r : Accounts × Option AccountCall}
    (h : PeriodHolds g s.plans (some (.change c)))
    (hr : (AccountCall.change c).step cat k s = some r)
    (hcharging : ∀ u, c = .charging u → u.amount cat < MIN_STRIPE_CHARGE →
      s.plans.allRefunded (g u.subscriptionId).upgrades = false)
    (hrecording : ∀ u, c = .recording u →
      (s.plans.payments.any fun _ p => p.transactionId == some u.intent) = true →
        s.plans.allRefunded (g u.subscriptionId).upgrades = false) :
    PeriodHolds ((AccountCall.change c).watch g s.plans) r.1.plans r.2 := by
  obtain rfl := Option.some.inj hr
  cases c with
  | reading userId newPlanId =>
    have hbooks : PeriodBooks g s.plans none none := h
    simp only [ChangePlan.step, AccountCall.watch]
    split
    · exact hbooks
    · next c' hread =>
      obtain ⟨row, hfind, hplan⟩ := Option.bind_eq_some_iff.1 hread
      exact plan_holds hbooks (Table.find?_some hfind).1 hplan
  | keeping id =>
    have hbooks : PeriodBooks g s.plans none none := h
    exact hbooks.subscribe (.modify _ fun _ _ => ⟨rfl, rfl, rfl, fun hs => hs⟩)
  | scheduling id newPlanId =>
    have hbooks : PeriodBooks g s.plans none none := h
    exact hbooks.subscribe (.modify _ fun _ _ => ⟨rfl, rfl, rfl, fun hs => hs⟩)
  | charging u =>
    have hbooks : PeriodBooks g s.plans none none := h
    simp only [ChangePlan.step, AccountCall.watch]
    split
    · next hfree => exact ⟨hbooks, fun _ _ _ => hcharging u rfl hfree⟩
    · split
      · exact hbooks
      · exact hbooks
  | recording u =>
    have hbooks : PeriodBooks g s.plans none none := h
    simp only [ChangePlan.step, AccountCall.watch]
    split
    · next hrecorded => exact ⟨hbooks, fun _ _ _ => hrecording u rfl hrecorded⟩
    · exact hbooks
  | creating u =>
    have hbooks : PeriodBooks g s.plans none none := h
    exact creating_keeps u hbooks
  | switching id newPlanId periodEnd =>
    obtain ⟨hbooks, hopen⟩ := h
    refine hbooks.setSubscription (fun _ => rfl) (fun sub hsub hstripe hall => ?_) ?_
      (fun _ hj => by cases hj) (fun _ hj => by cases hj)
    · rw [hopen sub hsub hstripe] at hall
      cases hall
    · exact fun sub hsub hstripe p hp hrefunded =>
        hbooks.ended (fun hne => by cases hne) sub p hsub hstripe hp hrefunded

/-! ## Runs -/

theorem AccountEvent.keeps_books {e : AccountEvent} {s : Accounts}
    {r : Accounts × Option AccountCall} (h : PeriodBooks g s.plans none none)
    (hr : e.begin s = some r) : PeriodHolds g r.1.plans r.2 := by
  cases e with
  | checkout _ | staffRefundPlanPayment _ | subscriptionUpdated _ _ | subscriptionDeleted _
  | changePlan _ _ =>
    obtain rfl := Option.some.inj hr
    exact h
  | approve id =>
    obtain ⟨checkout, -, hr⟩ := Option.bind_eq_some_iff.1 hr
    obtain ⟨-, hr⟩ := Option.ite_none_left_eq_some.1 hr
    obtain rfl := Option.some.inj hr
    exact h
  | confirm id now =>
    obtain ⟨checkout, -, hr⟩ := Option.bind_eq_some_iff.1 hr
    obtain ⟨-, hr⟩ := Option.ite_none_right_eq_some.1 hr
    obtain rfl := Option.some.inj hr
    exact h
  | renewal e =>
    obtain ⟨r', hr', rfl⟩ := Option.map_eq_some_iff.1 hr
    cases e with
    | renew id ignoreDailyLimit =>
      obtain rfl := Option.some.inj hr'
      exact ⟨h, fun _ _ hcommits => by cases hcommits⟩
    | webhook key =>
      obtain ⟨-, hr'⟩ := Option.ite_none_right_eq_some.1 hr'
      obtain rfl := Option.some.inj hr'
      exact ⟨h, fun _ _ hcommits => by cases hcommits⟩
    | settle key status =>
      simp only [RenewalEvent.begin] at hr'
      split at hr'
      · cases hr'
      · obtain ⟨-, hr'⟩ := Option.ite_none_left_eq_some.1 hr'
        obtain rfl := Option.some.inj hr'
        exact h.congr rfl rfl
  | syncPlanRefund intent =>
    obtain rfl := Option.some.inj hr
    change PeriodBooks g (s.giveBack intent).plans none none
    rw [Accounts.plans_giveBack]
    exact h

/-- A step that meets the condition. -/
theorem AccountCall.keeps_books {c : AccountCall} {s : BilledAccounts}
    {r : Accounts × Option AccountCall} (hpaid : c.keepsPaid cat s = true)
    (h : PeriodHolds s.periods s.accounts.plans (some c)) (hr : c.step cat k s.accounts = some r) :
    PeriodHolds (c.watch s.periods s.accounts.plans) r.1.plans r.2 := by
  cases c with
  | checkout c =>
    have hbooks : PeriodBooks s.periods s.accounts.plans none none := by
      cases c <;> exact h
    exact checkout_keeps hbooks hr
  | renewal c => exact renewal_keeps h hr
  | webhook c => exact webhook_keeps h hr
  | refund c =>
    refine planRefund_keeps h hr fun id p sub hc hp hcompleted hsub => ?_
    subst hc
    simp only [keepsPaid, hp] at hpaid
    rw [Option.filter_some, if_pos (beq_iff_eq.2 hcompleted), Option.all_some, hsub,
      Option.all_some] at hpaid
    exact hpaid
  | change c =>
    refine change_keeps h hr (fun u hc hfree => ?_) fun u hc hrecorded => ?_
    · subst hc
      simpa [keepsPaid, hfree] using hpaid
    · subst hc
      simp only [keepsPaid] at hpaid
      rw [hrecorded, Bool.not_true, Bool.false_or, Bool.not_eq_true'] at hpaid
      exact hpaid

theorem PeriodBooks.initial (subscriptions : Table PlatformSubscription) :
    PeriodBooks (BilledAccounts.initial subscriptions).periods
      (BilledAccounts.initial subscriptions).accounts.plans none none where
  owned _ := {
    upgrades := fun hp => by cases hp
    opener := fun hp => by cases hp }
  fresh _ := rfl
  keyed hp := by cases hp
  restored _ _ _ _ hall := by cases hall
  ended _ _ _ _ _ hopener := by cases hopener

theorem PeriodBooks.paid {s : BilledAccounts}
    (h : PeriodBooks s.periods s.accounts.plans none none) : s.Paid cat := by
  constructor
  · intro id sub hsub hstripe hall
    have hrestored : PeriodRestored s.periods s.accounts.plans id := h.restored (by simp)
    exact hrestored sub hsub hstripe hall
  · intro id sub p hsub hstripe hopener hrefunded hactive
    have hended : PeriodEnded s.periods s.accounts.plans id := h.ended (by simp)
    have hinactive := hended sub p hsub hstripe hopener hrefunded
    rw [hactive.1] at hinactive
    cases hinactive

/-- In every history whose steps meet `keepsPaid`, at rest. -/
theorem refunded_plans_end {subscriptions : Table PlatformSubscription}
    {turns : List (Turn AccountEvent PlanChance)} {x : Solo BilledAccounts AccountCall}
    (hmeets : (billedCalls cat).solo.Meets
      (CallSystem.Steps fun _ c s => c.keepsPaid cat s = true)
      ⟨.initial subscriptions, none⟩ turns)
    (hrun : (billedCalls cat).solo.run ⟨.initial subscriptions, none⟩ turns = some x)
    (hrest : x.call = none) : x.shared.Paid cat := by
  have hinitial : PeriodHolds (BilledAccounts.initial subscriptions).periods
      (BilledAccounts.initial subscriptions).accounts.plans none := PeriodBooks.initial subscriptions
  have hend : PeriodHolds x.shared.periods x.shared.accounts.plans x.call := by
    refine CallSystem.solo_run (I := fun c s => PeriodHolds s.periods s.accounts.plans c) ?_ ?_
      hinitial hmeets hrun
    · intro e s r h hr
      obtain ⟨r', hr', rfl⟩ := Option.map_eq_some_iff.1 hr
      exact AccountEvent.keeps_books h hr'
    · intro k c s r hpaid h hr
      obtain ⟨r', hr', rfl⟩ := Option.map_eq_some_iff.1 hr
      exact c.keeps_books hpaid h hr'
  rw [hrest] at hend
  exact PeriodBooks.paid hend

end Others

/-! ## Two histories -/

/-- Larger and larger plans; the last one is billed by the year. -/
def largerPlans : PlanCatalog :=
  { twoPlans with plans := fun id => ⟨100 * id, if id = 4 then .yearly else .monthly, none⟩ }

/-- An account on the free plan. -/
def freeAccount : Table PlatformSubscription :=
  Table.empty.insert (ExpireSubscription.free 1 0)

/-- The call in flight takes some steps. -/
def accountTurns (n : ℕ) : List (Turn AccountEvent PlanChance) :=
  List.replicate n (.step stripeAccepts)

/-- The account pays for plan 1. -/
def planPaid : List (Turn AccountEvent PlanChance) :=
  .event (.checkout ⟨1, 1, none, "pi_1", 0⟩) :: accountTurns 1 ++
    [.event (.approve "pi_1"), .event (.confirm "pi_1" 0)] ++ accountTurns 5

/-- Two upgrades, and their refunds from the last to the first. -/
def upgradesRefunded : List (Turn AccountEvent PlanChance) :=
  planPaid ++ .event (.changePlan 1 2) :: accountTurns 5 ++
    .event (.changePlan 1 3) :: accountTurns 5 ++
    .event (.staffRefundPlanPayment 3) :: accountTurns 4 ++
    .event (.staffRefundPlanPayment 2) :: accountTurns 4

theorem upgradesRefunded_paid : ∃ x,
    (billedCalls largerPlans).solo.run ⟨.initial freeAccount, none⟩ upgradesRefunded = some x ∧
      x.shared.accounts.plans.allRefunded (x.shared.periods 2).upgrades = true ∧
        (x.shared.periods 2).upgrades = [2, 3] ∧ x.shared.Paid largerPlans := by
  have hmeets : (billedCalls largerPlans).solo.Meets
      (CallSystem.Steps fun _ c s => c.keepsPaid largerPlans s = true)
      ⟨.initial freeAccount, none⟩ upgradesRefunded := by
    decide +kernel
  have hsome : ((billedCalls largerPlans).solo.run ⟨.initial freeAccount, none⟩
      upgradesRefunded).any (fun x => x.call.isNone &&
        x.shared.accounts.plans.allRefunded (x.shared.periods 2).upgrades &&
          (x.shared.periods 2).upgrades == [2, 3]) = true := by
    decide +kernel
  obtain ⟨x, hrun, hout⟩ := (Option.any_eq_true _ _).1 hsome
  simp only [Bool.and_eq_true, beq_iff_eq, Option.isNone_iff_eq_none] at hout
  obtain ⟨⟨hrest, hall⟩, htwo⟩ := hout
  exact ⟨x, hrun, hall, htwo, refunded_plans_end hmeets hrun hrest⟩

/-- An upgrade to a plan billed by the year, and its refund. -/
def yearlyUpgradeRefunded : List (Turn AccountEvent PlanChance) :=
  planPaid ++ .event (.changePlan 1 4) :: accountTurns 5 ++
    .event (.staffRefundPlanPayment 2) :: accountTurns 4

theorem yearlyUpgradeRefunded_keeps_year : ∃ x,
    (billedCalls largerPlans).solo.run ⟨.initial freeAccount, none⟩ yearlyUpgradeRefunded =
        some x ∧ x.call = none ∧
      ((x.shared.accounts.plans.subscriptions.get? 2).any fun sub => sub.status == .active &&
        sub.planId == 1 && decide (sub.currentPeriodEnd ≠ some (30 * 86400000))) = true ∧
      (x.shared.periods 2).base = some (1, some (30 * 86400000)) ∧ ¬ x.shared.Paid largerPlans := by
  have hsome : ((billedCalls largerPlans).solo.run ⟨.initial freeAccount, none⟩
      yearlyUpgradeRefunded).any (fun x => x.call.isNone &&
        ((x.shared.accounts.plans.subscriptions.get? 2).any fun sub => sub.status == .active &&
          sub.planId == 1 && decide (sub.currentPeriodEnd ≠ some (30 * 86400000))) &&
        (x.shared.accounts.plans.subscriptions.get? 2).any (·.stripeSubscriptionId == none) &&
        x.shared.accounts.plans.allRefunded (x.shared.periods 2).upgrades &&
        (x.shared.periods 2).base == some (1, some (30 * 86400000))) = true := by
    decide +kernel
  obtain ⟨x, hrun, hout⟩ := (Option.any_eq_true _ _).1 hsome
  simp only [Bool.and_eq_true, beq_iff_eq, Option.isNone_iff_eq_none] at hout
  obtain ⟨⟨⟨⟨hrest, hrow⟩, hbilled⟩, hall⟩, hbase⟩ := hout
  refine ⟨x, hrun, hrest, ?_, hbase, fun h => ?_⟩
  · simpa using hrow
  · obtain ⟨sub, hsub, hout⟩ := (Option.any_eq_true _ _).1 hrow
    rw [hsub, Option.any_some, beq_iff_eq] at hbilled
    have hrestored := h.restored hsub hbilled hall
    rw [hbase] at hrestored
    obtain ⟨-, hend⟩ := Prod.mk.inj (Option.some.inj hrestored)
    simp [← hend] at hout

end Barbershop
