import Barbershop.Plan.Refunded

/-!
# The charge of an upgrade and its webhook

`changePlan` charges the difference to a larger plan, records the payment and moves the plan, in
separate steps. Stripe tells the success of the charge to the webhook that also completes checkouts,
any number of times; what tells an upgrade from a checkout there is the recorded payment.

`UpgradeCall.keepsUpgrade` is what each step has to meet for an upgrade that was paid to be kept.
-/

namespace Barbershop

open Lib

/-- The charge of an upgrade at Stripe, with its metadata. -/
structure UpgradeCharge where
  intent : PlanIntent
  userId : ℕ
  planId : ℕ
  refunded : Bool

/-- The plans beside the charge of one upgrade; `locked`: the lock of the charge is taken. -/
structure UpgradedPlans where
  plans : Plans
  charge : Option UpgradeCharge
  locked : Bool

/-! ## The webhook -/

/-- Where a webhook of the charge is: `createSubscriptionAfterPayment` of the charge's metadata,
which has no coupon. -/
inductive ConfirmUpgrade where
  | locking (intent : PlanIntent) (o : PlanOrder)
  | blocking (intent : PlanIntent) (o : PlanOrder)
  | ending (intent : PlanIntent) (o : PlanOrder)
  /-- The statement that ends the plans has seen these active ones. -/
  | committing (intent : PlanIntent) (o : PlanOrder) (seen : List ℕ)
  | refunding

/-- What the webhook takes from the metadata. -/
def UpgradeCharge.order (charge : UpgradeCharge) (now : ℤ) : PlanOrder where
  userId := charge.userId
  planId := charge.planId
  paymentIntentId := none
  coupon := none
  now := now

/-- The active plan of the account keeps a checkout out. -/
def Plans.blocks (cat : PlanCatalog) (s : Plans) (o : PlanOrder) : Bool :=
  (s.subscriptions.find? fun _ sub => sub.activeOf o.userId).any fun row =>
    blocksNewCheckout cat row.2 o.now

namespace ConfirmUpgrade

/-- The plan is given as by a checkout; the payment is that of the charge. -/
def subscribe (cat : PlanCatalog) (intent : PlanIntent) (o : PlanOrder) (seen : List ℕ)
    (s : Plans) : Plans :=
  { s with
    subscriptions := (s.subscriptions.modifyAll (o.finish seen)).insert (o.subscription cat)
    payments := s.payments.insert
      { o.payment cat s.subscriptions.next with transactionId := some intent } }

/-- `none`: the call waits for the lock. -/
def step (cat : PlanCatalog) (k : PlanChance) (c : ConfirmUpgrade) (s : UpgradedPlans) :
    Option (UpgradedPlans × Progress ConfirmUpgrade Unit) :=
  match c with
  | locking intent o =>
    if s.locked then none
    else if s.plans.payments.any fun _ p => p.transactionId == some intent then
      some (s, .done ())
    else some ({ s with locked := true }, .next (blocking intent o))
  | blocking intent o =>
    if s.plans.blocks cat o then some ({ s with locked := false }, .next refunding)
    else some (s, .next (ending intent o))
  | ending intent o =>
    let active := s.plans.subscriptions.filter fun _ sub => sub.activeOf o.userId
    some (s, .next (committing intent o (active.map (·.1))))
  | committing intent o seen =>
    some ({ s with
      plans := subscribe cat intent o seen s.plans
      locked := false }, .done ())
  | refunding =>
    -- a refund that fails is only logged
    some ({ s with
      charge := s.charge.map fun charge =>
        if k.accepted then { charge with refunded := true } else charge }, .done ())

end ConfirmUpgrade

/-! ## The system -/

/-- Stripe takes the difference; its answer may be lost. -/
def PlanUpgrade.charges (cat : PlanCatalog) (k : PlanChance) (u : PlanUpgrade) : Bool :=
  !decide (u.amount cat < MIN_STRIPE_CHARGE) && k.card && k.charge.created == some .succeeded

inductive UpgradeCall where
  | change (userId : ℕ) (c : ChangePlan)
  | confirm (c : ConfirmUpgrade)

inductive UpgradeEvent where
  /-- Stripe delivers `payment_intent.succeeded` of the charge. -/
  | deliver (now : ℤ)

section System

variable (cat : PlanCatalog)

/-- The charge after a step of `changePlan`. -/
def ChangePlan.charge (k : PlanChance) (userId : ℕ) (c : ChangePlan) (s : UpgradedPlans) :
    Option UpgradeCharge :=
  match c with
  | charging u =>
    if u.charges cat k then some {
      intent := u.intent
      userId := userId
      planId := u.newPlanId
      refunded := false }
    else s.charge
  | _ => s.charge

def UpgradeCall.step (k : PlanChance) (c : UpgradeCall) (s : UpgradedPlans) :
    Option (UpgradedPlans × Option UpgradeCall) :=
  match c with
  | change userId c =>
    let r := c.step cat k s.plans
    some ({ s with
      plans := r.1
      charge := c.charge cat k userId s }, r.2.running.map (change userId))
  | confirm c => (c.step cat k s).map fun r => (r.1, r.2.running.map confirm)

def upgradeCalls : CallSystem UpgradedPlans UpgradeCall UpgradeEvent PlanChance where
  event | .deliver now, s => s.charge.map fun charge =>
    (s, some (.confirm (.locking charge.intent (charge.order now))))
  step k c s := c.step cat k s

/-- The call of `changePlan` has begun. -/
def UpgradedPlans.changing (s : UpgradedPlans) (userId newPlanId : ℕ) :
    Calls UpgradedPlans UpgradeCall :=
  ⟨s, Table.empty.insert (.change userId (.reading userId newPlanId))⟩

/-- What each step has to meet: `changePlan` gets the answer to its charge, and a webhook that found
no payment of the charge neither gives a plan nor has Stripe give the charge back. -/
def UpgradeCall.keepsUpgrade (k : PlanChance) (c : UpgradeCall) (s : UpgradedPlans) : Bool :=
  match c with
  | change _ (.charging u) => !u.charges cat k || k.charge == .answered .succeeded
  | confirm (.blocking _ o) => s.plans.blocks cat o
  | confirm .refunding => !k.accepted
  | _ => true

end System

/-! ## What is kept -/

/-- The subscription is the account's one active. -/
structure Plans.SoleActive (s : Plans) (userId id : ℕ) : Prop where
  row : ∃ sub, s.subscriptions.get? id = some sub ∧ sub.activeOf userId = true
  sole : ∀ {j sub}, s.subscriptions.get? j = some sub → sub.activeOf userId = true → j = id

/-- A completed payment of an upgrade. -/
def PlanPayment.upgradeOf (intent : PlanIntent) (p : PlanPayment) : Bool :=
  p.transactionId == some intent && p.kind == some .plan_upgrade && p.status == .completed

/-- The one completed payment of an upgrade is there. -/
def Plans.PaidOnce (s : Plans) (intent : PlanIntent) : Prop :=
  ∃ i, (s.payments.get? i).any (·.upgradeOf intent) = true ∧
    ∀ j p, s.payments.get? j = some p → p.upgradeOf intent = true → j = i

def Plans.Uncharged (s : Plans) (intent : PlanIntent) : Prop :=
  ∀ {i p}, s.payments.get? i = some p → p.transactionId ≠ some intent

/-- The account has one active subscription, and the upgrade of it was not charged before. -/
structure UpgradedPlans.Before (s : UpgradedPlans) (userId newPlanId : ℕ) : Prop where
  charge : s.charge = none
  active : ∃ id, s.plans.SoleActive userId id ∧ ∀ {sub periodEnd},
    s.plans.subscriptions.get? id = some sub → sub.currentPeriodEnd = some periodEnd →
      s.plans.Uncharged (.upgrade id newPlanId periodEnd)

/-- An upgrade that was paid is kept. -/
structure UpgradeKept (s : UpgradedPlans) (charge : UpgradeCharge) : Prop where
  held : charge.refunded = false
  paid : s.plans.PaidOnce charge.intent
  active : ∃ id, s.plans.SoleActive charge.userId id ∧
    (s.plans.subscriptions.get? id).any (·.planId == charge.planId) = true

section Stages

variable {cat : PlanCatalog} {k : PlanChance} {userId newPlanId : ℕ} {s : UpgradedPlans}

/-- The charge, if there is one, is of this upgrade; its payment is there once. -/
def UpgradedPlans.Recorded (s : UpgradedPlans) (userId newPlanId : ℕ) : Prop :=
  ∀ charge, s.charge = some charge → charge.userId = userId ∧ charge.planId = newPlanId ∧
    charge.refunded = false ∧ s.plans.PaidOnce charge.intent

/-- Where `changePlan` stands at a point of it. -/
def ChangePlan.Stage (userId newPlanId : ℕ) (s : UpgradedPlans) : ChangePlan → Prop
  | reading u n => u = userId ∧ n = newPlanId ∧ s.Before userId newPlanId
  | keeping _ | scheduling .. => s.charge = none
  | charging u => s.charge = none ∧ u.newPlanId = newPlanId ∧
      s.plans.SoleActive userId u.subscriptionId ∧ s.plans.Uncharged u.intent
  | recording u | creating u => s.charge = some ⟨u.intent, userId, newPlanId, false⟩ ∧
      u.newPlanId = newPlanId ∧ s.plans.SoleActive userId u.subscriptionId ∧
        s.plans.Uncharged u.intent
  | switching id n _ => n = newPlanId ∧ s.Recorded userId newPlanId ∧ s.plans.SoleActive userId id

/-- What is so once `changePlan` has ended. -/
def UpgradedPlans.Settled (s : UpgradedPlans) (userId newPlanId : ℕ) : Prop :=
  ∀ charge, s.charge = some charge →
    charge.userId = userId ∧ charge.planId = newPlanId ∧ UpgradeKept s charge

/-- A call that has gone on, or ended. -/
def UpgradedPlans.Goes (s : UpgradedPlans) (userId newPlanId : ℕ) (c : Option ChangePlan) : Prop :=
  c.elim (s.Settled userId newPlanId) (·.Stage userId newPlanId s)

theorem UpgradedPlans.settled_of_none (h : s.charge = none) : s.Settled userId newPlanId := by
  intro charge hcharge
  rw [h] at hcharge
  cases hcharge

theorem Plans.PaidOnce.insert {p : Plans} {u : PlanUpgrade} (h : p.Uncharged u.intent) :
    ({ p with payments := p.payments.insert (u.payment cat) } : Plans).PaidOnce u.intent := by
  refine ⟨p.payments.next, ?_, fun j q hq hof => ?_⟩
  · rw [Table.get?_insert_self]
    simp [PlanPayment.upgradeOf, PlanUpgrade.payment]
  · rw [Table.get?_insert] at hq
    split at hq
    · next heq => exact heq
    · refine absurd ?_ (h hq)
      simp only [PlanPayment.upgradeOf, Bool.and_eq_true, beq_iff_eq] at hof
      exact hof.1.1

/-- What the read of `changePlan` ends in. -/
theorem ChangePlan.stage_plan {id : ℕ} {sub : PlatformSubscription} {c : ChangePlan}
    (hcharge : s.charge = none) (hactive : s.plans.SoleActive userId id)
    (hnew : ∀ {periodEnd}, sub.currentPeriodEnd = some periodEnd →
      s.plans.Uncharged (.upgrade id newPlanId periodEnd))
    (hplan : ChangePlan.plan cat k id sub newPlanId = some c) : c.Stage userId newPlanId s := by
  unfold ChangePlan.plan at hplan
  dsimp only at hplan
  repeat' split at hplan
  all_goals first
    | (cases hplan; done)
    | (obtain ⟨periodEnd, hend, rfl⟩ := Option.map_eq_some_iff.1 hplan
       exact ⟨hcharge, rfl, hactive, hnew hend⟩)
    | obtain rfl := Option.some.inj hplan
  · exact hcharge
  · exact hcharge
  · refine ⟨rfl, fun charge hsome => ?_, hactive⟩
    rw [hcharge] at hsome
    cases hsome

/-- The plan is moved: the payment stays, and the active subscription with it. -/
theorem ChangePlan.stage_switch {id : ℕ} {periodEnd : Option ℤ}
    (hrecorded : s.Recorded userId newPlanId) (hactive : s.plans.SoleActive userId id) :
    ({ s with
      plans := { s.plans with
        subscriptions := s.plans.subscriptions.modify id (switch newPlanId periodEnd) } } :
          UpgradedPlans).Settled userId newPlanId := by
  intro charge hcharge
  obtain ⟨huser, hplan, hheld, hpaid⟩ := hrecorded charge hcharge
  obtain ⟨sub, hsub, hown⟩ := hactive.row
  have hself : (s.plans.subscriptions.modify id (switch newPlanId periodEnd)).get? id =
      some (switch newPlanId periodEnd sub) := by
    simp [hsub]
  refine ⟨huser, hplan, hheld, hpaid, id, ⟨⟨_, hself, ?_⟩, fun {j sub'} hsub' hown' => ?_⟩, ?_⟩
  · rw [huser]
    exact hown
  · rw [huser] at hown'
    rw [Table.get?_modify] at hsub'
    split at hsub'
    · next heq => exact heq
    · exact hactive.sole hsub' hown'
  · rw [hself, Option.any_some, beq_iff_eq, hplan]
    rfl

theorem ChangePlan.stage_step (c : ChangePlan) (h : c.Stage userId newPlanId s)
    (hanswer : ∀ u, c = charging u → u.charges cat k = true → k.charge = .answered .succeeded) :
    ({ s with
      plans := (c.step cat k s.plans).1
      charge := c.charge cat k userId s } : UpgradedPlans).Goes userId newPlanId
        (c.step cat k s.plans).2.running := by
  cases c with
  | reading u n =>
    obtain ⟨rfl, rfl, hcharge, id, hactive, hnew⟩ := h
    simp only [step, charge]
    split
    · exact UpgradedPlans.settled_of_none hcharge
    · next c' hread =>
      obtain ⟨row, hfind, hplan⟩ := Option.bind_eq_some_iff.1 hread
      obtain ⟨hsub, hown⟩ := Table.find?_some hfind
      obtain rfl := hactive.sole hsub hown
      exact stage_plan hcharge hactive (fun hend => hnew hsub hend) hplan
  | keeping id => exact UpgradedPlans.settled_of_none h
  | scheduling id n => exact UpgradedPlans.settled_of_none h
  | charging u =>
    obtain ⟨hcharge, hplan, hactive, hnew⟩ := h
    simp only [step, charge]
    by_cases hfree : u.amount cat < MIN_STRIPE_CHARGE
    · have hcharges : u.charges cat k = false := by simp [PlanUpgrade.charges, hfree]
      rw [if_pos hfree, hcharges, if_neg Bool.false_ne_true]
      refine ⟨hplan, fun charge hsome => ?_, hactive⟩
      rw [hcharge] at hsome
      cases hsome
    · rw [if_neg hfree]
      by_cases hanswered : k.card = true ∧ k.charge = .answered .succeeded
      · have hcharges : u.charges cat k = true := by
          simp [PlanUpgrade.charges, hfree, hanswered, ChargeOutcome.created]
        rw [if_pos hanswered, if_pos hcharges, hplan]
        exact ⟨rfl, hplan, hactive, hnew⟩
      · have hcharges : u.charges cat k = false := by
          rw [Bool.eq_false_iff]
          intro hcharges
          refine hanswered ⟨?_, hanswer u rfl hcharges⟩
          simp only [PlanUpgrade.charges, Bool.and_eq_true] at hcharges
          exact hcharges.1.2
        rw [if_neg hanswered, hcharges, if_neg Bool.false_ne_true]
        exact UpgradedPlans.settled_of_none hcharge
  | recording u =>
    obtain ⟨hcharge, hplan, hactive, hnew⟩ := h
    simp only [step, charge]
    have hnone : (s.plans.payments.any fun _ p => p.transactionId == some u.intent) = false := by
      rw [Bool.eq_false_iff]
      intro hany
      obtain ⟨i, p, hp, heq⟩ := Table.any_eq_true.1 hany
      exact hnew hp (beq_iff_eq.1 heq)
    rw [hnone, if_neg Bool.false_ne_true]
    exact ⟨hcharge, hplan, hactive, hnew⟩
  | creating u =>
    obtain ⟨hcharge, hplan, ⟨hrow, hsole⟩, hnew⟩ := h
    refine ⟨hplan, fun charge hsome => ?_, hrow, hsole⟩
    obtain rfl := Option.some.inj (hcharge.symm.trans hsome)
    exact ⟨rfl, rfl, rfl, .insert hnew⟩
  | switching id n periodEnd =>
    obtain ⟨rfl, hrecorded, hactive⟩ := h
    exact stage_switch hrecorded hactive

/-! ## Runs -/

/-- The invariant of the calls in flight: until `changePlan` has ended it weighs one. -/
def upgradeInv (userId newPlanId : ℕ) : CallInv UpgradedPlans UpgradeCall ℕ where
  weight
    | .change .. => 1
    | .confirm _ => 0
  whole s m := m = 0 → s.Settled userId newPlanId
  each s
    | .change u c => u = userId ∧ c.Stage userId newPlanId s
    | .confirm (.ending ..) | .confirm (.committing ..) => False
    | .confirm _ => True
  pair
    | .change .., .change .. => False
    | _, _ => True
  symm {a b} h := by cases a <;> cases b <;> exact h

theorem ChangePlan.Stage.locked {c : ChangePlan} (h : c.Stage userId newPlanId s) (b : Bool) :
    c.Stage userId newPlanId { s with locked := b } := by
  cases c with
  | reading u n => exact ⟨h.1, h.2.1, h.2.2.charge, h.2.2.active⟩
  | _ => exact h

theorem UpgradedPlans.Settled.locked (h : s.Settled userId newPlanId) (b : Bool) :
    ({ s with locked := b } : UpgradedPlans).Settled userId newPlanId := by
  intro charge hcharge
  obtain ⟨huser, hplan, hkept⟩ := h charge hcharge
  exact ⟨huser, hplan, hkept.held, hkept.paid, hkept.active⟩

/-- Under the condition a webhook writes nothing but the lock, and gives no plan. -/
theorem ConfirmUpgrade.step_locked {c : ConfirmUpgrade} {r : UpgradedPlans × Option UpgradeCall}
    (hok : (upgradeInv userId newPlanId).each s (.confirm c))
    (hkeeps : UpgradeCall.keepsUpgrade cat k (.confirm c) s = true)
    (hr : UpgradeCall.step cat k (.confirm c) s = some r) :
    (∃ b, r.1 = { s with locked := b }) ∧ (upgradeInv userId newPlanId).weigh r.2 = 0 ∧
      ∀ a ∈ r.2, ∃ c', a = .confirm c' ∧
        ∀ s', (upgradeInv userId newPlanId).each s' (.confirm c') := by
  obtain ⟨x, hx, rfl⟩ := Option.map_eq_some_iff.1 hr
  cases c with
  | locking intent o =>
    simp only [step] at hx
    obtain ⟨-, hx⟩ := Option.ite_none_left_eq_some.1 hx
    split at hx
    · obtain rfl := Option.some.inj hx
      exact ⟨⟨s.locked, rfl⟩, rfl, fun a ha => by cases ha⟩
    · obtain rfl := Option.some.inj hx
      refine ⟨⟨true, rfl⟩, rfl, fun a ha => ?_⟩
      obtain rfl := Option.some.inj ha
      exact ⟨_, rfl, fun _ => trivial⟩
  | blocking intent o =>
    have hblocks : s.plans.blocks cat o = true := hkeeps
    simp only [step, hblocks, if_pos] at hx
    obtain rfl := Option.some.inj hx
    refine ⟨⟨false, rfl⟩, rfl, fun a ha => ?_⟩
    obtain rfl := Option.some.inj ha
    exact ⟨_, rfl, fun _ => trivial⟩
  | ending intent o => exact hok.elim
  | committing intent o seen => exact hok.elim
  | refunding =>
    have hrefused : k.accepted = false := by
      simpa [UpgradeCall.keepsUpgrade] using hkeeps
    obtain rfl := Option.some.inj hx
    refine ⟨⟨s.locked, ?_⟩, rfl, fun a ha => by cases ha⟩
    simp [hrefused]

/-- Beside `changePlan` there are only webhooks, and these ask nothing of the state. -/
theorem upgradeInv_beside {u : ℕ} {c : ChangePlan} {d : UpgradeCall}
    (hpair : (upgradeInv userId newPlanId).pair (.change u c) d)
    (hd : (upgradeInv userId newPlanId).each s d) :
    (∀ s', (upgradeInv userId newPlanId).each s' d) ∧
      ∀ u' c', (upgradeInv userId newPlanId).pair (.change u' c') d := by
  cases d with
  | change u' c' => exact hpair.elim
  | confirm d => cases d <;> exact ⟨fun _ => hd, fun _ _ => trivial⟩

theorem UpgradeCall.keeps {c : UpgradeCall} {r : UpgradedPlans × Option UpgradeCall}
    (hkeeps : c.keepsUpgrade cat k s = true) (hr : (upgradeCalls cat).step k c s = some r) :
    (upgradeInv userId newPlanId).Keeps s (some c) r := by
  intro m hwhole hmine
  have hok := hmine c rfl
  cases c with
  | change u c =>
    obtain ⟨rfl, hstage⟩ := hok
    obtain rfl := Option.some.inj hr
    have hanswer : ∀ v, c = .charging v → v.charges cat k = true →
        k.charge = .answered .succeeded := by
      intro v hc hcharges
      subst hc
      simpa [keepsUpgrade, hcharges] using hkeeps
    have hgoes := c.stage_step hstage hanswer
    cases hnext : (c.step cat k s.plans).2.running with
    | none =>
      rw [hnext] at hgoes
      exact {
        whole := fun _ => hgoes
        mine := fun a ha => by cases ha
        others := fun d hd hpair => (upgradeInv_beside (hpair _ rfl) hd).1 _
        apart := fun d hd hpair a ha => by cases ha }
    | some c' =>
      rw [hnext] at hgoes
      refine {
        whole := fun hzero => absurd hzero (Nat.ne_of_gt (Nat.add_pos_left Nat.one_pos m))
        mine := fun a ha => ?_
        others := fun d hd hpair => (upgradeInv_beside (hpair _ rfl) hd).1 _
        apart := fun d hd hpair a ha => ?_ }
      · obtain rfl := Option.some.inj ha
        exact ⟨rfl, hgoes⟩
      · obtain rfl := Option.some.inj ha
        exact (upgradeInv_beside (hpair _ rfl) hd).2 _ _
  | confirm c =>
    obtain ⟨⟨b, hsame⟩, hweigh, hnext⟩ := ConfirmUpgrade.step_locked hok hkeeps hr
    refine {
      whole := fun hzero => ?_
      mine := fun a ha => ?_
      others := fun d hd _ => ?_
      apart := fun d _ _ a ha => ?_ }
    · rw [hweigh] at hzero
      rw [hsame]
      exact (hwhole hzero).locked b
    · obtain ⟨c', rfl, hc'⟩ := hnext a ha
      exact hc' _
    · rw [hsame]
      cases d with
      | change u d => exact ⟨hd.1, hd.2.locked b⟩
      | confirm d => cases d <;> exact hd
    · obtain ⟨c', rfl, -⟩ := hnext a ha
      cases d <;> trivial

theorem UpgradeEvent.keeps {e : UpgradeEvent} {r : UpgradedPlans × Option UpgradeCall}
    (hr : (upgradeCalls cat).event e s = some r) :
    (upgradeInv userId newPlanId).Keeps s none r := by
  intro m hwhole _
  obtain ⟨charge, -, rfl⟩ := Option.map_eq_some_iff.1 hr
  refine .stay hwhole rfl (fun a ha => ?_) fun d _ a ha => ?_
  · obtain rfl := Option.some.inj ha
    trivial
  · obtain rfl := Option.some.inj ha
    cases d <;> trivial

theorem upgradeInv_changing (h : s.Before userId newPlanId) :
    (upgradeInv userId newPlanId).Holds (s.changing userId newPlanId) := by
  refine ⟨fun hzero => ?_, fun {i c} hi => ?_, fun {i j c d} hne hi hj => ?_⟩
  · simp [UpgradedPlans.changing, upgradeInv] at hzero
  · simp only [UpgradedPlans.changing, Table.get?_insert, Table.get?_empty] at hi
    split at hi
    · obtain rfl := Option.some.inj hi
      exact ⟨rfl, rfl, rfl, h⟩
    · cases hi
  · simp only [UpgradedPlans.changing, Table.get?_insert, Table.get?_empty] at hi hj
    split at hi
    · next hnext =>
      split at hj
      · next hnext' => exact absurd (hnext.trans hnext'.symm) hne
      · cases hj
    · cases hi

/-- In every run of one `changePlan` and any deliveries of the webhook whose steps meet
`keepsUpgrade`: once all calls have ended, an upgrade that was charged is kept. -/
theorem paid_upgrade_kept {moves : List (Move UpgradeEvent PlanChance)}
    {x : Calls UpgradedPlans UpgradeCall} {charge : UpgradeCharge} (hs : s.Before userId newPlanId)
    (hmeets : (upgradeCalls cat).machine.Meets (CallSystem.When (fun _ _ => True)
      fun k c s => c.keepsUpgrade cat k s = true) (s.changing userId newPlanId) moves)
    (hrun : (upgradeCalls cat).machine.run (s.changing userId newPlanId) moves = some x)
    (hquiet : x.quiet = true) (hcharge : x.shared.charge = some charge) :
    charge.userId = userId ∧ charge.planId = newPlanId ∧ UpgradeKept x.shared charge := by
  have hend := (upgradeInv_changing hs).run (fun _ he => UpgradeEvent.keeps he)
    (fun hk hc => UpgradeCall.keeps hk hc) hmeets hrun
  exact hend.quiet hquiet rfl charge hcharge

end Stages

/-! ## Two runs -/

/-- An account that has paid for plan 1. -/
def paidPlan : UpgradedPlans where
  plans := { dueAccount with
    subscriptions := Table.empty.insert (PlanOrder.subscription largerPlans ⟨1, 1, none, none, 0⟩) }
  charge := none
  locked := false

theorem before_paidPlan : paidPlan.Before 1 2 where
  charge := rfl
  active := by
    refine ⟨1, ⟨⟨_, rfl, by decide⟩, fun {j sub} hsub _ => ?_⟩, fun _ _ _ _ hp => by cases hp⟩
    simp only [paidPlan, Table.get?_insert, Table.get?_empty] at hsub
    split at hsub
    · next heq => exact heq
    · cases hsub

/-- The webhook comes between the charge and the payment, and waits for the payment; it comes again
at the end. -/
def upgradedThenTold : List (Move UpgradeEvent PlanChance) :=
  List.replicate 2 (.step 1 stripeAccepts) ++ .event (.deliver 3600000) ::
    List.replicate 2 (.step 1 stripeAccepts) ++
      [.step 2 stripeAccepts, .step 1 stripeAccepts, .event (.deliver 3600000),
        .step 3 stripeAccepts]

theorem upgradedThenTold_kept : ∃ x charge,
    (upgradeCalls largerPlans).machine.run (paidPlan.changing 1 2) upgradedThenTold = some x ∧
      x.shared.charge = some charge ∧
        charge.userId = 1 ∧ charge.planId = 2 ∧ UpgradeKept x.shared charge := by
  have hmeets : (upgradeCalls largerPlans).machine.Meets (CallSystem.When (fun _ _ => True)
      fun k c s => c.keepsUpgrade largerPlans k s = true) (paidPlan.changing 1 2)
      upgradedThenTold := by
    decide +kernel
  have hsome : ((upgradeCalls largerPlans).machine.run (paidPlan.changing 1 2)
      upgradedThenTold).any (fun x => x.quiet && x.shared.charge.isSome) = true := by
    decide +kernel
  obtain ⟨x, hrun, hout⟩ := (Option.any_eq_true _ _).1 hsome
  rw [Bool.and_eq_true, Option.isSome_iff_exists] at hout
  obtain ⟨hquiet, charge, hcharge⟩ := hout
  exact ⟨x, charge, hrun, hcharge, paid_upgrade_kept before_paidPlan hmeets hrun hquiet hcharge⟩

/-- The webhook comes between the charge and the payment, and runs to its end there. -/
def toldBeforeRecorded : List (Move UpgradeEvent PlanChance) :=
  List.replicate 2 (.step 1 stripeAccepts) ++ .event (.deliver 3600000) ::
    List.replicate 3 (.step 2 stripeAccepts) ++ List.replicate 3 (.step 1 stripeAccepts)

theorem toldBeforeRecorded_refunds : paidPlan.Before 1 2 ∧ ∃ x charge,
    (upgradeCalls largerPlans).machine.run (paidPlan.changing 1 2) toldBeforeRecorded = some x ∧
      x.quiet = true ∧ x.shared.charge = some charge ∧ charge.refunded = true ∧
        (x.shared.plans.subscriptions.get? 1).any (·.planId == 2) = true ∧
          ¬ UpgradeKept x.shared charge := by
  have hsome : ((upgradeCalls largerPlans).machine.run (paidPlan.changing 1 2)
      toldBeforeRecorded).any (fun x => x.quiet && x.shared.charge.any (·.refunded) &&
        (x.shared.plans.subscriptions.get? 1).any (·.planId == 2)) = true := by
    decide +kernel
  obtain ⟨x, hrun, hout⟩ := (Option.any_eq_true _ _).1 hsome
  rw [Bool.and_eq_true, Bool.and_eq_true, Option.any_eq_true] at hout
  obtain ⟨⟨hquiet, charge, hcharge, hrefunded⟩, hplan⟩ := hout
  refine ⟨before_paidPlan, x, charge, hrun, hquiet, hcharge, hrefunded, hplan, fun h => ?_⟩
  rw [h.held] at hrefunded
  cases hrefunded

end Barbershop
