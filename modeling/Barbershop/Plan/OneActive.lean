import Barbershop.Plan.Active
import Barbershop.Plan.ChargedOnce

/-!
# One active plan for an account

Checkouts, renewals, refunds, webhooks and changes of plan side by side. `AccountCall.keepsOne` is
what a step has to meet: a checkout ends exactly one active subscription of its account, an expiry
ends an active one, the other writers of a status find the status they write, and a charge that gave
no plan is given back. Then an account has one active subscription whenever no call is in flight, and
each of its checkouts that succeeded has given one plan, or was given back.
-/

namespace Barbershop

open Lib

/-! ## What a step has to meet -/

namespace CreateSubscription

/-- The intent whose lock the call holds. -/
def holds : CreateSubscription → Option String
  | blocking o | claiming o | ending o | committing o _ => o.paymentIntentId
  | _ => none

/-- The plan it gives takes the place of one active subscription, and Stripe gives back what gave
no plan. -/
def keepsOne (u : ℕ) (k : PlanChance) (s : Accounts) : CreateSubscription → Bool
  | committing o seen => o.userId != u || (s.plans.subscriptions.filter fun id sub =>
      decide (id ∈ seen) && sub.activeOf u).length == 1
  | refunding id => k.accepted || !(s.checkouts id).any (·.userId == u)
  | _ => true

end CreateSubscription

namespace AccountCall

/-- The free subscriptions of the account that the call has yet to create. -/
def creates (u : ℕ) : AccountCall → ℕ
  | renewal c => c.creates u
  | refund c => c.creates u
  | webhook c => c.creates u
  | checkout _ | change _ => 0

def holds : AccountCall → Option String
  | checkout c => c.holds
  | _ => none

def keepsOne (cat : PlanCatalog) (u : ℕ) (k : PlanChance) (s : Accounts) : AccountCall → Bool
  | checkout c => c.keepsOne u k s
  | renewal c => c.keepsOne cat u s.plans
  | refund c => c.keepsOne cat u s.plans
  | webhook c => c.keepsOne cat u s.plans
  | change _ => true

end AccountCall

/-! ## The books -/

/-- No payment is of the checkout. -/
def Plans.Unpaid (s : Plans) (id : String) : Prop :=
  ∀ {i p}, s.payments.get? i = some p → p.transactionId ≠ some (.checkout id)

/-- What holds of the checkouts in every state. -/
structure CheckoutBooks (u : ℕ) (s : Accounts) : Prop where
  settled : ∀ {id co}, s.checkouts id = some co → co.userId = u → co.succeeded = true →
    id ∈ s.awaiting ∨ co.refunded = true ∨
      ∃ i p, s.plans.payments.get? i = some p ∧ p.transactionId = some (.checkout id)
  paid : ∀ {i p id}, s.plans.payments.get? i = some p → p.transactionId = some (.checkout id) →
    p.renewalKey = none ∧ ∃ co, s.checkouts id = some co ∧
      s.plans.OwnedBy p.subscriptionId co.userId
  one : ∀ {i j p q id}, s.plans.payments.get? i = some p → s.plans.payments.get? j = some q →
    p.transactionId = some (.checkout id) → q.transactionId = some (.checkout id) → i = j
  own : ∀ {i j p q id id'}, s.plans.payments.get? i = some p → s.plans.payments.get? j = some q →
    p.transactionId = some (.checkout id) → q.transactionId = some (.checkout id') →
      p.subscriptionId = q.subscriptionId → i = j

namespace CheckoutBooks

variable {u : ℕ} {s : Accounts}

theorem apart (h : CheckoutBooks u s) : s.plans.Apart :=
  fun hi hkey _ hintent => hkey (h.paid hi hintent).1

/-- A payment of a checkout in a later state is one of the earlier state. -/
theorem back {s s' : Plans} (hk : PlansKeep s s') {i : ℕ} {p' : PlanPayment} {id : String}
    (hi : s'.payments.get? i = some p') (hp : p'.transactionId = some (.checkout id)) :
    ∃ p, s.payments.get? i = some p ∧ p.SameCheckout p' ∧ p.transactionId = some (.checkout id) := by
  cases hbefore : s.payments.get? i with
  | none => exact absurd hp (hk.new hi hbefore id)
  | some p =>
    obtain ⟨p'', hi'', hsame⟩ := hk.row hbefore
    obtain rfl := Option.some.inj (hi.symm.trans hi'')
    exact ⟨p, rfl, hsame, (hsame.intent id).1 hp⟩

/-- Writes of plans that are about no checkout. -/
theorem of_plans (h : CheckoutBooks u s) {plans : Plans} (hk : PlansKeep s.plans plans) :
    CheckoutBooks u { s with plans := plans } where
  settled hid hu hs := by
    refine (h.settled hid hu hs).imp_right fun hor => hor.imp_right ?_
    rintro ⟨i, p, hi, hp⟩
    obtain ⟨p', hi', hsame⟩ := hk.row hi
    exact ⟨i, p', hi', (hsame.intent _).2 hp⟩
  paid hi hp := by
    obtain ⟨p, hp₀, hsame, hintent⟩ := back hk hi hp
    obtain ⟨hkey, co, hco, howned⟩ := h.paid hp₀ hintent
    refine ⟨hsame.key.trans hkey, co, hco, ?_⟩
    rw [hsame.subscription]
    exact howned.keep hk
  one hi hj hp hq := by
    obtain ⟨p, hp₀, -, hintent⟩ := back hk hi hp
    obtain ⟨q, hq₀, -, hintent'⟩ := back hk hj hq
    exact h.one hp₀ hq₀ hintent hintent'
  own hi hj hp hq heq := by
    obtain ⟨p, hp₀, hsame, hintent⟩ := back hk hi hp
    obtain ⟨q, hq₀, hsame', hintent'⟩ := back hk hj hq
    exact h.own hp₀ hq₀ hintent hintent'
      (hsame.subscription.symm.trans (heq.trans hsame'.subscription))

/-- A confirmation is due. -/
theorem await (h : CheckoutBooks u s) (id : String) :
    CheckoutBooks u { s with awaiting := id :: s.awaiting } where
  settled hid hu hs := (h.settled hid hu hs).imp_left fun hmem => List.mem_cons_of_mem _ hmem
  paid := h.paid
  one := h.one
  own := h.own

theorem of_locked (h : CheckoutBooks u s) (locked : List String) :
    CheckoutBooks u { s with locked := locked } := ⟨h.settled, h.paid, h.one, h.own⟩

/-- A confirmation ends once its intent has given a plan or was given back, or is another's. -/
theorem confirmed (h : CheckoutBooks u s) {id : String}
    (hid : ∀ co ∈ s.checkouts id, co.userId = u → co.refunded = true ∨
      ∃ i p, s.plans.payments.get? i = some p ∧ p.transactionId = some (.checkout id)) :
    CheckoutBooks u (s.confirmed id) where
  settled {id' co} hid' hu hs := by
    by_cases heq : id' = id
    · subst heq
      exact .inr (hid co hid' hu)
    · exact (h.settled hid' hu hs).imp_left fun hmem => by simp [Accounts.confirmed, hmem, heq]
  paid := h.paid
  one := h.one
  own := h.own

/-- A change of an intent that keeps its owner. -/
theorem setCheckout (h : CheckoutBooks u s) {id : String} {co : PlanCheckout}
    (hkeep : ∀ co₀ ∈ s.checkouts id, co.userId = co₀.userId)
    (hsettled : co.userId = u → co.succeeded = true → id ∈ s.awaiting ∨ co.refunded = true ∨
      ∃ i p, s.plans.payments.get? i = some p ∧ p.transactionId = some (.checkout id)) :
    CheckoutBooks u (s.setCheckout id co) where
  settled {id' co'} hid' hu hs := by
    simp only [Accounts.setCheckout, Function.update_apply] at hid'
    split at hid'
    · next heq =>
      subst heq
      obtain rfl := Option.some.inj hid'
      exact hsettled hu hs
    · exact h.settled hid' hu hs
  paid {i p id'} hi hp := by
    obtain ⟨hkey, co', hco', howned⟩ := h.paid hi hp
    by_cases heq : id' = id
    · subst heq
      refine ⟨hkey, co, by simp [Accounts.setCheckout], ?_⟩
      rw [hkeep co' hco']
      exact howned
    · exact ⟨hkey, co', by simp [Accounts.setCheckout, heq, hco'], howned⟩
  one := h.one
  own := h.own

theorem giveBack (h : CheckoutBooks u s) (intent : PlanIntent) :
    CheckoutBooks u (s.giveBack intent) := by
  cases intent with
  | checkout id =>
    simp only [Accounts.giveBack]
    cases hco : s.checkouts id with
    | none => exact h
    | some co =>
      refine h.setCheckout (fun co₀ hco₀ => ?_) fun _ _ => .inr (.inl rfl)
      obtain rfl := Option.some.inj (hco.symm.trans hco₀)
      rfl
  | renewal key => exact h
  | upgrade subscriptionId planId periodEnd => exact h

end CheckoutBooks

/-! ## What a call relies on -/

namespace PlanOrder

/-- Its intent is its account's. -/
def Known (s : Accounts) (o : PlanOrder) : Prop :=
  ∀ id ∈ o.paymentIntentId, ∃ co, s.checkouts id = some co ∧ co.userId = o.userId

/-- The call holds the lock of its intent, which has given no plan. -/
def Alone (s : Accounts) (o : PlanOrder) : Prop :=
  ∀ id ∈ o.paymentIntentId, id ∈ s.locked ∧ s.plans.Unpaid id

end PlanOrder

def CreateSubscription.Ok (s : Accounts) : CreateSubscription → Prop
  | locking o => o.Known s
  | blocking o | claiming o | ending o | committing o _ => o.Known s ∧ o.Alone s
  | offering _ | refunding _ => True

def AccountCall.Ok (s : Accounts) : AccountCall → Prop
  | checkout c => c.Ok s
  | renewal c => c.Belongs s.plans
  | refund c => c.Belongs s.plans
  | webhook c => c.Belongs s.plans
  | change _ => True

/-- Between an earlier and a later state, when the step's call holds the lock `h`: the locks and the
checkouts of the others are as they were. -/
structure AccountsKeep (h : Option String) (s s' : Accounts) : Prop where
  owner : ∀ {i sub}, s.plans.subscriptions.get? i = some sub →
    ∃ sub', s'.plans.subscriptions.get? i = some sub' ∧ sub'.userId = sub.userId
  keyed : ∀ {i}, s.plans.Keyed i → s'.plans.Keyed i
  known : ∀ {id co}, s.checkouts id = some co →
    ∃ co', s'.checkouts id = some co' ∧ co'.userId = co.userId
  locked : ∀ {id}, h ≠ some id → id ∈ s.locked → id ∈ s'.locked
  unpaid : ∀ {id}, h ≠ some id → s.plans.Unpaid id → s'.plans.Unpaid id

namespace AccountsKeep

variable {h : Option String} {s s' : Accounts}

theorem of_plans (hk : PlansKeep s.plans s'.plans) (hknown : ∀ {id co}, s.checkouts id = some co →
    ∃ co', s'.checkouts id = some co' ∧ co'.userId = co.userId)
    (hlocked : ∀ {id}, h ≠ some id → id ∈ s.locked → id ∈ s'.locked) : AccountsKeep h s s' where
  owner := hk.owner
  keyed hi := hi.keep hk
  known := hknown
  locked := hlocked
  unpaid _ hu _ _ hi hp := by
    obtain ⟨p, hp₀, -, hintent⟩ := CheckoutBooks.back hk hi hp
    exact hu hp₀ hintent

theorem ownedBy (hk : AccountsKeep h s s') {id userId : ℕ} (ho : s.plans.OwnedBy id userId) :
    s'.plans.OwnedBy id userId := by
  obtain ⟨sub, hsub, howner⟩ := ho
  obtain ⟨sub', hsub', howner'⟩ := hk.owner hsub
  exact ⟨sub', hsub', howner'.trans howner⟩

theorem knownOrder (hk : AccountsKeep h s s') {o : PlanOrder} (ho : o.Known s) : o.Known s' := by
  intro id hid
  obtain ⟨co, hco, howner⟩ := ho id hid
  obtain ⟨co', hco', howner'⟩ := hk.known hco
  exact ⟨co', hco', howner'.trans howner⟩

theorem alone (hk : AccountsKeep h s s') {o : PlanOrder}
    (hh : ∀ id, h = some id → o.paymentIntentId ≠ some id) (ho : o.Alone s) : o.Alone s' := by
  intro id hid
  have hne : h ≠ some id := fun heq => hh id heq hid
  exact ⟨hk.locked hne (ho id hid).1, hk.unpaid hne (ho id hid).2⟩

theorem expire (hk : AccountsKeep h s s') {c : ExpireSubscription} (hc : c.Belongs s.plans) :
    c.Belongs s'.plans := by
  cases c with
  | deactivating id userId => exact hk.ownedBy hc
  | creating userId => trivial

theorem reconcile (hk : AccountsKeep h s s') {c : ReconcileRenewal} (hc : c.Belongs s.plans) :
    c.Belongs s'.plans := by
  cases c with
  | reading id | searching id _ | recording id _ => exact hk.keyed hc
  | retrieving _ _ | finalizing _ | failing _ => trivial

theorem renew (hk : AccountsKeep h s s') {c : RenewSubscription} (hc : c.Belongs s.plans) :
    c.Belongs s'.plans := by
  cases c with
  | switching d _ | advancing d | looking d | throttling d | counting d | claiming d _ =>
    exact hk.ownedBy hc
  | reconciling d c => exact ⟨hk.ownedBy hc.1, hk.reconcile hc.2⟩
  | choosing _ _ id | charging _ _ id | refused id _ | recording id _ _ => exact hk.keyed hc
  | expiring c => exact hk.expire hc
  | reading _ _ | finalizing _ | failing _ => trivial

theorem ok (hk : AccountsKeep h s s') {c : AccountCall}
    (hh : ∀ id, h = some id → c.holds ≠ some id) (hc : c.Ok s) : c.Ok s' := by
  cases c with
  | checkout c => cases c with
    | locking o => exact hk.knownOrder hc
    | blocking o | claiming o | ending o | committing o _ =>
      exact ⟨hk.knownOrder hc.1, hk.alone hh hc.2⟩
    | offering _ | refunding _ => trivial
  | renewal c => cases c with
    | renew c => exact hk.renew hc
    | webhook _ => trivial
  | refund c => cases c with
    | dating _ _ _ => exact hk.ownedBy hc
    | expiring c => exact hk.expire hc
    | refunding _ | finding _ | marking _ | reading _ | restoring _ _ => trivial
  | webhook c => cases c with
    | releasing c => exact hk.expire hc
    | updated _ _ | deleted _ | activating _ | deactivating _ => trivial
  | change _ => trivial

end AccountsKeep

/-! ## The steps -/

/-- A call that held the lock `h` and had `n` free subscriptions to create has moved on, or ended. -/
structure AccountGoes (u n : ℕ) (h : Option String) (s s' : Accounts) (c : Option AccountCall) :
    Prop where
  books : CheckoutBooks u s'
  keep : AccountsKeep h s s'
  balance : activePlans u s'.plans.subscriptions + c.elim 0 (AccountCall.creates u) =
    activePlans u s.plans.subscriptions + n
  ok : ∀ a ∈ c, a.Ok s'
  /-- A lock that it takes was free. -/
  holds : ∀ a ∈ c, ∀ id, a.holds = some id → h = some id ∨ id ∉ s.locked

namespace AccountGoes

variable {u n : ℕ} {h : Option String} {s s' : Accounts}

/-- By what the step does to the plans, of a call that takes no lock. -/
theorem of_plans {τ : Type} {weight : τ → ℕ} {ok : Plans → τ → Prop} {c : Option τ}
    (hbooks : CheckoutBooks u s') (hkeep : AccountsKeep h s s')
    (hgoes : PlanGoes u weight ok n s.plans s'.plans c) (wrap : τ → AccountCall)
    (hweight : ∀ c, (wrap c).creates u = weight c) (hok : ∀ c, ok s'.plans c → (wrap c).Ok s')
    (hholds : ∀ c, (wrap c).holds = none) : AccountGoes u n h s s' (c.map wrap) where
  books := hbooks
  keep := hkeep
  balance := by
    have hfun : AccountCall.creates u ∘ wrap = weight := funext hweight
    rw [Option.elim_map, hfun]
    exact hgoes.balance
  ok := Option.forall_mem_map.2 fun c hc => hok c (hgoes.ok c hc)
  holds := Option.forall_mem_map.2 fun c _ id hid => by simp [hholds] at hid

/-- A step that writes no subscription, of a call that goes on with none to create. -/
theorem next (hbooks : CheckoutBooks u s') (hkeep : AccountsKeep h s s')
    (hsubs : s'.plans.subscriptions = s.plans.subscriptions) {c : AccountCall}
    (hweight : c.creates u = 0) (hok : c.Ok s')
    (hholds : ∀ id, c.holds = some id → h = some id ∨ id ∉ s.locked) :
    AccountGoes u 0 h s s' (some c) where
  books := hbooks
  keep := hkeep
  balance := by simp [hsubs, hweight]
  ok := by simpa using hok
  holds := by simpa using hholds

theorem done (hbooks : CheckoutBooks u s') (hkeep : AccountsKeep h s s')
    (hactive : activePlans u s'.plans.subscriptions = activePlans u s.plans.subscriptions) :
    AccountGoes u 0 h s s' none where
  books := hbooks
  keep := hkeep
  balance := by simp [hactive]
  ok := by simp
  holds := by simp

end AccountGoes

section Checkouts

variable {cat : PlanCatalog} {k : PlanChance} {u : ℕ} {s : Accounts} {h : Option String}

theorem AccountsKeep.setCheckout {id : String} {co : PlanCheckout}
    (hkeep : ∀ co₀ ∈ s.checkouts id, co.userId = co₀.userId) :
    AccountsKeep h s (s.setCheckout id co) := by
  refine .of_plans (.refl s.plans) (fun {id' co'} hco' => ?_) fun _ hmem => hmem
  by_cases heq : id' = id
  · subst heq
    exact ⟨co, by simp [Accounts.setCheckout], hkeep co' hco'⟩
  · exact ⟨co', by simp [Accounts.setCheckout, heq, hco'], rfl⟩

theorem AccountsKeep.giveBack (intent : PlanIntent) : AccountsKeep h s (s.giveBack intent) := by
  have hrefl : AccountsKeep h s s :=
    .of_plans (.refl s.plans) (fun hco => ⟨_, hco, rfl⟩) fun _ hmem => hmem
  cases intent with
  | checkout id =>
    simp only [Accounts.giveBack]
    cases hco : s.checkouts id with
    | none => exact hrefl
    | some co =>
      refine .setCheckout fun co₀ hco₀ => ?_
      obtain rfl := Option.some.inj (hco.symm.trans hco₀)
      rfl
  | renewal key => exact hrefl
  | upgrade subscriptionId planId periodEnd => exact hrefl

/-- The end of a transaction gives back the lock of its call only. -/
theorem PlanOrder.locked_unlock (o : PlanOrder) {id : String} (hid : o.paymentIntentId ≠ some id)
    (hmem : id ∈ s.locked) : id ∈ (o.unlock s).locked := by
  unfold PlanOrder.unlock
  cases hi : o.paymentIntentId with
  | none => exact hmem
  | some id' =>
    have hne : id ≠ id' := fun heq => hid (hi.trans (congrArg some heq.symm))
    simp [hmem, hne]

namespace PlanOrder

variable {o : PlanOrder} {seen : List ℕ}

/-- Of the account's active subscriptions those that the statement saw end. -/
theorem activeOf_finish (o : PlanOrder) (seen : List ℕ) (id : ℕ) (sub : PlatformSubscription) :
    (o.finish seen id sub).activeOf o.userId = (sub.activeOf o.userId && decide (id ∉ seen)) := by
  unfold finish
  split
  · next hended => simp [hended.1, PlatformSubscription.activeOf]
  · next hnot =>
    cases hactive : sub.activeOf o.userId with
    | true => simpa [hactive] using hnot
    | false => rfl

/-- Those of the other accounts stay. -/
theorem finish_of_ne (o : PlanOrder) (seen : List ℕ) (id : ℕ) {sub : PlatformSubscription}
    (hne : sub.userId ≠ o.userId) : o.finish seen id sub = sub := by
  simp [finish, PlatformSubscription.activeOf, hne]

theorem userId_finish (o : PlanOrder) (seen : List ℕ) (id : ℕ) (sub : PlatformSubscription) :
    (o.finish seen id sub).userId = sub.userId := by
  unfold finish
  split <;> rfl

theorem activePlans_subscribe (hone : o.userId ≠ u ∨ (s.plans.subscriptions.filter fun id sub =>
      decide (id ∈ seen) && sub.activeOf u).length = 1) :
    activePlans u (o.subscribe cat seen s.plans).subscriptions =
      activePlans u s.plans.subscriptions := by
  have hnew : (o.subscription cat).activeOf u = (o.userId == u) := by
    simp [PlatformSubscription.activeOf, subscription]
  simp only [subscribe, activePlans_insert, hnew, beq_iff_eq]
  by_cases howner : o.userId = u
  · have hcount := hone.resolve_left fun hne => hne howner
    rw [if_pos howner, ← hcount, activePlans_eq_sum, activePlans_eq_sum, Table.sum_modifyAll,
      ← Nat.cast_id (List.length _), Table.length_filter, ← Table.sum_add]
    refine Table.sum_congr fun id sub _ => ?_
    subst howner
    rw [activeOf_finish]
    by_cases hmem : id ∈ seen <;> simp [hmem]
  · rw [if_neg howner, add_zero, activePlans_eq_sum, activePlans_eq_sum, Table.sum_modifyAll]
    refine Table.sum_congr fun id sub _ => ?_
    by_cases hown : sub.userId = o.userId
    · have hne : sub.userId ≠ u := hown ▸ howner
      simp [PlatformSubscription.activeOf, userId_finish, hne]
    · rw [finish_of_ne o seen id hown]

/-- A checkout leaves the subscriptions to their owners. -/
theorem owner_subscribe {i : ℕ} {sub : PlatformSubscription}
    (hi : s.plans.subscriptions.get? i = some sub) : ∃ sub',
      (o.subscribe cat seen s.plans).subscriptions.get? i = some sub' ∧ sub'.userId = sub.userId := by
  exact ⟨o.finish seen i sub, Table.get?_insert_of_some _ (by simp [hi]), userId_finish ..⟩

theorem payment_subscribe {i : ℕ} {p : PlanPayment}
    (hi : (o.subscribe cat seen s.plans).payments.get? i = some p) :
    i = s.plans.payments.next ∧ p = o.payment cat s.plans.subscriptions.next ∨
      s.plans.payments.get? i = some p := by
  rw [subscribe, Table.get?_insert] at hi
  split at hi
  · next heq => exact .inl ⟨heq, (Option.some.inj hi).symm⟩
  · exact .inr hi

theorem keep_subscribe : AccountsKeep o.paymentIntentId s
    { s with plans := o.subscribe cat seen s.plans } where
  owner := owner_subscribe
  keyed := by
    rintro i ⟨p, hp, hkey⟩
    exact ⟨p, Table.get?_insert_of_some _ hp, hkey⟩
  known hco := ⟨_, hco, rfl⟩
  locked _ hmem := hmem
  unpaid := by
    intro id hne hu i p hi hp
    rcases payment_subscribe hi with ⟨-, rfl⟩ | hold
    · obtain ⟨id', hid', heq⟩ := Option.map_eq_some_iff.1 hp
      cases heq
      exact hne hid'
    · exact hu hold hp

theorem books_subscribe (hbooks : CheckoutBooks u s) (hknown : o.Known s) (halone : o.Alone s) :
    CheckoutBooks u { s with plans := o.subscribe cat seen s.plans } := by
  have hfresh : ∀ {i p id}, s.plans.payments.get? i = some p →
      p.transactionId = some (.checkout id) → p.subscriptionId ≠ s.plans.subscriptions.next := by
    intro i p id hi hp heq
    obtain ⟨-, co, -, sub, hsub, -⟩ := hbooks.paid hi hp
    exact absurd (Table.lt_next_of_get? hsub) (by rw [heq]; exact Nat.lt_irrefl _)
  have hunpaid : ∀ {i p id}, s.plans.payments.get? i = some p →
      p.transactionId = some (.checkout id) →
        (o.payment cat s.plans.subscriptions.next).transactionId ≠ some (.checkout id) := by
    intro i p id hi hp hnew
    obtain ⟨id', hid', heq⟩ := Option.map_eq_some_iff.1 hnew
    cases heq
    exact (halone id hid').2 hi hp
  refine ⟨?_, ?_, ?_, ?_⟩
  · intro id co hco hu hs
    refine (hbooks.settled hco hu hs).imp_right fun hor => hor.imp_right ?_
    rintro ⟨i, p, hi, hp⟩
    exact ⟨i, p, Table.get?_insert_of_some _ hi, hp⟩
  · intro i p id hi hp
    rcases payment_subscribe hi with ⟨-, rfl⟩ | hold
    · obtain ⟨id', hid', heq⟩ := Option.map_eq_some_iff.1 hp
      cases heq
      obtain ⟨co, hco, howner⟩ := hknown id hid'
      exact ⟨rfl, co, hco, o.subscription cat, Table.get?_insert_self _ _, howner.symm⟩
    · obtain ⟨hkey, co, hco, sub, hsub, howner⟩ := hbooks.paid hold hp
      obtain ⟨sub', hsub', howner'⟩ := @owner_subscribe cat s o seen _ _ hsub
      exact ⟨hkey, co, hco, sub', hsub', howner'.trans howner⟩
  · intro i j p q id hi hj hp hq
    rcases payment_subscribe hi with ⟨rfl, rfl⟩ | hi₀
    · rcases payment_subscribe hj with ⟨rfl, -⟩ | hj₀
      · rfl
      · exact absurd hp (hunpaid hj₀ hq)
    · rcases payment_subscribe hj with ⟨rfl, rfl⟩ | hj₀
      · exact absurd hq (hunpaid hi₀ hp)
      · exact hbooks.one hi₀ hj₀ hp hq
  · intro i j p q id id' hi hj hp hq heq
    rcases payment_subscribe hi with ⟨rfl, rfl⟩ | hi₀
    · rcases payment_subscribe hj with ⟨rfl, -⟩ | hj₀
      · rfl
      · exact absurd heq.symm (hfresh hj₀ hq)
    · rcases payment_subscribe hj with ⟨rfl, rfl⟩ | hj₀
      · exact absurd heq (hfresh hi₀ hp)
      · exact hbooks.own hi₀ hj₀ hp hq heq

end PlanOrder

theorem AccountsKeep.refl (h : Option String) (s : Accounts) : AccountsKeep h s s :=
  .of_plans (.refl s.plans) (fun hco => ⟨_, hco, rfl⟩) fun _ hmem => hmem

/-- The confirmation, and the lock of the call's own intent, are its own matter. -/
theorem AccountsKeep.unlock {o : PlanOrder} {s' : Accounts}
    (hk : AccountsKeep o.paymentIntentId s s') : AccountsKeep o.paymentIntentId s (o.unlock s') where
  owner := hk.owner
  keyed := hk.keyed
  known := hk.known
  locked hne hmem := o.locked_unlock hne (hk.locked hne hmem)
  unpaid := hk.unpaid

theorem AccountsKeep.confirmed {s' : Accounts} (hk : AccountsKeep h s s') (id : String) :
    AccountsKeep h s (s'.confirmed id) := ⟨hk.owner, hk.keyed, hk.known, hk.locked, hk.unpaid⟩

/-- A call that looked, and takes no lock that it does not hold. -/
theorem AccountGoes.look (hbooks : CheckoutBooks u s) {c : AccountCall} (hweight : c.creates u = 0)
    (hok : c.Ok s) (hholds : ∀ id, c.holds = some id → h = some id) :
    AccountGoes u 0 h s s (some c) :=
  .next hbooks (.refl h s) rfl hweight hok fun id hid => .inl (hholds id hid)

theorem AccountGoes.stop (hbooks : CheckoutBooks u s) : AccountGoes u 0 h s s none :=
  .done hbooks (.refl h s) rfl

namespace CreateSubscription

theorem goes_refuse (hbooks : CheckoutBooks u s) (o : PlanOrder) :
    AccountGoes u 0 o.paymentIntentId s (refuse o s).1
      ((refuse o s).2.running.map AccountCall.checkout) := by
  have hkeep : AccountsKeep o.paymentIntentId s (o.unlock s) := (AccountsKeep.refl _ s).unlock
  have hbooks' : CheckoutBooks u (o.unlock s) := hbooks.of_locked _
  unfold refuse
  cases hid : o.paymentIntentId with
  | none =>
    rw [hid] at hkeep
    exact .done hbooks' hkeep rfl
  | some id =>
    rw [hid] at hkeep
    exact .next (c := .checkout (.refunding id)) hbooks' hkeep rfl rfl trivial
      fun _ hid => by cases hid

theorem goes_commit (hbooks : CheckoutBooks u s) {o : PlanOrder} {seen : List ℕ}
    (hknown : o.Known s) (halone : o.Alone s) (hone : (committing o seen).keepsOne u k s = true) :
    AccountGoes u 0 o.paymentIntentId s
      (o.paymentIntentId.elim (o.unlock { s with plans := o.subscribe cat seen s.plans })
        (o.unlock { s with plans := o.subscribe cat seen s.plans }).confirmed) none := by
  have hactive := @PlanOrder.activePlans_subscribe cat u s o seen (by simpa [keepsOne] using hone)
  have hnew : CheckoutBooks u (o.unlock { s with plans := o.subscribe cat seen s.plans }) :=
    (PlanOrder.books_subscribe hbooks hknown halone).of_locked _
  have hkeep := (@PlanOrder.keep_subscribe cat s o seen).unlock
  cases hid : o.paymentIntentId with
  | none =>
    rw [hid] at hkeep
    exact .done hnew hkeep hactive
  | some id =>
    rw [hid] at hkeep
    refine .done (hnew.confirmed fun co _ _ => .inr ?_) (hkeep.confirmed id) hactive
    exact ⟨s.plans.payments.next, o.payment cat s.plans.subscriptions.next,
      Table.get?_insert_self _ _, by simp [PlanOrder.payment, hid]⟩

theorem goes (c : CreateSubscription) (hok : c.Ok s) (hone : c.keepsOne u k s = true)
    (hbooks : CheckoutBooks u s) {r : Accounts × Progress CreateSubscription Unit}
    (hr : c.step cat k s = some r) :
    AccountGoes u 0 c.holds s r.1 (r.2.running.map AccountCall.checkout) := by
  cases c with
  | offering request =>
    simp only [step] at hr
    split at hr
    · obtain rfl := Option.some.inj hr
      exact .stop hbooks
    · split at hr
      · obtain rfl := Option.some.inj hr
        exact .look hbooks rfl ⟨by simp [PlanOrder.Known], by simp [PlanOrder.Alone]⟩
          fun _ hid => by cases hid
      · obtain ⟨hnew, heq⟩ := Option.ite_none_left_eq_some.1 hr
        obtain rfl := Option.some.inj heq
        have hnone : s.checkouts request.paymentIntentId = none := by simpa using hnew
        refine .done (hbooks.setCheckout ?_ fun _ hs => by cases hs) (.setCheckout ?_) rfl
        · simp [hnone]
        · simp [hnone]
  | locking o =>
    simp only [step] at hr
    cases hid : o.paymentIntentId with
    | none =>
      rw [hid] at hr
      obtain rfl := Option.some.inj hr
      refine .look hbooks rfl ⟨hok, ?_⟩ fun id h' => ?_
      · simp [PlanOrder.Alone, hid]
      · simp [AccountCall.holds, holds, hid] at h'
    | some id =>
      rw [hid] at hr
      obtain ⟨hfree, hr⟩ := Option.ite_none_left_eq_some.1 hr
      split at hr
      · next hpaid =>
        obtain rfl := Option.some.inj hr
        obtain ⟨i, p, hi, hp⟩ := Table.any_eq_true.1 hpaid
        have hbooks' : CheckoutBooks u (s.confirmed id) :=
          hbooks.confirmed fun _ _ _ => .inr ⟨i, p, hi, beq_iff_eq.1 hp⟩
        exact .done hbooks' ((AccountsKeep.refl _ s).confirmed id) rfl
      · next hunpaid =>
        obtain rfl := Option.some.inj hr
        have hunpaid : s.plans.Unpaid id := fun {i p} hi => by
          simpa using Table.any_eq_false.1 (Bool.eq_false_iff.2 hunpaid) i p hi
        refine .next (s := s) (c := .checkout (.blocking o)) (hbooks.of_locked (id :: s.locked))
          ?_ rfl rfl ⟨hok, ?_⟩ ?_
        · exact .of_plans (.refl s.plans) (fun hco => ⟨_, hco, rfl⟩)
            fun _ hmem => List.mem_cons_of_mem _ hmem
        · intro id' hid'
          obtain rfl := Option.some.inj (hid.symm.trans hid')
          exact ⟨List.mem_cons_self, hunpaid⟩
        · intro id' hid'
          obtain rfl := Option.some.inj (hid.symm.trans hid')
          exact .inr hfree
  | blocking o =>
    simp only [step] at hr
    split at hr
    · obtain rfl := Option.some.inj hr
      exact goes_refuse hbooks o
    · obtain rfl := Option.some.inj hr
      exact .look hbooks rfl hok fun _ hid => hid
  | claiming o =>
    simp only [step] at hr
    split at hr
    · obtain rfl := Option.some.inj hr
      exact goes_refuse hbooks o
    · obtain rfl := Option.some.inj hr
      exact .look hbooks rfl hok fun _ hid => hid
  | ending o =>
    obtain rfl := Option.some.inj hr
    exact .look hbooks rfl hok fun _ hid => hid
  | committing o seen =>
    obtain rfl := Option.some.inj hr
    exact goes_commit hbooks hok.1 hok.2 hone
  | refunding id =>
    obtain rfl := Option.some.inj hr
    dsimp only
    split
    · next haccepted =>
      have hback : ∀ co ∈ (s.giveBack (.checkout id)).checkouts id, co.refunded = true := by
        intro co hco
        cases hid : s.checkouts id with
        | none => simp [Accounts.giveBack, hid] at hco
        | some co₀ =>
          simp only [Accounts.giveBack, hid, Option.elim_some, Accounts.setCheckout,
            Function.update_self, Option.mem_def, Option.some.injEq] at hco
          rw [← hco]
      have hbooks' : CheckoutBooks u ((s.giveBack (.checkout id)).confirmed id) :=
        (hbooks.giveBack (.checkout id)).confirmed fun co hco _ => .inl (hback co hco)
      exact .done hbooks' ((AccountsKeep.giveBack _).confirmed id) (by simp [Accounts.confirmed])
    · next hnot =>
      have hother : ∀ co ∈ s.checkouts id, co.userId ≠ u := by
        intro co hco
        have hco := Option.mem_def.1 hco
        simpa [keepsOne, hnot, hco] using hone
      exact .done (hbooks.confirmed fun co hco hu => absurd hu (hother co hco))
        ((AccountsKeep.refl _ s).confirmed id) rfl

end CreateSubscription

end Checkouts

/-! ## Runs -/

section Runs

variable {cat : PlanCatalog} {k : PlanChance} {u : ℕ} {s : Accounts}

/-- A refund changes nothing but the plans, or nothing but what Stripe has given back. -/
theorem RefundPlan.accounts (c : RefundPlan) : (∃ intent, (c.step cat k s).1 = s.giveBack intent) ∨
    (c.step cat k s).1 = { s with plans := (c.step cat k s).1.plans } := by
  cases c with
  | refunding id =>
    simp only [step]
    split
    · exact .inr rfl
    · split
      · exact .inr rfl
      · next intent _ =>
        split
        · exact .inl ⟨intent, rfl⟩
        · exact .inr rfl
  | finding intent =>
    refine .inr ?_
    simp only [step]
    split <;> rfl
  | marking id =>
    refine .inr ?_
    simp only [step]
    split <;> rfl
  | reading id =>
    refine .inr ?_
    simp only [step]
    split
    · rfl
    · split
      · rfl
      · split
        · split <;> rfl
        · rfl
  | restoring id planId => exact .inr rfl
  | dating id subscriptionId userId =>
    refine .inr ?_
    simp only [step]
    split <;> rfl
  | expiring c => exact .inr rfl

theorem AccountCall.goes (c : AccountCall) (hok : c.Ok s) (hone : c.keepsOne cat u k s = true)
    (hbooks : CheckoutBooks u s) {r : Accounts × Option AccountCall}
    (hr : c.step cat k s = some r) : AccountGoes u (c.creates u) c.holds s r.1 r.2 := by
  have hplans : ∀ {plans : Plans}, PlansKeep s.plans plans →
      CheckoutBooks u { s with plans := plans } ∧ AccountsKeep none s { s with plans := plans } :=
    fun hk => ⟨hbooks.of_plans hk, .of_plans hk (fun hco => ⟨_, hco, rfl⟩) fun _ hmem => hmem⟩
  cases c with
  | checkout c =>
    obtain ⟨r', hr', rfl⟩ := Option.map_eq_some_iff.1 hr
    exact c.goes hok hone hbooks hr'
  | renewal c =>
    obtain rfl := Option.some.inj hr
    have hgoes := c.planGoes (k := k.toRenewalChance) hok hone hbooks.apart
    obtain ⟨hnew, hkeep⟩ := hplans hgoes.keep
    exact .of_plans hnew hkeep hgoes .renewal (fun _ => rfl) (fun _ hc => hc) fun _ => rfl
  | refund c =>
    obtain rfl := Option.some.inj hr
    have hgoes := c.planGoes (k := k) hok hone
    have hstep : CheckoutBooks u (c.step cat k s).1 ∧ AccountsKeep none s (c.step cat k s).1 := by
      rcases @RefundPlan.accounts cat k s c with ⟨intent, heq⟩ | heq
      · rw [heq]
        exact ⟨hbooks.giveBack intent, .giveBack intent⟩
      · rw [heq]
        exact hplans hgoes.keep
    exact .of_plans hstep.1 hstep.2 hgoes .refund (fun _ => rfl) (fun _ hc => hc) fun _ => rfl
  | webhook c =>
    obtain rfl := Option.some.inj hr
    have hgoes := c.planGoes hok hone
    obtain ⟨hnew, hkeep⟩ := hplans hgoes.keep
    exact .of_plans hnew hkeep hgoes .webhook (fun _ => rfl) (fun _ hc => hc) fun _ => rfl
  | change c =>
    obtain rfl := Option.some.inj hr
    have hgoes := @ChangePlan.planGoes cat k u s.plans c
    obtain ⟨hnew, hkeep⟩ := hplans hgoes.keep
    exact .of_plans hnew hkeep hgoes .change (fun _ => rfl) (fun _ _ => trivial) fun _ => rfl

variable (u)

/-- The invariant of the calls in flight: a call that has ended a plan weighs the free one that it
has yet to create. -/
def accountInv : CallInv Accounts AccountCall ℕ where
  weight := AccountCall.creates u
  whole s m := CheckoutBooks u s ∧ activePlans u s.plans.subscriptions + m = 1
  each s c := c.Ok s
  pair a b := ∀ id, a.holds = some id → b.holds ≠ some id
  symm h id ha hb := h id hb ha

variable {u}

/-- A call that holds a lock keeps the others out. -/
theorem AccountCall.locked_of_holds {c : AccountCall} (hok : c.Ok s) {id : String}
    (hid : c.holds = some id) : id ∈ s.locked := by
  cases c with
  | checkout c => cases c with
    | blocking o | claiming o | ending o | committing o _ => exact (hok.2 id hid).1
    | offering _ | locking _ | refunding _ => cases hid
  | renewal _ | refund _ | webhook _ | change _ => cases hid

theorem AccountGoes.kept {n m : ℕ} {h : Option String} {s' : Accounts} {c c' : Option AccountCall}
    (hgoes : AccountGoes u n h s s' c')
    (hh : ∀ id, h = some id → ∃ a ∈ c, a.holds = some id)
    (hactive : activePlans u s.plans.subscriptions + (n + m) = 1) :
    (accountInv u).Kept s c m s' c' where
  whole := by
    refine ⟨hgoes.books, ?_⟩
    have hbalance := hgoes.balance
    have hweigh : (accountInv u).weigh c' = c'.elim 0 (AccountCall.creates u) := rfl
    omega
  mine := hgoes.ok
  others d hd hpair := by
    refine hgoes.keep.ok (fun id hid hdid => ?_) hd
    obtain ⟨a, ha, haid⟩ := hh id hid
    exact hpair a ha id haid hdid
  apart d hd hpair a ha id haid hdid := by
    rcases hgoes.holds a ha id haid with hid | hfree
    · obtain ⟨b, hb, hbid⟩ := hh id hid
      exact hpair b hb id hbid hdid
    · exact hfree (AccountCall.locked_of_holds hd hdid)

theorem AccountCall.keeps {c : AccountCall} {r : Accounts × Option AccountCall}
    (hone : c.keepsOne cat u k s = true) (hr : (accountCalls cat).step k c s = some r) :
    (accountInv u).Keeps s (some c) r := by
  rintro m ⟨hbooks, hactive⟩ hmine
  exact (c.goes (hmine c rfl) hone hbooks hr).kept (fun id hid => ⟨c, rfl, hid⟩) hactive

theorem AccountEvent.goes {e : AccountEvent} (hbooks : CheckoutBooks u s)
    {r : Accounts × Option AccountCall} (hr : e.begin s = some r) :
    AccountGoes u 0 none s r.1 r.2 := by
  cases e with
  | checkout request =>
    obtain rfl := Option.some.inj hr
    exact .look hbooks rfl trivial fun _ hid => by cases hid
  | approve id =>
    obtain ⟨co, hco, hr⟩ := Option.bind_eq_some_iff.1 hr
    obtain ⟨-, heq⟩ := Option.ite_none_left_eq_some.1 hr
    obtain rfl := Option.some.inj heq
    have hkeep : ∀ co₀ ∈ s.checkouts id, co.userId = co₀.userId := by
      intro co₀ hco₀
      rw [Option.some.inj (hco.symm.trans hco₀)]
    have hnew : CheckoutBooks u (({ s with awaiting := id :: s.awaiting } : Accounts).setCheckout id
        { co with succeeded := true }) :=
      (hbooks.await id).setCheckout hkeep fun _ _ => .inl List.mem_cons_self
    have hlater : AccountsKeep none s (s.setCheckout id { co with succeeded := true }) :=
      .setCheckout hkeep
    exact .done hnew ⟨hlater.owner, hlater.keyed, hlater.known, hlater.locked, hlater.unpaid⟩ rfl
  | confirm id now =>
    obtain ⟨co, hco, hr⟩ := Option.bind_eq_some_iff.1 hr
    obtain ⟨-, heq⟩ := Option.ite_none_right_eq_some.1 hr
    obtain rfl := Option.some.inj heq
    refine .look hbooks rfl (fun id' hid' => ?_) fun _ hid => by cases hid
    obtain rfl := Option.some.inj hid'
    exact ⟨co, hco, rfl⟩
  | renewal e =>
    obtain ⟨r', hr', rfl⟩ := Option.map_eq_some_iff.1 hr
    have hgoes := RenewalEvent.planGoes (u := u) hr'
    exact .of_plans (hbooks.of_plans hgoes.keep) (.of_plans hgoes.keep (fun hco => ⟨_, hco, rfl⟩)
      fun _ hmem => hmem) hgoes .renewal (fun _ => rfl) (fun _ hc => hc) fun _ => rfl
  | staffRefundPlanPayment id =>
    obtain rfl := Option.some.inj hr
    exact .look hbooks rfl trivial fun _ hid => by cases hid
  | syncPlanRefund intent =>
    obtain rfl := Option.some.inj hr
    exact .next (hbooks.giveBack intent) (.giveBack intent) (by simp) rfl trivial
      fun _ hid => by cases hid
  | subscriptionUpdated id status =>
    obtain rfl := Option.some.inj hr
    exact .look hbooks rfl trivial fun _ hid => by cases hid
  | subscriptionDeleted id =>
    obtain rfl := Option.some.inj hr
    exact .look hbooks rfl trivial fun _ hid => by cases hid
  | changePlan userId newPlanId =>
    obtain rfl := Option.some.inj hr
    exact .look hbooks rfl trivial fun _ hid => by cases hid

theorem AccountEvent.keeps {e : AccountEvent} {r : Accounts × Option AccountCall}
    (hr : (accountCalls cat).event e s = some r) : (accountInv u).Keeps s none r := by
  rintro m ⟨hbooks, hactive⟩ -
  exact (AccountEvent.goes hbooks hr).kept (fun _ hid => by cases hid) hactive

/-- The account has one active subscription, and its earlier checkouts are settled or waiting. -/
structure Accounts.Opened (u : ℕ) (s : Accounts) : Prop where
  active : activePlans u s.plans.subscriptions = 1
  books : CheckoutBooks u s

/-- The account has one active subscription, and each of its checkouts that succeeded was given
back, or gave one payment and one subscription, which no other checkout gave. -/
structure OneActivePlan (u : ℕ) (s : Accounts) : Prop where
  active : activePlans u s.plans.subscriptions = 1
  produced : ∀ {id co}, s.checkouts id = some co → co.userId = u → co.succeeded = true →
    co.refunded = true ∨ ∃ i p, s.plans.payments.get? i = some p ∧
      p.transactionId = some (.checkout id) ∧ s.plans.OwnedBy p.subscriptionId u ∧
      ∀ j q id', s.plans.payments.get? j = some q → q.transactionId = some (.checkout id') →
        id' = id ∨ q.subscriptionId = p.subscriptionId → j = i

theorem CheckoutBooks.produced (h : CheckoutBooks u s) (hawaiting : s.awaiting = [])
    (hactive : activePlans u s.plans.subscriptions = 1) : OneActivePlan u s where
  active := hactive
  produced := by
    intro id co hco hu hs
    rcases h.settled hco hu hs with hmem | hback | ⟨i, p, hi, hp⟩
    · simp [hawaiting] at hmem
    · exact .inl hback
    · obtain ⟨-, co', hco', howned⟩ := h.paid hi hp
      obtain rfl := Option.some.inj (hco.symm.trans hco')
      refine .inr ⟨i, p, hi, hp, hu ▸ howned, fun j q id' hj hq hor => ?_⟩
      rcases hor with rfl | heq
      · exact h.one hj hi hq hp
      · exact h.own hj hi hq hp heq

/-- In every run whose steps meet `keepsOne`, at rest. -/
theorem one_active_plan {moves : List (Move AccountEvent PlanChance)}
    {x : Calls Accounts AccountCall} (hs : s.Opened u)
    (hmeets : (accountCalls cat).machine.Meets (CallSystem.When (fun _ _ => True)
      fun k c s => c.keepsOne cat u k s = true) (.idle s) moves)
    (hrun : (accountCalls cat).machine.run (.idle s) moves = some x) (hquiet : x.quiet = true)
    (hconfirmed : x.shared.awaiting = []) : OneActivePlan u x.shared := by
  have hidle : (accountInv u).Holds (.idle s) := CallInv.holds_idle ⟨hs.books, hs.active⟩
  have hend := hidle.run (fun _ he => AccountEvent.keeps he) (fun hk hc => AccountCall.keeps hk hc)
    hmeets hrun
  obtain ⟨hbooks, hactive⟩ := hend.quiet hquiet
  exact hbooks.produced hconfirmed hactive

end Runs

/-! ## Two runs -/

/-- Before the first checkout. -/
theorem checkoutBooks_start (u : ℕ) {s : Accounts} (hcheckouts : ∀ id, s.checkouts id = none)
    (hpayments : s.plans.payments = .empty) : CheckoutBooks u s where
  settled hco := by simp [hcheckouts] at hco
  paid hi := by simp [hpayments] at hi
  one hi := by simp [hpayments] at hi
  own hi := by simp [hpayments] at hi

/-- An account with one subscription. -/
def accountWith (planId : ℕ) (stripeSubscriptionId : Option String) : Accounts where
  plans := {
    subscriptions := Table.empty.insert {
      userId := 1
      planId := planId
      status := .active
      stripeSubscriptionId := stripeSubscriptionId
      currentPeriodEnd := none
      renewalFailedAt := none
      cancelAtPeriodEnd := false
      pendingPlanId := none }
    payments := .empty
    renewals := fun _ => none
    owed := []
    advances := [] }
  checkouts _ := none
  locked := []
  awaiting := []

theorem opened_accountWith (planId : ℕ) (stripeSubscriptionId : Option String) :
    (accountWith planId stripeSubscriptionId).Opened 1 where
  active := by
    rw [activePlans_eq_sum]
    simp [accountWith, PlatformSubscription.activeOf]
  books := checkoutBooks_start 1 (fun _ => rfl) rfl

/-- Stripe accepts every request. -/
def stripeAccepts : PlanChance :=
  { anHourLater (.answered .succeeded) with
    couponFits := true
    accepted := true
    usageFits := true }

/-- The screen and the webhook confirm a checkout. -/
def checkoutConfirmedTwice : List (Move AccountEvent PlanChance) :=
  [.event (.checkout ⟨1, 1, none, "pi_1", 0⟩), .step 1 stripeAccepts,
    .event (.approve "pi_1"), .event (.confirm "pi_1" 0), .event (.confirm "pi_1" 0)] ++
    List.replicate 5 (.step 2 stripeAccepts) ++ [.step 3 stripeAccepts]

theorem checkoutConfirmedTwice_one_active : ∃ x co,
    (accountCalls twoPlans).machine.run (.idle (accountWith 0 none)) checkoutConfirmedTwice = some x ∧
      x.shared.checkouts "pi_1" = some co ∧ co.succeeded = true ∧
        OneActivePlan 1 x.shared := by
  have hmeets : (accountCalls twoPlans).machine.Meets (CallSystem.When (fun _ _ => True)
      fun k c s => c.keepsOne twoPlans 1 k s = true) (.idle (accountWith 0 none))
      checkoutConfirmedTwice := by
    decide +kernel
  have hsome : ((accountCalls twoPlans).machine.run (.idle (accountWith 0 none))
      checkoutConfirmedTwice).any (fun x => x.quiet && x.shared.awaiting == [] &&
        (x.shared.checkouts "pi_1").any (·.succeeded)) = true := by
    decide +kernel
  obtain ⟨x, hrun, hout⟩ := (Option.any_eq_true _ _).1 hsome
  simp only [Bool.and_eq_true, beq_iff_eq, Option.any_eq_true] at hout
  obtain ⟨⟨hquiet, hconfirmed⟩, co, hco, hs⟩ := hout
  exact ⟨x, co, hrun, hco, hs,
    one_active_plan (opened_accountWith 0 none) hmeets hrun hquiet hconfirmed⟩

/-- Stripe tells the end of a subscription twice. -/
def endedTwice : List (Move AccountEvent PlanChance) :=
  [.event (.subscriptionUpdated "sub_1" .canceled),
    .event (.subscriptionUpdated "sub_1" .canceled)] ++
    List.replicate 3 (.step 1 stripeAccepts) ++ List.replicate 3 (.step 2 stripeAccepts)

theorem endedTwice_two_active : ∃ x,
    (accountCalls twoPlans).machine.run (.idle (accountWith 1 (some "sub_1"))) endedTwice =
        some x ∧ x.quiet = true ∧ x.shared.awaiting = [] ∧
      activePlans 1 x.shared.plans.subscriptions = 2 ∧ ¬ OneActivePlan 1 x.shared := by
  have hsome : ((accountCalls twoPlans).machine.run (.idle (accountWith 1 (some "sub_1")))
      endedTwice).any (fun x => x.quiet && x.shared.awaiting == [] &&
        activePlans 1 x.shared.plans.subscriptions == 2) = true := by
    decide +kernel
  obtain ⟨x, hrun, hout⟩ := (Option.any_eq_true _ _).1 hsome
  simp only [Bool.and_eq_true, beq_iff_eq] at hout
  obtain ⟨⟨hquiet, hconfirmed⟩, htwo⟩ := hout
  refine ⟨x, hrun, hquiet, hconfirmed, htwo, fun h => ?_⟩
  have hone := h.active
  omega

end Barbershop
