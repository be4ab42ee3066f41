import Barbershop.Plan.Renewal

/-!
# The attempts of a period

`RenewalBooks` is what holds of the renewal payments in every state. The attempts of a period are
made one after the other, each once the ones before it have failed, so at most one of them has not
failed (`RenewalBooks.live_unique`). A pending one means that its period is the current one, and a
completed one has moved the period, once. This module says what each write keeps of it.
-/

namespace Barbershop

open Lib

/-! ## What holds of the rows -/

/-- The attempt under a key has failed. -/
def Plans.FailedAt (s : Plans) (key : RenewalKey) : Prop :=
  ∃ i p, s.payments.get? i = some p ∧ p.renewalKey = some key ∧ p.status = .failed

section Books

variable (cat : PlanCatalog)

/-- The payment of an attempt. -/
structure RenewalRow (s : Plans) (i : ℕ) (p : PlanPayment) (key : RenewalKey) : Prop where
  subscription : p.subscriptionId = key.subscriptionId
  cycle : ∃ planId, p.amount = (cat.plans planId).price ∧
    p.nextPaymentDate = cat.addCycle key.periodEnd (cat.plans planId).billingCycle
  attempt : 1 ≤ key.attempt
  earlier : ∀ a, 1 ≤ a → a < key.attempt → s.FailedAt { key with attempt := a }
  waiting : p.status = .pending → ∃ sub, s.subscriptions.get? key.subscriptionId = some sub ∧
    sub.currentPeriodEnd = some key.periodEnd
  charged : s.succeeded key = true → p.status = .pending ∨ p.status = .completed
  delivered : s.succeeded key = true → key ∈ s.owed ∨ p.status = .completed
  moved : s.advances.filter (·.paymentId == i) =
    if p.status = .completed then [⟨i, some key.periodEnd, p.nextPaymentDate⟩] else []

structure RenewalBooks (s : Plans) : Prop where
  row : ∀ {i p key}, s.payments.get? i = some p → p.renewalKey = some key → RenewalRow cat s i p key
  unique : ∀ {i j p q key}, s.payments.get? i = some p → s.payments.get? j = some q →
    p.renewalKey = some key → q.renewalKey = some key → i = j
  charged : ∀ {key intent}, s.renewals key = some intent →
    ∃ i p, s.payments.get? i = some p ∧ p.renewalKey = some key
  known : ∀ adv ∈ s.advances, adv.paymentId < s.payments.next

end Books

/-! ## What later states keep -/

/-- Between an earlier and a later row of a payment: a failed one stays failed. -/
structure PlanPayment.Persists (p p' : PlanPayment) : Prop where
  subscription : p'.subscriptionId = p.subscriptionId
  amount : p'.amount = p.amount
  next : p'.nextPaymentDate = p.nextPaymentDate
  key : p'.renewalKey = p.renewalKey
  failed : p.status = .failed → p'.status = .failed

theorem PlanPayment.Persists.refl (p : PlanPayment) : p.Persists p := ⟨rfl, rfl, rfl, rfl, id⟩

/-- Between an earlier and a later state: no payment goes, and a success stands. -/
structure RenewalLater (s s' : Plans) : Prop where
  row : ∀ {i p}, s.payments.get? i = some p → ∃ p', s'.payments.get? i = some p' ∧ p.Persists p'
  succeeded : ∀ {key}, s.succeeded key = true → s'.succeeded key = true

theorem PlanPayment.Persists.trans {p q r : PlanPayment} (h : p.Persists q) (h' : q.Persists r) :
    p.Persists r where
  subscription := h'.subscription.trans h.subscription
  amount := h'.amount.trans h.amount
  next := h'.next.trans h.next
  key := h'.key.trans h.key
  failed hs := h'.failed (h.failed hs)

theorem RenewalLater.refl (s : Plans) : RenewalLater s s := ⟨fun hi => ⟨_, hi, .refl _⟩, id⟩

theorem RenewalLater.trans {s s' s'' : Plans} (h : RenewalLater s s') (h' : RenewalLater s' s'') :
    RenewalLater s s'' where
  row := by
    intro i p hi
    obtain ⟨p', hi', hp⟩ := h.row hi
    obtain ⟨p'', hi'', hp'⟩ := h'.row hi'
    exact ⟨p'', hi'', hp.trans hp'⟩
  succeeded hs := h'.succeeded (h.succeeded hs)

theorem Plans.FailedAt.later {s s' : Plans} {key : RenewalKey} (h : s.FailedAt key)
    (hl : RenewalLater s s') : s'.FailedAt key := by
  obtain ⟨i, p, hi, hkey, hfailed⟩ := h
  obtain ⟨p', hi', hp⟩ := hl.row hi
  exact ⟨i, p', hi', hp.key.trans hkey, hp.failed hfailed⟩

/-- Writes of a payment leave the others alone. -/
theorem RenewalLater.modify {s : Plans} {id : ℕ} {f : PlanPayment → PlanPayment}
    (hf : ∀ p, s.payments.get? id = some p → p.Persists (f p)) {s' : Plans}
    (hpayments : s'.payments = s.payments.modify id f) (hrenewals : s'.renewals = s.renewals) :
    RenewalLater s s' where
  row := by
    intro i p hi
    rw [hpayments, Table.get?_modify]
    split
    · next hid =>
      subst hid
      exact ⟨f p, by rw [hi]; rfl, hf p hi⟩
    · exact ⟨p, hi, .refl p⟩
  succeeded := by
    intro key hs
    rw [Plans.succeeded, hrenewals]
    exact hs

/-- A row that keeps its status, in a later state with no news of its key. -/
theorem RenewalRow.carry {cat : PlanCatalog} {s s' : Plans} {i : ℕ} {p p' : PlanPayment}
    {key : RenewalKey} (h : RenewalRow cat s i p key) (hl : RenewalLater s s') (hp : p.Persists p')
    (hstatus : p'.status = p.status)
    (hwaiting : p.status = .pending → ∃ sub, s'.subscriptions.get? key.subscriptionId = some sub ∧
      sub.currentPeriodEnd = some key.periodEnd)
    (hcharged : s'.succeeded key = true → s.succeeded key = true)
    (howed : key ∈ s.owed → key ∈ s'.owed)
    (hmoved : s'.advances.filter (·.paymentId == i) = s.advances.filter (·.paymentId == i)) :
    RenewalRow cat s' i p' key where
  subscription := hp.subscription.trans h.subscription
  cycle := by
    rw [hp.amount, hp.next]
    exact h.cycle
  attempt := h.attempt
  earlier a ha hlt := (h.earlier a ha hlt).later hl
  waiting hs := hwaiting (hstatus.symm.trans hs)
  charged hs := by
    rw [hstatus]
    exact h.charged (hcharged hs)
  delivered hs := by
    rw [hstatus]
    exact (h.delivered (hcharged hs)).imp_left howed
  moved := by
    rw [hstatus, hp.next, hmoved]
    exact h.moved

namespace RenewalBooks

variable {cat : PlanCatalog} {s : Plans}

/-- Of the attempts of a period, at most one has not failed. -/
theorem live_unique (h : RenewalBooks cat s) {i j : ℕ} {p q : PlanPayment} {key key' : RenewalKey}
    (hi : s.payments.get? i = some p) (hj : s.payments.get? j = some q)
    (hp : p.renewalKey = some key) (hq : q.renewalKey = some key')
    (hsub : key.subscriptionId = key'.subscriptionId) (hperiod : key.periodEnd = key'.periodEnd)
    (hplive : p.status ≠ .failed) (hqlive : q.status ≠ .failed) : i = j := by
  have hbefore : ∀ {i j p q key key'}, s.payments.get? i = some p → s.payments.get? j = some q →
      p.renewalKey = some key → q.renewalKey = some key' →
      key.subscriptionId = key'.subscriptionId → key.periodEnd = key'.periodEnd →
      key.attempt < key'.attempt → p.status = .failed := by
    intro i j p q key key' hi hj hp hq hsub hperiod hlt
    obtain ⟨x, r, hx, hr, hfailed⟩ :=
      (h.row hj hq).earlier key.attempt (h.row hi hp).attempt hlt
    rw [← hsub, ← hperiod] at hr
    obtain rfl := h.unique hi hx hp hr
    obtain rfl := Option.some.inj (hi.symm.trans hx)
    exact hfailed
  rcases Nat.lt_trichotomy key.attempt key'.attempt with hlt | heq | hlt
  · exact absurd (hbefore hi hj hp hq hsub hperiod hlt) hplive
  · obtain rfl : key = key' := by
      cases key
      cases key'
      simp_all
    exact h.unique hi hj hp hq
  · exact absurd (hbefore hj hi hq hp hsub.symm hperiod.symm hlt) hqlive

/-- The rows in a later state in which the payments, Stripe's books and the advances are the same. -/
theorem of_subscriptions (h : RenewalBooks cat s) {subscriptions : Table PlatformSubscription}
    (hwaiting : ∀ {i p key}, s.payments.get? i = some p → p.renewalKey = some key →
      p.status = .pending → ∃ sub, subscriptions.get? key.subscriptionId = some sub ∧
        sub.currentPeriodEnd = some key.periodEnd) :
    RenewalBooks cat { s with subscriptions := subscriptions } ∧
      RenewalLater s { s with subscriptions := subscriptions } := by
  have hlater : RenewalLater s { s with subscriptions := subscriptions } :=
    ⟨fun hi => ⟨_, hi, .refl _⟩, id⟩
  refine ⟨⟨?_, h.unique, h.charged, h.known⟩, hlater⟩
  intro i p key hi hp
  exact (h.row hi hp).carry hlater (.refl p) rfl (hwaiting hi hp) (fun hs => hs) (fun ho => ho) rfl

/-- A write of one subscription that leaves its period alone. -/
theorem modify_subscription (h : RenewalBooks cat s) (id : ℕ)
    {f : PlatformSubscription → PlatformSubscription}
    (hf : ∀ sub, (f sub).currentPeriodEnd = sub.currentPeriodEnd) :
    RenewalBooks cat { s with subscriptions := s.subscriptions.modify id f } ∧
      RenewalLater s { s with subscriptions := s.subscriptions.modify id f } := by
  refine h.of_subscriptions fun hi hp hpending => ?_
  obtain ⟨sub, hsub, hperiod⟩ := (h.row hi hp).waiting hpending
  rw [Table.get?_modify]
  split
  · exact ⟨f sub, by rw [hsub]; rfl, (hf sub).trans hperiod⟩
  · exact ⟨sub, hsub, hperiod⟩

theorem insert_subscription (h : RenewalBooks cat s) (sub : PlatformSubscription) :
    RenewalBooks cat { s with subscriptions := s.subscriptions.insert sub } ∧
      RenewalLater s { s with subscriptions := s.subscriptions.insert sub } := by
  refine h.of_subscriptions fun hi hp hpending => ?_
  obtain ⟨sub', hsub, hperiod⟩ := (h.row hi hp).waiting hpending
  exact ⟨sub', Table.get?_insert_of_some _ hsub, hperiod⟩

/-- A write of one payment, by what the rows are after it. -/
theorem of_payment (h : RenewalBooks cat s) {id : ℕ} {f : PlanPayment → PlanPayment}
    (hf : ∀ p, s.payments.get? id = some p → p.Persists (f p)) {s' : Plans}
    (hpayments : s'.payments = s.payments.modify id f) (hrenewals : s'.renewals = s.renewals)
    (hknown : ∀ adv ∈ s'.advances, adv.paymentId < s.payments.next)
    (hwritten : ∀ {p key}, s.payments.get? id = some p → p.renewalKey = some key →
      RenewalRow cat s' id (f p) key)
    (hother : ∀ {i p key}, i ≠ id → s.payments.get? i = some p → p.renewalKey = some key →
      RenewalRow cat s' i p key) :
    RenewalBooks cat s' ∧ RenewalLater s s' := by
  have hlater : RenewalLater s s' := .modify hf hpayments hrenewals
  have hback : ∀ {i p'}, s'.payments.get? i = some p' →
      ∃ p, s.payments.get? i = some p ∧ p'.renewalKey = p.renewalKey ∧
        (i = id ∧ p' = f p ∨ i ≠ id ∧ p' = p) := by
    intro i p' hi
    rw [hpayments, Table.get?_modify] at hi
    split at hi
    · next hid =>
      subst hid
      obtain ⟨p, hp, rfl⟩ := Option.map_eq_some_iff.1 hi
      exact ⟨p, hp, (hf p hp).key, .inl ⟨rfl, rfl⟩⟩
    · next hid => exact ⟨p', hi, rfl, .inr ⟨hid, rfl⟩⟩
  refine ⟨⟨?_, ?_, ?_, ?_⟩, hlater⟩
  · intro i p' key hi hp'
    obtain ⟨p, hp, hkey, ⟨rfl, rfl⟩ | ⟨hid, rfl⟩⟩ := hback hi
    · exact hwritten hp (hkey ▸ hp')
    · exact hother hid hp hp'
  · intro i j p q key hi hj hp hq
    obtain ⟨p₀, hp₀, hpk, -⟩ := hback hi
    obtain ⟨q₀, hq₀, hqk, -⟩ := hback hj
    exact h.unique hp₀ hq₀ (hpk ▸ hp) (hqk ▸ hq)
  · intro key intent hkey
    rw [hrenewals] at hkey
    obtain ⟨i, p, hi, hp⟩ := h.charged hkey
    obtain ⟨p', hi', hkeep⟩ := hlater.row hi
    exact ⟨i, p', hi', hkeep.key.trans hp⟩
  · rw [hpayments]
    exact hknown

/-- A write that leaves the status of a payment alone. -/
theorem modify_payment (h : RenewalBooks cat s) {id : ℕ} {f : PlanPayment → PlanPayment}
    (hf : ∀ p : PlanPayment, p.Persists (f p)) (hstatus : ∀ p, (f p).status = p.status) :
    RenewalBooks cat { s with payments := s.payments.modify id f } ∧
      RenewalLater s { s with payments := s.payments.modify id f } := by
  have hlater : RenewalLater s { s with payments := s.payments.modify id f } :=
    .modify (fun p _ => hf p) rfl rfl
  refine h.of_payment (fun p _ => hf p) rfl rfl h.known ?_ ?_
  · intro p key hp hkey
    have hrow := h.row hp hkey
    exact hrow.carry hlater (hf p) (hstatus p) hrow.waiting (fun hs => hs) (fun ho => ho) rfl
  · intro i p key _ hp hkey
    have hrow := h.row hp hkey
    exact hrow.carry hlater (.refl p) rfl hrow.waiting (fun hs => hs) (fun ho => ho) rfl

/-- A pending attempt that was not charged fails. -/
theorem fail (h : RenewalBooks cat s) {id : ℕ} (hid : ∀ p ∈ s.payments.get? id,
      p.status = .pending ∧ ∀ key ∈ p.renewalKey, s.succeeded key = false) :
    RenewalBooks cat { s with
        payments := s.payments.modify id fun p => { p with status := .failed } } ∧
      RenewalLater s { s with
        payments := s.payments.modify id fun p => { p with status := .failed } } := by
  have hf : ∀ p : PlanPayment, p.Persists { p with status := .failed } :=
    fun p => ⟨rfl, rfl, rfl, rfl, fun _ => rfl⟩
  have hlater : RenewalLater s { s with
      payments := s.payments.modify id fun p => { p with status := .failed } } :=
    .modify (fun p _ => hf p) rfl rfl
  refine h.of_payment (fun p _ => hf p) rfl rfl h.known ?_ ?_
  · intro p key hp hkey
    have hrow := h.row hp hkey
    obtain ⟨hpending, hnone⟩ := hid p hp
    have hquiet : s.succeeded key ≠ true := by simp [hnone key hkey]
    exact {
      subscription := hrow.subscription
      cycle := hrow.cycle
      attempt := hrow.attempt
      earlier := fun a ha hlt => (hrow.earlier a ha hlt).later hlater
      waiting := fun hs => by cases hs
      charged := fun hs => absurd hs hquiet
      delivered := fun hs => absurd hs hquiet
      moved := by simpa [hpending] using hrow.moved }
  · intro i p key _ hp hkey
    have hrow := h.row hp hkey
    exact hrow.carry hlater (.refl p) rfl hrow.waiting (fun hs => hs) (fun ho => ho) rfl

/-- The transaction that settles a payment: no other payment of its subscription is pending, and the
period it moves is its own. -/
theorem commit (h : RenewalBooks cat s) (now : ℤ) {id : ℕ} {p : PlanPayment} {key : RenewalKey}
    (hid : s.payments.get? id = some p) (hkey : p.renewalKey = some key) :
    RenewalBooks cat (FinalizeRenewal.commit now id p.subscriptionId p.nextPaymentDate s) ∧
      RenewalLater s (FinalizeRenewal.commit now id p.subscriptionId p.nextPaymentDate s) := by
  unfold FinalizeRenewal.commit
  cases hmod : s.payments.tryModify id (·.status == .pending)
      (FinalizeRenewal.complete now) with
  | none => exact ⟨h, .refl s⟩
  | some payments =>
    obtain ⟨p₀, hid₀, hpending, rfl⟩ := Table.tryModify_eq_some.1 hmod
    obtain rfl := Option.some.inj (hid.symm.trans hid₀)
    have hpending : p.status = .pending := by simpa using hpending
    have hrow := h.row hid hkey
    obtain ⟨sub, hsub, hperiod⟩ := hrow.waiting hpending
    have hkeep : ∀ q, s.payments.get? id = some q → q.Persists (FinalizeRenewal.complete now q) := by
      intro q hq
      obtain rfl := Option.some.inj (hid.symm.trans hq)
      exact ⟨rfl, rfl, rfl, rfl, fun hfailed => by simp [hpending] at hfailed⟩
    rw [hrow.subscription, hsub, Option.bind_some, hperiod]
    dsimp only
    have hlater : RenewalLater s { s with
        payments := s.payments.modify id (FinalizeRenewal.complete now)
        subscriptions := s.subscriptions.modify key.subscriptionId
          (FinalizeRenewal.renewed p.nextPaymentDate)
        advances := s.advances ++ [⟨id, some key.periodEnd, p.nextPaymentDate⟩] } :=
      .modify hkeep rfl rfl
    refine h.of_payment hkeep rfl rfl ?_ ?_ ?_
    · intro adv hadv
      rcases List.mem_append.1 hadv with hold | hnew
      · exact h.known adv hold
      · obtain rfl := List.mem_singleton.1 hnew
        exact Table.lt_next_of_get? hid
    · intro q key' hq hkey'
      obtain rfl := Option.some.inj (hid.symm.trans hq)
      obtain rfl := Option.some.inj (hkey.symm.trans hkey')
      exact {
        subscription := hrow.subscription
        cycle := hrow.cycle
        attempt := hrow.attempt
        earlier := fun a ha hlt => (hrow.earlier a ha hlt).later hlater
        waiting := fun hs => by cases hs
        charged := fun _ => .inr rfl
        delivered := fun _ => .inr rfl
        moved := by
          have hbefore := hrow.moved
          simp only [hpending, reduceCtorEq, if_false] at hbefore
          simp [List.filter_append, hbefore, FinalizeRenewal.complete] }
    · intro i q key' hne hq hkey'
      have hrow' := h.row hq hkey'
      refine hrow'.carry hlater (.refl q) rfl ?_ (fun hs => hs) (fun ho => ho) ?_
      · intro hq'
        obtain ⟨sub', hsub', hperiod'⟩ := hrow'.waiting hq'
        have hother : key'.subscriptionId ≠ key.subscriptionId := by
          intro heq
          rw [heq, hsub] at hsub'
          obtain rfl := Option.some.inj hsub'
          have hsame := Option.some.inj (hperiod'.symm.trans hperiod)
          exact hne (h.live_unique hq hid hkey' hkey heq hsame (by simp [hq']) (by simp [hpending]))
        exact ⟨sub', (Table.get?_modify_of_ne _ _ hother).trans hsub', hperiod'⟩
      · simp [List.filter_append, Ne.symm hne]

/-- A new attempt, after the ones before it have failed, in the current period. -/
theorem claim (h : RenewalBooks cat s) {d : DueRenewal} {attempt : ℕ} (hattempt : 1 ≤ attempt)
    (hearlier : ∀ a, 1 ≤ a → a < attempt → s.FailedAt (d.key a))
    (hfree : s.payments.any (fun _ p => p.renewalKey == some (d.key attempt)) = false)
    (hperiod : (s.subscriptions.get? d.subscriptionId).bind (·.currentPeriodEnd) =
      some d.periodEnd) :
    RenewalBooks cat { s with
        payments := s.payments.insert (RenewSubscription.claim cat d attempt) } ∧
      RenewalLater s { s with
        payments := s.payments.insert (RenewSubscription.claim cat d attempt) } := by
  have hlater : RenewalLater s { s with
      payments := s.payments.insert (RenewSubscription.claim cat d attempt) } :=
    ⟨fun hi => ⟨_, Table.get?_insert_of_some _ hi, .refl _⟩, fun hs => hs⟩
  have hnew : ∀ {i p}, s.payments.get? i = some p → p.renewalKey ≠ some (d.key attempt) := by
    intro i p hi
    simpa using Table.any_eq_false.1 hfree i p hi
  have hcases : ∀ {i p}, (s.payments.insert (RenewSubscription.claim cat d attempt)).get? i =
      some p → i = s.payments.next ∧ p = RenewSubscription.claim cat d attempt ∨
        s.payments.get? i = some p := by
    intro i p hi
    rw [Table.get?_insert] at hi
    split at hi
    · next hnext => exact .inl ⟨hnext, (Option.some.inj hi).symm⟩
    · exact .inr hi
  obtain ⟨sub, hsub, hend⟩ := Option.bind_eq_some_iff.1 hperiod
  have hquiet : s.succeeded (d.key attempt) ≠ true := by
    intro hs
    obtain ⟨intent, hintent, -⟩ := (Option.any_eq_true _ _).1 hs
    obtain ⟨i, p, hi, hp⟩ := h.charged hintent
    exact hnew hi hp
  refine ⟨⟨?_, ?_, ?_, ?_⟩, hlater⟩
  · intro i p key hi hp
    rcases hcases hi with ⟨rfl, rfl⟩ | hold
    · obtain rfl := Option.some.inj hp
      exact {
        subscription := rfl
        cycle := ⟨d.planId, rfl, rfl⟩
        attempt := hattempt
        earlier := fun a ha hlt => (hearlier a ha hlt).later hlater
        waiting := fun _ => ⟨sub, hsub, hend⟩
        charged := fun hs => absurd hs hquiet
        delivered := fun hs => absurd hs hquiet
        moved := by
          rw [if_neg (by simp [RenewSubscription.claim]), List.filter_eq_nil_iff]
          intro adv hadv
          simpa using Nat.ne_of_lt (h.known adv hadv) }
    · have hrow := h.row hold hp
      exact hrow.carry hlater (.refl p) rfl hrow.waiting (fun hs => hs) (fun ho => ho) rfl
  · intro i j p q key hi hj hp hq
    rcases hcases hi with ⟨rfl, rfl⟩ | hi₀
    · rcases hcases hj with ⟨rfl, rfl⟩ | hj₀
      · rfl
      · obtain rfl := Option.some.inj hp
        exact absurd hq (hnew hj₀)
    · rcases hcases hj with ⟨rfl, rfl⟩ | hj₀
      · obtain rfl := Option.some.inj hq
        exact absurd hp (hnew hi₀)
      · exact h.unique hi₀ hj₀ hp hq
  · intro key intent hkey
    obtain ⟨i, p, hi, hp⟩ := h.charged hkey
    exact ⟨i, p, Table.get?_insert_of_some _ hi, hp⟩
  · intro adv hadv
    exact Nat.lt_succ_of_lt (h.known adv hadv)

/-- Stripe creates or moves an intent that has not succeeded; it succeeds only while its payment is
pending. -/
theorem setRenewal (h : RenewalBooks cat s) {key : RenewalKey} {intent : RenewalIntent}
    (hrow : ∃ i p, s.payments.get? i = some p ∧ p.renewalKey = some key)
    (hbefore : s.succeeded key = false)
    (hpending : intent.status = .succeeded → s.payments.any (fun _ p =>
      p.renewalKey == some key && p.status == .pending) = true) :
    RenewalBooks cat (s.setRenewal key intent) ∧ RenewalLater s (s.setRenewal key intent) := by
  have hnow : (s.setRenewal key intent).succeeded key = true ↔ intent.status = .succeeded := by
    simp [Plans.succeeded, Plans.setRenewal]
  have hother : ∀ {key'}, key' ≠ key →
      (s.setRenewal key intent).succeeded key' = s.succeeded key' := by
    intro key' hne
    simp [Plans.succeeded, Plans.setRenewal, hne]
  have howed : ∀ {key'}, key' ∈ s.owed → key' ∈ (s.setRenewal key intent).owed := by
    intro key' ho
    simp only [Plans.setRenewal]
    split
    · exact List.mem_cons_of_mem _ ho
    · exact ho
  have hlater : RenewalLater s (s.setRenewal key intent) := by
    refine ⟨fun hi => ⟨_, hi, .refl _⟩, fun {key'} hs => ?_⟩
    have hne : key' ≠ key := by
      rintro rfl
      simp [hbefore] at hs
    rwa [hother hne]
  refine ⟨⟨?_, h.unique, ?_, h.known⟩, hlater⟩
  · intro i p key' hi hp
    have hold := h.row hi hp
    by_cases hkey : key' = key
    · subst hkey
      by_cases hs : intent.status = .succeeded
      · obtain ⟨j, q, hj, hq⟩ := Table.any_eq_true.1 (hpending hs)
        simp only [Bool.and_eq_true, beq_iff_eq] at hq
        obtain rfl := h.unique hi hj hp hq.1
        obtain rfl := Option.some.inj (Eq.trans hi.symm hj)
        exact {
          subscription := hold.subscription
          cycle := hold.cycle
          attempt := hold.attempt
          earlier := fun a ha hlt => (hold.earlier a ha hlt).later hlater
          waiting := hold.waiting
          charged := fun _ => .inl hq.2
          delivered := fun _ => .inl (by simp [Plans.setRenewal, hs])
          moved := hold.moved }
      · refine hold.carry hlater (.refl p) rfl hold.waiting ?_ howed rfl
        exact fun h' => absurd (hnow.1 h') hs
    · refine hold.carry hlater (.refl p) rfl hold.waiting ?_ howed rfl
      rw [hother hkey]
      exact fun hs => hs
  · intro key' intent' hkey'
    by_cases hkey : key' = key
    · subst hkey
      exact hrow
    · simp only [Plans.setRenewal, Function.update_of_ne hkey] at hkey'
      exact h.charged hkey'

/-- The webhook of a payment that is completed has been delivered. -/
theorem deliver (h : RenewalBooks cat s) {key : RenewalKey} {i : ℕ} {p : PlanPayment}
    (hi : s.payments.get? i = some p) (hp : p.renewalKey = some key)
    (hcompleted : p.status = .completed) :
    RenewalBooks cat (s.deliver key) ∧ RenewalLater s (s.deliver key) := by
  have hlater : RenewalLater s (s.deliver key) := ⟨fun hi => ⟨_, hi, .refl _⟩, fun hs => hs⟩
  refine ⟨⟨?_, h.unique, h.charged, h.known⟩, hlater⟩
  intro j q key' hj hq
  have hrow := h.row hj hq
  exact {
    subscription := hrow.subscription
    cycle := hrow.cycle
    attempt := hrow.attempt
    earlier := fun a ha hlt => (hrow.earlier a ha hlt).later hlater
    waiting := hrow.waiting
    charged := hrow.charged
    delivered := by
      intro hs
      by_cases hkey : key' = key
      · subst hkey
        obtain rfl := h.unique hi hj hp hq
        obtain rfl := Option.some.inj (Eq.trans hi.symm hj)
        exact .inr hcompleted
      · exact (hrow.delivered hs).imp_left fun ho => by simp [Plans.deliver, ho, hkey]
    moved := hrow.moved }

end RenewalBooks

end Barbershop
