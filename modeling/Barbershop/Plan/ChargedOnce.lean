import Barbershop.Plan.Attempts
import Mathlib.Data.List.Nodup
import Mathlib.Data.List.Perm.Subperm

/-!
# A renewal charges once

Runs, webhooks and Stripe side by side, with runs that die. `RenewalCall.Steady` is what a step has
to meet: an attempt is given up only while its payment is pending and not charged, Stripe approves
it only while its payment is pending, a new attempt is made in the current period, and a free plan
moves the period only when no attempt is under way. Then for each period one charge succeeds at most,
and each that succeeds moves the period by its cycle, once.
-/

namespace Barbershop

open Lib

/-! ## What a step has to meet -/

def MarkRenewalFailed.Steady (s : Plans) : MarkRenewalFailed → Prop
  | marking id => ∀ p ∈ s.payments.get? id, p.status = .pending ∧
      ∀ key ∈ p.renewalKey, s.succeeded key = false
  | dating .. => True

instance (s : Plans) : ∀ c : MarkRenewalFailed, Decidable (c.Steady s)
  | .marking id => inferInstanceAs (Decidable (∀ p ∈ s.payments.get? id, _ ∧ _))
  | .dating .. => inferInstanceAs (Decidable True)

/-- A payment under the key is pending. -/
def Plans.awaits (s : Plans) (key : RenewalKey) : Bool :=
  s.payments.any fun _ p => p.renewalKey == some key && p.status == .pending

namespace RenewSubscription

/-- The attempt that a run gives up. -/
def failing? : RenewSubscription → Option MarkRenewalFailed
  | failing c | reconciling _ (.failing c) => some c
  | _ => none

def SteadyWrite (k : RenewalChance) (s : Plans) : RenewSubscription → Prop
  | advancing d => (s.subscriptions.get? d.subscriptionId).bind (·.currentPeriodEnd) =
      some d.periodEnd → s.payments.any (fun _ p => d.attempts p && p.status != .failed) = false
  | claiming d attempt => s.payments.any (fun _ p => p.renewalKey == some (d.key attempt)) = false →
      (s.subscriptions.get? d.subscriptionId).bind (·.currentPeriodEnd) = some d.periodEnd
  | charging d attempt _ => (s.renewals (d.key attempt)).isNone = true →
      k.charge.created = some .succeeded → s.awaits (d.key attempt) = true
  | _ => True

instance (k : RenewalChance) (s : Plans) : ∀ c : RenewSubscription, Decidable (c.SteadyWrite k s)
  | .advancing d => inferInstanceAs (Decidable
      ((s.subscriptions.get? d.subscriptionId).bind (·.currentPeriodEnd) = some d.periodEnd → _))
  | .claiming d attempt => inferInstanceAs (Decidable
      (s.payments.any (fun _ p => p.renewalKey == some (d.key attempt)) = false → _))
  | .charging d attempt _ => inferInstanceAs (Decidable
      ((s.renewals (d.key attempt)).isNone = true → _ → _))
  | .reading .. | .switching .. | .looking _ | .reconciling .. | .throttling _ | .counting _
  | .choosing .. | .refused .. | .recording .. | .finalizing _ | .failing _ | .expiring _ =>
    inferInstanceAs (Decidable True)

def Steady (k : RenewalChance) (s : Plans) (c : RenewSubscription) : Prop :=
  (∀ f ∈ c.failing?, f.Steady s) ∧ c.SteadyWrite k s

instance (k : RenewalChance) (s : Plans) (c : RenewSubscription) : Decidable (c.Steady k s) :=
  inferInstanceAs (Decidable ((∀ f ∈ c.failing?, f.Steady s) ∧ c.SteadyWrite k s))

end RenewSubscription

/-- A run that dies at the step meets everything. -/
def RenewalCall.Steady (k : RenewalChance) (s : Plans) : RenewalCall → Prop
  | renew c => k.crash = false → c.Steady k s
  | webhook _ => True

instance (k : RenewalChance) (s : Plans) : ∀ c : RenewalCall, Decidable (c.Steady k s)
  | .renew c => inferInstanceAs (Decidable (k.crash = false → c.Steady k s))
  | .webhook _ => inferInstanceAs (Decidable True)

def RenewalEvent.Steady (s : Plans) : RenewalEvent → Prop
  | settle key status => status = .succeeded → s.awaits key = true
  | _ => True

instance (s : Plans) : ∀ e : RenewalEvent, Decidable (e.Steady s)
  | .settle key status => inferInstanceAs (Decidable (status = .succeeded → s.awaits key = true))
  | .renew .. | .webhook _ => inferInstanceAs (Decidable True)

/-! ## What a call relies on -/

/-- The payment was made under the key. -/
def Plans.MadeUnder (s : Plans) (id : ℕ) (key : RenewalKey) : Prop :=
  ∃ p, s.payments.get? id = some p ∧ p.renewalKey = some key

def FinalizeRenewal.paymentId : FinalizeRenewal → ℕ
  | reading id | committing id .. => id

/-- It writes what the payment says. -/
def FinalizeRenewal.Ok (s : Plans) : FinalizeRenewal → Prop
  | reading _ => True
  | committing id subscriptionId next => ∃ p key, s.payments.get? id = some p ∧
      p.renewalKey = some key ∧ p.subscriptionId = subscriptionId ∧ p.nextPaymentDate = next

def ReconcileRenewal.Ok (s : Plans) : ReconcileRenewal → Prop
  | finalizing c => c.Ok s
  | _ => True

def RenewSubscription.Ok (s : Plans) : RenewSubscription → Prop
  | claiming d attempt => 1 ≤ attempt ∧ ∀ a, 1 ≤ a → a < attempt → s.FailedAt (d.key a)
  | choosing d attempt id | charging d attempt id => s.MadeUnder id (d.key attempt)
  | reconciling _ c => c.Ok s
  | finalizing c => c.Ok s
  | _ => True

def RenewalWebhook.Ok (s : Plans) : RenewalWebhook → Prop
  | finding key => s.succeeded key = true
  | finalizing key c => s.succeeded key = true ∧ s.MadeUnder c.paymentId key ∧ c.Ok s

def RenewalCall.Ok (s : Plans) : RenewalCall → Prop
  | renew c => c.Ok s
  | webhook c => c.Ok s

section Later

variable {s s' : Plans}

theorem Plans.MadeUnder.later {id : ℕ} {key : RenewalKey} (h : s.MadeUnder id key)
    (hl : RenewalLater s s') : s'.MadeUnder id key := by
  obtain ⟨p, hp, hkey⟩ := h
  obtain ⟨p', hp', hkeep⟩ := hl.row hp
  exact ⟨p', hp', hkeep.key.trans hkey⟩

theorem FinalizeRenewal.Ok.later {c : FinalizeRenewal} (h : c.Ok s) (hl : RenewalLater s s') :
    c.Ok s' := by
  cases c with
  | reading id => trivial
  | committing id subscriptionId next =>
    obtain ⟨p, key, hp, hkey, hsub, hnext⟩ := h
    obtain ⟨p', hp', hkeep⟩ := hl.row hp
    exact ⟨p', key, hp', hkeep.key.trans hkey, hkeep.subscription.trans hsub,
      hkeep.next.trans hnext⟩

theorem RenewalCall.Ok.later {c : RenewalCall} (h : c.Ok s) (hl : RenewalLater s s') : c.Ok s' := by
  cases c with
  | renew c =>
    cases c with
    | claiming d attempt => exact ⟨h.1, fun a ha hlt => (h.2 a ha hlt).later hl⟩
    | choosing d attempt id | charging d attempt id => exact Plans.MadeUnder.later h hl
    | reconciling d c =>
      cases c with
      | finalizing c => exact FinalizeRenewal.Ok.later h hl
      | _ => trivial
    | finalizing c => exact FinalizeRenewal.Ok.later h hl
    | _ => trivial
  | webhook c =>
    cases c with
    | finding key => exact hl.succeeded h
    | finalizing key c => exact ⟨hl.succeeded h.1, h.2.1.later hl, h.2.2.later hl⟩

end Later

/-! ## The steps -/

/-- A call has moved on, or ended: the books hold, nothing was lost, and what the call relies on
from now on is true. -/
structure RenewalGoes (cat : PlanCatalog) {τ : Type} (ok : Plans → τ → Prop) (s s' : Plans)
    (c : Option τ) : Prop where
  books : RenewalBooks cat s'
  later : RenewalLater s s'
  ok : ∀ c' ∈ c, ok s' c'

namespace RenewalGoes

variable {cat : PlanCatalog} {τ τ' : Type} {ok : Plans → τ → Prop} {ok' : Plans → τ' → Prop}
  {s s' : Plans}

/-- A call that wrote, and goes on. -/
theorem next (h : RenewalBooks cat s' ∧ RenewalLater s s') {c : τ} (hok : ok s' c) :
    RenewalGoes cat ok s s' (some c) := ⟨h.1, h.2, by simpa using hok⟩

/-- A call that wrote, and has ended. -/
theorem done (h : RenewalBooks cat s' ∧ RenewalLater s s') : RenewalGoes cat ok s s' none :=
  ⟨h.1, h.2, by simp⟩

/-- A call that only looked, and goes on. -/
theorem look (h : RenewalBooks cat s) {c : τ} (hok : ok s c) : RenewalGoes cat ok s s (some c) :=
  .next ⟨h, .refl s⟩ hok

theorem stop (h : RenewalBooks cat s) : RenewalGoes cat ok s s none := .done ⟨h, .refl s⟩

/-- A call inside another. -/
theorem within {ρ ρ' : Type} {p : Progress τ ρ} {wrap : τ → τ'} {after : ρ → Progress τ' ρ'}
    (h : RenewalGoes cat ok s s' p.running) (hok : ∀ c, ok s' c → ok' s' (wrap c))
    (hafter : ∀ r, ∀ c' ∈ (after r).running, ok' s' c') :
    RenewalGoes cat ok' s s' (p.within wrap after).running := by
  refine ⟨h.books, h.later, ?_⟩
  cases p with
  | next c => simpa [Progress.within] using hok c (h.ok c rfl)
  | done r => exact hafter r

/-- A call that is the last thing another does. -/
theorem last {ρ ρ' : Type} {p : Progress τ ρ} {wrap : τ → τ'} {out : ρ → ρ'}
    (h : RenewalGoes cat ok s s' p.running) (hok : ∀ c, ok s' c → ok' s' (wrap c)) :
    RenewalGoes cat ok' s s' (p.within wrap fun r => .done (out r)).running :=
  h.within hok fun _ => by simp

end RenewalGoes

section Steps

variable {cat : PlanCatalog} {k : RenewalChance} {s : Plans}

theorem MarkRenewalFailed.goes (c : MarkRenewalFailed) (hsteady : c.Steady s)
    (h : RenewalBooks cat s) :
    RenewalGoes cat (fun _ _ => True) s (c.step k s).1 (c.step k s).2.running := by
  cases c with
  | marking id =>
    simp only [MarkRenewalFailed.step]
    split
    · exact .stop h
    · exact .next (h.fail hsteady) trivial
  | dating id seen =>
    exact .done (h.modify_subscription id
      (f := fun sub => { sub with renewalFailedAt := some (seen.getD k.now) }) fun _ => rfl)

theorem FinalizeRenewal.goes (c : FinalizeRenewal) (hok : c.Ok s) (h : RenewalBooks cat s) :
    RenewalGoes cat FinalizeRenewal.Ok s (c.step k s).1 (c.step k s).2.running := by
  cases c with
  | reading id =>
    simp only [FinalizeRenewal.step]
    split
    · exact .stop h
    · next p hp =>
      split
      · exact .stop h
      · next hkey =>
        obtain ⟨key, hkey⟩ := Option.ne_none_iff_exists'.1 hkey
        exact .look h ⟨p, key, hp, hkey, rfl, rfl⟩
  | committing id subscriptionId next =>
    obtain ⟨p, key, hp, hkey, rfl, rfl⟩ := hok
    exact .done (h.commit k.now hp hkey)

theorem ExpireSubscription.goes (c : ExpireSubscription) (h : RenewalBooks cat s) :
    RenewalGoes cat (fun _ _ => True) s (c.step cat s).1 (c.step cat s).2.running := by
  cases c with
  | deactivating id userId =>
    exact .next (h.modify_subscription id
      (f := fun sub => { sub with status := .inactive }) fun _ => rfl) trivial
  | creating userId =>
    simp only [ExpireSubscription.step]
    cases cat.freePlan with
    | none => exact .stop h
    | some planId => exact .done (h.insert_subscription (ExpireSubscription.free userId planId))

/-- The note of the intent on its payment. -/
theorem RenewalBooks.withTransaction (h : RenewalBooks cat s) (id : ℕ) (key : RenewalKey) :
    RenewalBooks cat { s with
        payments := s.payments.modify id (RenewSubscription.withTransaction key) } ∧
      RenewalLater s { s with
        payments := s.payments.modify id (RenewSubscription.withTransaction key) } :=
  h.modify_payment (fun _ => ⟨rfl, rfl, rfl, rfl, fun hs => hs⟩) fun _ => rfl

theorem ReconcileRenewal.goes (c : ReconcileRenewal) (hok : c.Ok s)
    (hsteady : ∀ f, c = .failing f → f.Steady s) (h : RenewalBooks cat s) :
    RenewalGoes cat ReconcileRenewal.Ok s (c.step k s).1 (c.step k s).2.running := by
  cases c with
  | reading id =>
    simp only [ReconcileRenewal.step]
    split
    · exact .stop h
    · split
      · exact .stop h
      · split
        · exact .look h trivial
        · exact .stop h
        · split
          · exact .stop h
          · exact .look h trivial
  | searching id seen =>
    simp only [ReconcileRenewal.step]
    split <;> exact .look h trivial
  | recording id key => exact .next (h.withTransaction id key) trivial
  | retrieving id key =>
    simp only [ReconcileRenewal.step]
    split
    · exact .stop h
    · exact .look h trivial
    · exact .stop h
    · exact .stop h
    · exact .look h trivial
  | finalizing c => exact (c.goes hok h).last fun _ hc => hc
  | failing c => exact (c.goes (hsteady c rfl) h).last fun _ _ => trivial

/-- As many attempts have failed as there are failed payments: the first ones. -/
theorem RenewalBooks.failed_first (h : RenewalBooks cat s) (d : DueRenewal) {a : ℕ} (ha : 1 ≤ a)
    (hle : a ≤ (s.payments.filter fun _ p => d.attempts p && p.status == .failed).length) :
    s.FailedAt (d.key a) := by
  by_contra hnot
  let attempt : ℕ × PlanPayment → ℕ := fun r => (r.2.renewalKey.map (·.attempt)).getD 0
  have hrow : ∀ r ∈ s.payments.filter (fun _ p => d.attempts p && p.status == .failed),
      s.payments.get? r.1 = some r.2 ∧ r.2.renewalKey = some (d.key (attempt r)) ∧
        r.2.status = .failed := by
    intro r hr
    obtain ⟨hget, hp⟩ := Table.mem_filter.1 hr
    simp only [Bool.and_eq_true, beq_iff_eq, DueRenewal.attempts, Option.any_eq_true] at hp
    obtain ⟨⟨key, hkey, hsub, hperiod⟩, hfailed⟩ := hp
    refine ⟨hget, ?_, hfailed⟩
    simp [attempt, hkey, DueRenewal.key, ← hsub, ← hperiod]
  have hbound : ∀ r ∈ s.payments.filter (fun _ p => d.attempts p && p.status == .failed),
      attempt r ∈ List.range' 1 (a - 1) := by
    intro r hr
    obtain ⟨hget, hkey, hfailed⟩ := hrow r hr
    have hpos : 1 ≤ attempt r := (h.row hget hkey).attempt
    have hlt : attempt r < a := by
      by_contra hge
      rcases Nat.eq_or_lt_of_le (not_lt.1 hge) with heq | hlt
      · exact hnot ⟨r.1, r.2, hget, heq ▸ hkey, hfailed⟩
      · exact hnot ((h.row hget hkey).earlier a ha hlt)
    rw [List.mem_range'_1]
    omega
  have hnodup : ((s.payments.filter fun _ p => d.attempts p && p.status == .failed).map
      attempt).Nodup := by
    refine List.Nodup.map_on (fun r hr r' hr' heq => ?_) (List.Nodup.of_map _ (Table.nodup_filter ..))
    obtain ⟨hget, hkey, -⟩ := hrow r hr
    obtain ⟨hget', hkey', -⟩ := hrow r' hr'
    have hid : r.1 = r'.1 := h.unique hget hget' hkey (heq ▸ hkey')
    rw [hid] at hget
    exact Prod.ext hid (Option.some.inj (hget.symm.trans hget'))
  have hsub : (s.payments.filter fun _ p => d.attempts p && p.status == .failed).map attempt ⊆
      List.range' 1 (a - 1) := by
    intro x hx
    obtain ⟨r, hr, rfl⟩ := List.mem_map.1 hx
    exact hbound r hr
  have hlen := (hnodup.subperm hsub).length_le
  rw [List.length_map, List.length_range'] at hlen
  omega

theorem RenewSubscription.ok_priced (d : DueRenewal) : (priced cat d).Ok s := by
  unfold priced
  split <;> trivial

theorem RenewSubscription.ok_tolerated (d : DueRenewal) : (tolerated d).Ok s := by
  unfold tolerated
  split <;> trivial

theorem RenewSubscription.ok_afterPending (d : DueRenewal) : (afterPending d).Ok s := by
  unfold afterPending
  split
  · trivial
  · exact ok_tolerated d

/-- A plan that costs nothing moves its period while no attempt is under way in it. -/
theorem RenewalBooks.advancing (h : RenewalBooks cat s) {d : DueRenewal} (periodEnd : ℤ)
    (hperiod : (s.subscriptions.get? d.subscriptionId).bind (·.currentPeriodEnd) =
      some d.periodEnd)
    (hidle : s.payments.any (fun _ p => d.attempts p && p.status != .failed) = false) :
    RenewalBooks cat { s with
        subscriptions := s.subscriptions.modify d.subscriptionId fun sub =>
          { sub with currentPeriodEnd := some periodEnd } } ∧
      RenewalLater s { s with
        subscriptions := s.subscriptions.modify d.subscriptionId fun sub =>
          { sub with currentPeriodEnd := some periodEnd } } := by
  refine h.of_subscriptions fun {i p key} hi hp hpending => ?_
  obtain ⟨sub, hsub, hend⟩ := (h.row hi hp).waiting hpending
  have hne : key.subscriptionId ≠ d.subscriptionId := by
    intro heq
    have hsame : key.periodEnd = d.periodEnd := by
      rw [← heq, hsub, Option.bind_some, hend] at hperiod
      exact Option.some.inj hperiod
    have hlive := Table.any_eq_false.1 hidle i p hi
    simp [DueRenewal.attempts, hp, heq, hsame, hpending] at hlive
  exact ⟨sub, (Table.get?_modify_of_ne _ _ hne).trans hsub, hend⟩

/-- A charge under the key of a payment: Stripe makes one intent for it at most. -/
theorem RenewalBooks.charge (h : RenewalBooks cat s) {id : ℕ} {key : RenewalKey} (amount : ℤ)
    (hmade : s.MadeUnder id key) (hsteady : (s.renewals key).isNone = true →
      k.charge.created = some .succeeded → s.awaits key = true) :
    RenewalBooks cat (s.chargeOffSession key amount k).1 ∧
      RenewalLater s (s.chargeOffSession key amount k).1 := by
  unfold Plans.chargeOffSession
  cases hkey : s.renewals key with
  | some intent => exact ⟨h, .refl s⟩
  | none =>
    cases hcreated : k.charge.created with
    | none => exact ⟨h, .refl s⟩
    | some status =>
      obtain ⟨p, hp, hpkey⟩ := hmade
      refine h.setRenewal ⟨id, p, hp, hpkey⟩ (by simp [Plans.succeeded, hkey]) fun hs => ?_
      exact hsteady (by simp [hkey]) (by rw [hcreated]; exact congrArg some hs)

theorem RenewSubscription.goes (c : RenewSubscription) (hok : c.Ok s) (hsteady : c.Steady k s)
    (h : RenewalBooks cat s) :
    RenewalGoes cat RenewSubscription.Ok s (c.step cat k s).1 (c.step cat k s).2.running := by
  obtain ⟨hfailing, hwrite⟩ := hsteady
  cases c with
  | reading id ignoreDailyLimit =>
    simp only [RenewSubscription.step]
    split
    · exact .stop h
    · split
      · exact .stop h
      · split
        · exact .look h trivial
        · split
          · exact .look h (ok_priced _)
          · exact .look h trivial
  | switching d planId =>
    simp only [RenewSubscription.step]
    split
    · exact .look h (ok_priced _)
    · next subscriptions hmod =>
      obtain ⟨_, _, _, rfl⟩ := Table.tryModify_eq_some.1 hmod
      exact .next (h.modify_subscription d.subscriptionId
        (f := fun sub => { sub with planId := planId, pendingPlanId := none }) fun _ => rfl)
        (ok_priced _)
  | advancing d =>
    simp only [RenewSubscription.step]
    split
    · exact .stop h
    · next subscriptions hmod =>
      obtain ⟨sub, hsub, hend, rfl⟩ := Table.tryModify_eq_some.1 hmod
      have hperiod : (s.subscriptions.get? d.subscriptionId).bind (·.currentPeriodEnd) =
          some d.periodEnd := by
        rw [hsub]
        exact beq_iff_eq.1 hend
      exact .done (h.advancing (d.nextPeriodEnd cat) hperiod (hwrite hperiod))
  | looking d =>
    simp only [RenewSubscription.step]
    split
    · exact .look h (ok_afterPending d)
    · exact .look h trivial
  | reconciling d c =>
    have hgoes := c.goes (k := k) hok (fun f hf => hfailing f (by subst hf; rfl)) h
    refine hgoes.within (fun _ hc => hc) fun out => ?_
    split
    · simpa using ok_afterPending d
    · simp
  | throttling d =>
    simp only [RenewSubscription.step]
    split
    · exact .stop h
    · exact .look h (ok_tolerated d)
  | counting d =>
    exact .look h
      ⟨Nat.le_add_left 1 _, fun a ha hlt => h.failed_first d ha (Nat.lt_succ_iff.1 hlt)⟩
  | claiming d attempt =>
    simp only [RenewSubscription.step]
    split
    · exact .stop h
    · next hfree =>
      have hfree := Bool.eq_false_iff.2 hfree
      exact .next (h.claim hok.1 hok.2 hfree (hwrite hfree))
        ⟨claim cat d attempt, Table.get?_insert_self _ _, rfl⟩
  | choosing d attempt id =>
    simp only [RenewSubscription.step]
    split
    · exact .look h (hok)
    · exact .look h trivial
  | charging d attempt id =>
    have hcharge := h.charge (roundHalfUp ((cat.plans d.planId).price * 100)) hok hwrite
    simp only [RenewSubscription.step]
    split
    · exact .next hcharge trivial
    · exact .next hcharge trivial
    · exact .next hcharge trivial
    · exact .done hcharge
  | refused id key => exact .next (h.withTransaction id key) trivial
  | recording id key status =>
    simp only [RenewSubscription.step]
    split
    · exact .next (h.withTransaction id key) trivial
    · exact .done (h.withTransaction id key)
  | finalizing c => exact (c.goes hok h).last fun _ hc => hc
  | failing c => exact (c.goes (hfailing c rfl) h).last fun _ _ => trivial
  | expiring c => exact (c.goes h).last fun _ _ => trivial

/-- After the transaction of a charged payment, the payment is completed. -/
theorem FinalizeRenewal.completes (h : RenewalBooks cat s) {id : ℕ} {key : RenewalKey}
    (now : ℤ) (subscriptionId : ℕ) (next : ℤ) (hmade : s.MadeUnder id key) (hs : s.succeeded key = true) :
    ∃ p, (commit now id subscriptionId next s).payments.get? id = some p ∧
      p.renewalKey = some key ∧ p.status = .completed := by
  obtain ⟨p, hp, hkey⟩ := hmade
  unfold commit
  cases hmod : s.payments.tryModify id (·.status == .pending) (complete now) with
  | none =>
    have hnot := Table.tryModify_eq_none.1 hmod p hp
    have hdone := ((h.row hp hkey).charged hs).resolve_left fun hpending => by
      simp [hpending] at hnot
    exact ⟨p, hp, hkey, hdone⟩
  | some payments =>
    obtain ⟨q, hq, -, rfl⟩ := Table.tryModify_eq_some.1 hmod
    obtain rfl := Option.some.inj (hp.symm.trans hq)
    exact ⟨complete now p, by simp [hp], hkey, rfl⟩

theorem RenewalWebhook.goes (c : RenewalWebhook) (hok : c.Ok s) (h : RenewalBooks cat s) :
    RenewalGoes cat RenewalWebhook.Ok s (c.step k s).1 (c.step k s).2.running := by
  cases c with
  | finding key =>
    simp only [RenewalWebhook.step]
    split
    · next hnone =>
      obtain ⟨intent, hintent, -⟩ := (Option.any_eq_true _ _).1 hok
      obtain ⟨i, p, hi, hp⟩ := h.charged hintent
      have hnot := Table.find?_none.1 hnone i p hi
      simp [hp] at hnot
    · next id p hfind =>
      obtain ⟨hp, hkey⟩ := Table.find?_some hfind
      exact .look h ⟨hok, ⟨p, hp, beq_iff_eq.1 hkey⟩, trivial⟩
  | finalizing key c =>
    obtain ⟨hs, hmade, hc⟩ := hok
    cases c with
    | reading id =>
      obtain ⟨p, hp, hkey⟩ := hmade
      have hstep : (FinalizeRenewal.reading id).step k s =
          (s, .next (.committing id p.subscriptionId p.nextPaymentDate)) := by
        simp [FinalizeRenewal.step, show s.payments.get? id = some p from hp, hkey]
      simp only [RenewalWebhook.step, hstep]
      exact .look h ⟨hs, ⟨p, hp, hkey⟩, p, key, hp, hkey, rfl, rfl⟩
    | committing id subscriptionId next =>
      have hgoes := FinalizeRenewal.goes (k := k) (.committing id subscriptionId next) hc h
      obtain ⟨p, hp, hkey, hdone⟩ := FinalizeRenewal.completes h k.now subscriptionId next hmade hs
      obtain ⟨hbooks, hlater⟩ := hgoes.books.deliver hp hkey hdone
      exact .done ⟨hbooks, hgoes.later.trans hlater⟩

end Steps

/-! ## Runs -/

/-- Before the first renewal. -/
structure Plans.Unrenewed (s : Plans) : Prop where
  payments : ∀ {i p}, s.payments.get? i = some p → p.renewalKey = none
  renewals : ∀ key, s.renewals key = none
  advances : s.advances = []

theorem Plans.Unrenewed.books {cat : PlanCatalog} {s : Plans} (h : s.Unrenewed) :
    RenewalBooks cat s where
  row hi hp := by simp [h.payments hi] at hp
  unique hi _ hp _ := by simp [h.payments hi] at hp
  charged hkey := by simp [h.renewals] at hkey
  known := by simp [h.advances]

section Runs

variable (cat : PlanCatalog)

/-- The invariant of the calls in flight. -/
def renewalInv : CallInv Plans RenewalCall ℕ where
  weight _ := 0
  whole s _ := RenewalBooks cat s
  each := RenewalCall.Ok

variable {cat}

theorem RenewalGoes.kept {s : Plans} {c : Option RenewalCall} {r : Plans × Option RenewalCall}
    {m : ℕ} (h : RenewalGoes cat RenewalCall.Ok s r.1 r.2) :
    (renewalInv cat).Kept s c m r.1 r.2 where
  whole := h.books
  mine := h.ok
  others _ hd _ := RenewalCall.Ok.later hd h.later
  apart _ _ _ _ _ := trivial

theorem RenewalCall.keeps {k : RenewalChance} {c : RenewalCall} {s : Plans}
    {r : Plans × Option RenewalCall} (hsteady : c.Steady k s)
    (hr : (renewalCalls cat).step k c s = some r) : (renewalInv cat).Keeps s (some c) r := by
  intro m hbooks hmine
  have hok : c.Ok s := hmine c rfl
  obtain rfl := Option.some.inj hr
  apply RenewalGoes.kept
  cases hcrash : k.crash with
  | true => exact .stop hbooks
  | false =>
    cases c with
    | renew c =>
      have h := @RenewSubscription.goes cat k s c hok (hsteady hcrash) hbooks
      exact ⟨h.books, h.later, Option.forall_mem_map.2 h.ok⟩
    | webhook c =>
      have h := @RenewalWebhook.goes cat k s c hok hbooks
      exact ⟨h.books, h.later, Option.forall_mem_map.2 h.ok⟩

theorem RenewalEvent.keeps {e : RenewalEvent} {s : Plans} {r : Plans × Option RenewalCall}
    (hsteady : e.Steady s) (hr : (renewalCalls cat).event e s = some r) :
    (renewalInv cat).Keeps s none r := by
  intro m hbooks _
  apply RenewalGoes.kept
  cases e with
  | renew id ignoreDailyLimit =>
    obtain rfl := Option.some.inj hr
    exact .look hbooks trivial
  | webhook key =>
    simp only [renewalCalls, RenewalEvent.begin, Option.ite_none_right_eq_some] at hr
    obtain ⟨hs, ⟨⟩⟩ := hr
    exact .look hbooks hs
  | settle key status =>
    simp only [renewalCalls, RenewalEvent.begin] at hr
    split at hr
    · cases hr
    · next intent hintent =>
      simp only [Option.ite_none_left_eq_some, not_or] at hr
      obtain ⟨⟨hopen, -⟩, ⟨⟩⟩ := hr
      have hnew : RenewalBooks cat (s.setRenewal key { intent with status := status }) ∧
          RenewalLater s (s.setRenewal key { intent with status := status }) :=
        RenewalBooks.setRenewal hbooks (RenewalBooks.charged hbooks hintent)
          (by simp [Plans.succeeded, hintent, hopen]) hsteady
      exact .done hnew

/-- For each period one charge succeeds at most. One that succeeded has moved the period by the
cycle of a plan at whose price it was made, once, or its webhook is still on its way. -/
structure ChargedOnce (cat : PlanCatalog) (s : Plans) : Prop where
  one : ∀ {key key'}, s.succeeded key = true → s.succeeded key' = true →
    key.subscriptionId = key'.subscriptionId → key.periodEnd = key'.periodEnd → key = key'
  moved : ∀ {key}, s.succeeded key = true → ∃ i p planId, s.payments.get? i = some p ∧
    p.renewalKey = some key ∧ p.amount = (cat.plans planId).price ∧
    let next := cat.addCycle key.periodEnd (cat.plans planId).billingCycle
    p.status = .completed ∧ s.advances.filter (·.paymentId == i) = [⟨i, some key.periodEnd, next⟩] ∨
      p.status = .pending ∧ s.advances.filter (·.paymentId == i) = [] ∧ key ∈ s.owed

theorem RenewalBooks.chargedOnce {s : Plans} (h : RenewalBooks cat s) : ChargedOnce cat s where
  one := by
    intro key key' hs hs' hsub hperiod
    obtain ⟨intent, hintent, -⟩ := (Option.any_eq_true _ _).1 hs
    obtain ⟨intent', hintent', -⟩ := (Option.any_eq_true _ _).1 hs'
    obtain ⟨i, p, hi, hp⟩ := h.charged hintent
    obtain ⟨j, q, hj, hq⟩ := h.charged hintent'
    have hplive : p.status ≠ .failed := by
      rcases (h.row hi hp).charged hs with h' | h' <;> simp [h']
    have hqlive : q.status ≠ .failed := by
      rcases (h.row hj hq).charged hs' with h' | h' <;> simp [h']
    obtain rfl := h.live_unique hi hj hp hq hsub hperiod hplive hqlive
    obtain rfl := Option.some.inj (hi.symm.trans hj)
    exact Option.some.inj (hp.symm.trans hq)
  moved := by
    intro key hs
    obtain ⟨intent, hintent, -⟩ := (Option.any_eq_true _ _).1 hs
    obtain ⟨i, p, hi, hp⟩ := h.charged hintent
    have hrow := h.row hi hp
    obtain ⟨planId, hamount, hnext⟩ := hrow.cycle
    refine ⟨i, p, planId, hi, hp, hamount, ?_⟩
    have hmoved := hrow.moved
    by_cases hdone : p.status = .completed
    · rw [if_pos hdone, hnext] at hmoved
      exact .inl ⟨hdone, hmoved⟩
    · rw [if_neg hdone] at hmoved
      exact .inr ⟨(hrow.charged hs).resolve_right hdone, hmoved, (hrow.delivered hs).resolve_right hdone⟩

/-- In every run in which attempts are given up, approved and made only as `Steady` says. -/
theorem renewals_charge_once {s : Plans} {moves : List (Move RenewalEvent RenewalChance)}
    {x : Calls Plans RenewalCall} (hs : s.Unrenewed)
    (hmeets : (renewalCalls cat).machine.Meets (CallSystem.When (fun e s => e.Steady s)
      fun k c s => c.Steady k s) (.idle s) moves)
    (hrun : (renewalCalls cat).machine.run (.idle s) moves = some x) :
    ChargedOnce cat x.shared := by
  have hidle : (renewalInv cat).Holds (.idle s) := CallInv.holds_idle hs.books
  exact (hidle.run RenewalEvent.keeps RenewalCall.keeps hmeets hrun).whole.chargedOnce

end Runs

/-! ## Two runs -/

/-- A plan of 100 a month, and the free one. -/
def twoPlans : PlanCatalog where
  plans id := ⟨if id = 1 then 100 else 0, .monthly, none⟩
  freePlan := some 0
  addDays start n := start + n * 86400000
  addYears start n := start + n * 365 * 86400000

/-- A subscription whose period is over. -/
def dueAccount : Plans where
  subscriptions := Table.empty.insert {
    userId := 1
    planId := 1
    status := .active
    stripeSubscriptionId := none
    currentPeriodEnd := some 0
    renewalFailedAt := none
    cancelAtPeriodEnd := false
    pendingPlanId := none }
  payments := .empty
  renewals _ := none
  owed := []
  advances := []

theorem unrenewed_dueAccount : dueAccount.Unrenewed where
  payments hi := by cases hi
  renewals _ := rfl
  advances := rfl

/-- What a step meets an hour after the end of the period. -/
def anHourLater (charge : ChargeOutcome) : RenewalChance where
  now := 3600000
  crash := false
  card := true
  charge := charge
  indexed := true

/-- The call under a key takes some steps. -/
def renewalSteps (i n : ℕ) (charge : ChargeOutcome) : List (Move RenewalEvent RenewalChance) :=
  List.replicate n (.step i (anHourLater charge))

/-- The card is charged, and the webhook comes after the run. -/
def chargedAtOnce : List (Move RenewalEvent RenewalChance) :=
  .event (.renew 1 false) :: renewalSteps 1 9 (.answered .succeeded) ++
    .event (.webhook ⟨1, 0, 1⟩) :: renewalSteps 2 3 (.answered .succeeded)

theorem chargedAtOnce_charges_once : ∃ x,
    (renewalCalls twoPlans).machine.run (.idle dueAccount) chargedAtOnce = some x ∧
      x.shared.succeeded ⟨1, 0, 1⟩ = true ∧ x.shared.owed = [] ∧ x.shared.advances.length = 1 ∧
        ChargedOnce twoPlans x.shared := by
  have hmeets : (renewalCalls twoPlans).machine.Meets (CallSystem.When (fun e s => e.Steady s)
      fun k c s => c.Steady k s) (.idle dueAccount) chargedAtOnce := by
    decide +kernel
  have hsome : ((renewalCalls twoPlans).machine.run (.idle dueAccount) chargedAtOnce).any
      (fun x => x.shared.succeeded ⟨1, 0, 1⟩ && x.shared.owed == [] &&
        x.shared.advances.length == 1) = true := by
    decide +kernel
  obtain ⟨x, hrun, hout⟩ := (Option.any_eq_true _ _).1 hsome
  simp only [Bool.and_eq_true, beq_iff_eq] at hout
  exact ⟨x, hrun, hout.1.1, hout.1.2, hout.2,
    renewals_charge_once unrenewed_dueAccount hmeets hrun⟩

/-- The card is declined and the attempt given up; the next attempt is charged, and then the payment
intent of the first one succeeds. -/
def approvedAfterGivenUp : List (Move RenewalEvent RenewalChance) :=
  .event (.renew 1 false) :: renewalSteps 1 9 (.declined .requires_payment_method) ++
    .event (.renew 1 true) :: renewalSteps 2 9 (.answered .succeeded) ++
    [.event (.settle ⟨1, 0, 1⟩ .succeeded)]

theorem approvedAfterGivenUp_charges_twice : ∃ x,
    (renewalCalls twoPlans).machine.run (.idle dueAccount) approvedAfterGivenUp = some x ∧
      x.quiet = true ∧ x.shared.succeeded ⟨1, 0, 1⟩ = true ∧
        x.shared.succeeded ⟨1, 0, 2⟩ = true ∧ ¬ ChargedOnce twoPlans x.shared := by
  have hsome : ((renewalCalls twoPlans).machine.run (.idle dueAccount) approvedAfterGivenUp).any
      (fun x => x.quiet && x.shared.succeeded ⟨1, 0, 1⟩ && x.shared.succeeded ⟨1, 0, 2⟩) =
        true := by
    decide +kernel
  obtain ⟨x, hrun, hout⟩ := (Option.any_eq_true _ _).1 hsome
  simp only [Bool.and_eq_true] at hout
  obtain ⟨⟨hquiet, hfirst⟩, hsecond⟩ := hout
  exact ⟨x, hrun, hquiet, hfirst, hsecond, fun h => by cases h.one hfirst hsecond rfl rfl⟩

end Barbershop
