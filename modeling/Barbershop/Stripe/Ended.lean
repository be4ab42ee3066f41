import Barbershop.Stripe.Webhook

/-!
# What has ended stays ended

`Delivery.orderly` is what each delivery has to meet: nothing that says a subscription is alive, or
that one of its invoices failed, comes after its end, and while a plan is pending every renewal that
is paid for is of a period that begins after the plan was scheduled. A history is proper, in that no
ended subscription comes back and a scheduled plan begins with such a renewal only, if and only if
all its deliveries are orderly.
-/

namespace Barbershop

open Lib

namespace StripeBooks

variable (s : StripeBooks)

def planStatus (id : ℕ) : Option PlanStatus := (s.plans.subscriptions.get? id).map (·.status)

def clubStatus (id : ℕ) : Option SubscriptionStatus :=
  (s.club.db.subscriptions.get? id).map (·.status)

/-- What ended in `s` is ended in `s'`. -/
structure Lasting (s s' : StripeBooks) : Prop where
  plan : ∀ {id}, s.planStatus id = some .inactive → s'.planStatus id = some .inactive
  club : ∀ {id}, s.clubStatus id = some .canceled → s'.clubStatus id = some .canceled

theorem Lasting.refl (s : StripeBooks) : s.Lasting s := ⟨id, id⟩

theorem Lasting.trans {s₁ s₂ s₃ : StripeBooks} (h : s₁.Lasting s₂) (h' : s₂.Lasting s₃) :
    s₁.Lasting s₃ := ⟨fun hs => h'.plan (h.plan hs), fun hs => h'.club (h.club hs)⟩

/-- The paid invoice begins a new cycle of a canceled club. -/
def revives (i : StripeInvoice) (live : Option StripeSubscriptionStatus) : Bool :=
  ((s.invoiceClub i).filter fun _ => live.isSome).any fun id =>
    s.clubStatus id == some .canceled && ((i.ofClub id).resets (fun _ => s.club) s.club).isSome

/-- The paid invoice begins the plan that is pending. -/
def begins (i : StripeInvoice) (live : Option StripeSubscriptionStatus)
    (sub : PlatformSubscription) : Bool :=
  sub.status != .inactive && live.all (· == .active) && i.renewal && sub.pendingPlanId.isSome

end StripeBooks

/-- The plan or what is pending for it changed. -/
def PlatformSubscription.moved (sub sub' : PlatformSubscription) : Prop :=
  sub'.planId ≠ sub.planId ∨ sub'.pendingPlanId ≠ sub.pendingPlanId

/-- A delivery changes a plan only as the renewal of a period that begins after the change was
scheduled. -/
def Delivery.Due (d : Delivery) (h h' : StripeHistory) : Prop :=
  ∀ id sub sub', h.books.plans.subscriptions.get? id = some sub →
    h'.books.plans.subscriptions.get? id = some sub' → sub.moved sub' →
      ∃ i, d.event = .invoicePaymentSucceeded i ∧ i.renewal = true ∧
        sub.stripeSubscriptionId = some i.subscriptionId ∧
        h.pendingSince id < fromSeconds i.period_start

structure StripeHistory.Proper (cat : PlanCatalog) (h : StripeHistory) (steps : List StripeStep) :
    Prop where
  ended : ∀ before between after h₁ h₂, steps = before ++ between ++ after →
    (stripeHistories cat).run h before = some h₁ → (stripeHistories cat).run h₁ between = some h₂ →
      h₁.books.Lasting h₂.books
  due : ∀ before d after h₁ h₂, steps = before ++ .deliver d :: after →
    (stripeHistories cat).run h before = some h₁ →
      (stripeHistories cat).step h₁ (.deliver d) = some h₂ → d.Due h₁ h₂

def Delivery.orderly (d : Delivery) (h : StripeHistory) : Bool :=
  let s := h.books
  match d.event with
  | .invoicePaymentSucceeded i =>
    match s.plan i.subscriptionId with
    | some (id, sub) =>
      !StripeBooks.begins i d.live sub || h.pendingSince id < fromSeconds i.period_start
    | none => decide (i.subscriptionId ∈ s.rents) || !s.revives i d.live
  | .invoicePaymentFailed i =>
    (s.plan i.subscriptionId).isSome || decide (i.subscriptionId ∈ s.rents) ||
      (s.invoiceClub i).all fun id => s.clubStatus id != some .canceled
  | .subscriptionUpdated stripeId status =>
    match s.plan stripeId with
    | some (_, sub) => sub.status != .inactive ||
      !(status == .active || status == .trialing || status == .past_due)
    | none => (s.memberships stripeId).all (fun id => s.clubStatus id != some .canceled) ||
      !(status == .active || status == .past_due)
  | .subscriptionDeleted _ => true

def StripeStep.orderly (a : StripeStep) (h : StripeHistory) : Bool :=
  match a with
  | .deliver d => d.orderly h
  | _ => true

/-! ## What each write does -/

namespace StripeBooks

variable {cat : PlanCatalog} {s s' : StripeBooks}

theorem plan_get? {stripeId : String} {id : ℕ} {sub : PlatformSubscription}
    (h : s.plan stripeId = some (id, sub)) :
    s.plans.subscriptions.get? id = some sub ∧ sub.stripeSubscriptionId = some stripeId := by
  obtain ⟨hid, hstripe⟩ := Table.find?_some h
  exact ⟨hid, beq_iff_eq.1 hstripe⟩

@[simp] theorem recordInvoice_plans (i : StripeInvoice) (id : ℕ) :
    (s.recordInvoice i id).plans = s.plans := by
  unfold recordInvoice
  split <;> rfl

@[simp] theorem recordInvoice_club (i : StripeInvoice) (id : ℕ) :
    (s.recordInvoice i id).club = s.club := by
  unfold recordInvoice
  split <;> rfl

/-- Only the plans and the clubs are looked at. -/
theorem Lasting.congr {s'' : StripeBooks} (h : s.Lasting s') (hplans : s''.plans = s'.plans)
    (hclub : s''.club = s'.club) : s.Lasting s'' where
  plan hj := by
    have hended := h.plan hj
    unfold planStatus at hended ⊢
    rw [hplans]
    exact hended
  club hj := by
    have hended := h.club hj
    unfold clubStatus at hended ⊢
    rw [hclub]
    exact hended

/-- A plan is written whose status is kept, or which was not ended, or is now. -/
theorem lasting_setPlan {id : ℕ} {sub : PlatformSubscription}
    {f : PlatformSubscription → PlatformSubscription}
    (hid : s.plans.subscriptions.get? id = some sub)
    (hstatus : sub.status ≠ .inactive ∨ (f sub).status = .inactive) :
    s.Lasting (s.setPlan id f) where
  plan {j} hj := by
    unfold planStatus setPlan at *
    dsimp only at hj ⊢
    by_cases hji : j = id
    · subst hji
      rw [hid] at hj
      rcases hstatus with hne | hend
      · exact absurd (Option.some.inj hj) hne
      · rw [Table.get?_modify_self, hid, Option.map_some, Option.map_some, hend]
    · rw [Table.get?_modify_of_ne _ _ hji]
      exact hj
  club hj := hj

theorem lasting_setClub {id : ℕ} {f : ClientSubscription → ClientSubscription}
    (hstatus : s.clubStatus id ≠ some .canceled ∨ ∀ c, (f c).status = .canceled) :
    s.Lasting (s.setClub (s.club.db.subscriptions.modify id f)) where
  plan hj := hj
  club {j} hj := by
    unfold clubStatus setClub at *
    dsimp only at hj ⊢
    by_cases hji : j = id
    · subst hji
      rcases hstatus with hne | hend
      · exact absurd hj hne
      · rw [Table.get?_modify_self]
        obtain ⟨c, hc, -⟩ := Option.map_eq_some_iff.1 hj
        rw [hc, Option.map_some, Option.map_some, hend]
    · rw [Table.get?_modify_of_ne _ _ hji]
      exact hj

/-- A club that was canceled is written with another status. -/
theorem not_lasting_setClub {id : ℕ} {f : ClientSubscription → ClientSubscription}
    (hcanceled : s.clubStatus id = some .canceled) (hf : ∀ c, (f c).status ≠ .canceled) :
    ¬ s.Lasting (s.setClub (s.club.db.subscriptions.modify id f)) := by
  intro h
  have hend := h.club hcanceled
  unfold clubStatus setClub at *
  dsimp only at hend
  obtain ⟨c, hc, -⟩ := Option.map_eq_some_iff.1 hcanceled
  rw [Table.get?_modify_self, hc, Option.map_some, Option.map_some] at hend
  exact hf c (Option.some.inj hend)

theorem not_lasting_setPlan {id : ℕ} {sub : PlatformSubscription}
    {f : PlatformSubscription → PlatformSubscription}
    (hid : s.plans.subscriptions.get? id = some sub) (hended : sub.status = .inactive)
    (hf : (f sub).status ≠ .inactive) : ¬ s.Lasting (s.setPlan id f) := by
  intro h
  have hstatus : s.planStatus id = some .inactive := by
    rw [planStatus, hid, Option.map_some, hended]
  have hend := h.plan hstatus
  unfold planStatus setPlan at hend
  dsimp only at hend
  rw [Table.get?_modify_self, hid, Option.map_some, Option.map_some] at hend
  exact hf (Option.some.inj hend)

/-- What a paid invoice of a club does to the clubs. -/
theorem handleClientSubscriptionInvoiceSucceeded_alone (invoice : ClubInvoice) (b : ClubBooks) :
    ∃ payments, handleClientSubscriptionInvoiceSucceeded invoice (fun _ => b) b = .ok { b with
      db := { b.db with
        subscriptions := invoice.renewed (invoice.resets (fun _ => b) b) b.db.subscriptions }
      payments := payments } := by
  unfold handleClientSubscriptionInvoiceSucceeded
  cases hrow : b.db.subscriptions.get? invoice.subscriptionId with
  | none =>
    refine ⟨b.payments, ?_⟩
    simp only [ClubInvoice.resets, hrow, Option.any_none, Bool.false_eq_true, false_and, if_false]
    rfl
  | some c =>
    by_cases halready : invoice.already b.payments = true
    · refine ⟨b.payments, ?_⟩
      simp only [ClubInvoice.resets, halready, if_true, Bool.true_eq_false, and_false, if_false]
      rfl
    · refine ⟨invoice.record (fromSeconds (b.current_period_start invoice.subscriptionId)) b.payments,
        ?_⟩
      dsimp only
      rw [if_neg halready]
      simp only [bind_eq_ok, pure_eq_ok]
      cases hreset : invoice.resets (fun _ => b) b with
      | none => exact ⟨_, rfl, rfl⟩
      | some start =>
        refine ⟨_, orRefuse_eq_ok.2 (Table.tryModify_eq_some.2 ⟨c, hrow, rfl, rfl⟩), rfl⟩

/-- A paid invoice of a club writes the clubs as its cycle says. -/
theorem clubInvoice_eq (i : StripeInvoice) (live : Option StripeSubscriptionStatus) :
    (s.clubInvoice i live).plans = s.plans ∧ (s.clubInvoice i live).club.db.subscriptions =
      ((s.invoiceClub i).filter fun _ => live.isSome).elim s.club.db.subscriptions fun id =>
        (i.ofClub id).renewed ((i.ofClub id).resets (fun _ => s.club) s.club)
          s.club.db.subscriptions := by
  unfold clubInvoice
  cases (s.invoiceClub i).filter fun _ => live.isSome with
  | none => exact ⟨rfl, rfl⟩
  | some id =>
    obtain ⟨payments, hok⟩ := handleClientSubscriptionInvoiceSucceeded_alone (i.ofClub id) s.club
    dsimp only
    rw [hok]
    exact ⟨rfl, rfl⟩

theorem lasting_clubInvoice {i : StripeInvoice} {live : Option StripeSubscriptionStatus} :
    s.Lasting (s.clubInvoice i live) ↔ s.revives i live = false := by
  obtain ⟨hplans, hclubs⟩ := s.clubInvoice_eq i live
  have hplan : ∀ {id}, (s.clubInvoice i live).planStatus id = s.planStatus id := by
    intro id
    rw [planStatus, planStatus, hplans]
  unfold revives
  cases hclub : (s.invoiceClub i).filter fun _ => live.isSome with
  | none =>
    rw [hclub] at hclubs
    refine iff_of_true ⟨fun hj => hplan.trans hj, fun {id} hj => ?_⟩ rfl
    rw [clubStatus, hclubs]
    exact hj
  | some id =>
    rw [hclub, Option.elim_some] at hclubs
    cases hreset : (i.ofClub id).resets (fun _ => s.club) s.club with
    | none =>
      rw [hreset] at hclubs
      refine iff_of_true ⟨fun hj => hplan.trans hj, fun {j} hj => ?_⟩ (by simp [hreset])
      rw [clubStatus, hclubs]
      exact hj
    | some start =>
      rw [hreset] at hclubs
      have hset : ∀ {j}, (s.clubInvoice i live).clubStatus j =
          (s.setClub (s.club.db.subscriptions.modify id (·.renew start))).clubStatus j := by
        intro j
        rw [clubStatus, hclubs]
        rfl
      simp only [Option.any_some, hreset, Option.isSome_some, Bool.and_true, beq_eq_false_iff_ne]
      constructor
      · intro h hcanceled
        refine s.not_lasting_setClub (f := (·.renew start)) hcanceled (fun _ he => by cases he) ?_
        exact ⟨fun hj => hj, fun hj => hset ▸ h.club hj⟩
      · intro hne
        have hlasting := s.lasting_setClub (f := (·.renew start)) (.inl hne)
        exact ⟨fun hj => hplan.trans hj, fun hj => hset.trans (hlasting.club hj)⟩

/-- The plans after one was released: it has ended, and the others are as they were. -/
theorem releaseToFreePlan_get? {id userId j : ℕ} {sub : PlatformSubscription}
    (hj : s.plans.subscriptions.get? j = some sub) :
    (s.releaseToFreePlan cat id userId).plans.subscriptions.get? j =
      some (if j = id then sub.withStatus .inactive else sub) := by
  have hset : (s.plans.subscriptions.modify id (·.withStatus .inactive)).get? j =
      some (if j = id then sub.withStatus .inactive else sub) := by
    rw [Table.get?_modify, hj]
    split <;> rfl
  unfold releaseToFreePlan setMembership
  simp only [ExpireSubscription.step]
  cases cat.freePlan with
  | none => exact hset
  | some planId => exact Table.get?_insert_of_some _ hset

theorem lasting_releaseToFreePlan (id userId : ℕ) :
    s.Lasting (s.releaseToFreePlan cat id userId) where
  plan {j} hj := by
    obtain ⟨sub, hsub, hended⟩ := Option.map_eq_some_iff.1 hj
    rw [planStatus, releaseToFreePlan_get? hsub, Option.map_some]
    split
    · rfl
    · rw [hended]
  club hj := hj

end StripeBooks

/-! ## What each delivery does -/

section Deliveries

variable {cat : PlanCatalog} {h : StripeHistory} {d : Delivery} {s' : StripeBooks}

/-- No plan changes. -/
theorem Delivery.due_of_kept (hkept : ∀ {id sub}, h.books.plans.subscriptions.get? id = some sub →
    ∃ sub', s'.plans.subscriptions.get? id = some sub' ∧ ¬ sub.moved sub') :
    d.Due h { h with books := s' } := by
  intro id sub sub' hsub hsub' hmoved
  obtain ⟨sub'', hsub'', hkept⟩ := hkept hsub
  obtain rfl := Option.some.inj (hsub'.symm.trans hsub'')
  exact absurd hmoved hkept

theorem PlatformSubscription.not_moved {sub sub' : PlatformSubscription}
    (hplan : sub'.planId = sub.planId) (hpending : sub'.pendingPlanId = sub.pendingPlanId) :
    ¬ sub.moved sub' := by
  rintro (hne | hne)
  · exact hne hplan
  · exact hne hpending

theorem Delivery.due_of_plans (hplans : s'.plans = h.books.plans) : d.Due h { h with books := s' } :=
  due_of_kept fun {_ sub} hsub =>
    ⟨sub, hplans ▸ hsub, PlatformSubscription.not_moved rfl rfl⟩

theorem Delivery.due_setStatus {id : ℕ} {status : PlanStatus}
    (hplans : s'.plans.subscriptions =
      h.books.plans.subscriptions.modify id (·.withStatus status)) :
    d.Due h { h with books := s' } := by
  refine due_of_kept fun {j sub} hsub => ?_
  rw [hplans, Table.get?_modify, hsub]
  split
  · exact ⟨_, rfl, PlatformSubscription.not_moved rfl rfl⟩
  · exact ⟨_, rfl, PlatformSubscription.not_moved rfl rfl⟩

/-- The plan of an invoice that is paid. -/
theorem invoicePaid_iff {i : StripeInvoice} {id : ℕ} {sub : PlatformSubscription}
    (hevent : d.event = .invoicePaymentSucceeded i)
    (hplan : h.books.plan i.subscriptionId = some (id, sub))
    (hplans : s'.plans = (h.books.invoicePaid i d.live id sub).plans) :
    d.Due h { h with books := s' } ↔
      StripeBooks.begins i d.live sub = false ∨ h.pendingSince id < fromSeconds i.period_start := by
  obtain ⟨hid, hstripe⟩ := StripeBooks.plan_get? hplan
  unfold StripeBooks.invoicePaid at hplans
  unfold StripeBooks.begins
  split at hplans
  · next hpaid =>
    have hsubscriptions : s'.plans.subscriptions =
        h.books.plans.subscriptions.modify id (i.renewPlan sub) := by rw [hplans]; rfl
    have hother : ∀ {j : ℕ}, j ≠ id → s'.plans.subscriptions.get? j =
        h.books.plans.subscriptions.get? j := by
      intro j hj
      rw [hsubscriptions, Table.get?_modify_of_ne _ _ hj]
    have hself : s'.plans.subscriptions.get? id = some (i.renewPlan sub sub) := by
      rw [hsubscriptions, Table.get?_modify_self, hid]
      rfl
    have halive : (sub.status != .inactive && d.live.all (· == .active)) = true := by
      rw [Bool.and_eq_true, bne_iff_ne]
      exact hpaid
    rw [halive, Bool.true_and, Bool.and_eq_false_iff]
    cases hpending : sub.pendingPlanId.filter fun _ => i.renewal with
    | none =>
      have hsame : (i.renewPlan sub sub) = { sub with status := .active } := by
        rw [StripeInvoice.renewPlan, hpending]
      refine iff_of_true (Delivery.due_of_kept fun {j row} hrow => ?_) (.inl ?_)
      · by_cases hj : j = id
        · subst hj
          obtain rfl := Option.some.inj (hid.symm.trans hrow)
          rw [hsame] at hself
          exact ⟨_, hself, PlatformSubscription.not_moved rfl rfl⟩
        · exact ⟨row, (hother hj).trans hrow, PlatformSubscription.not_moved rfl rfl⟩
      · rw [Option.filter_eq_none_iff] at hpending
        cases hp : sub.pendingPlanId with
        | none => exact .inr rfl
        | some p => exact .inl (Bool.eq_false_iff.2 (hpending p hp))
    | some p =>
      obtain ⟨hp, hrenewal⟩ := Option.filter_eq_some_iff.1 hpending
      have hmoved : sub.moved (i.renewPlan sub sub) := by
        right
        rw [StripeInvoice.renewPlan, hpending, hp]
        exact fun hnone => by cases hnone
      constructor
      · intro hdue
        obtain ⟨i', hevent', -, -, hsince⟩ := hdue _ _ _ hid hself hmoved
        obtain rfl := StripeEvent.invoicePaymentSucceeded.inj (hevent.symm.trans hevent')
        exact .inr hsince
      · intro hcond j row row' hrow hrow' hmoved'
        have hj : j = id := by
          by_contra hj
          obtain rfl := Option.some.inj (hrow'.symm.trans ((hother hj).trans hrow))
          exact PlatformSubscription.not_moved rfl rfl hmoved'
        subst hj
        obtain rfl := Option.some.inj (hid.symm.trans hrow)
        refine ⟨i, hevent, hrenewal, hstripe, hcond.resolve_left ?_⟩
        rintro (hno | hno)
        · rw [hrenewal] at hno
          cases hno
        · rw [hp] at hno
          cases hno
  · next hskipped =>
    refine iff_of_true (Delivery.due_of_plans hplans) (.inl ?_)
    have hdead : (sub.status != .inactive && d.live.all (· == .active)) = false := by
      rw [Bool.eq_false_iff]
      intro halive
      rw [Bool.and_eq_true, bne_iff_ne] at halive
      exact hskipped halive
    rw [hdead, Bool.false_and, Bool.false_and]

theorem lasting_invoicePaid {i : StripeInvoice} {s : StripeBooks} {id : ℕ}
    {sub : PlatformSubscription} {live : Option StripeSubscriptionStatus}
    (hplan : s.plan i.subscriptionId = some (id, sub)) : s.Lasting (s.invoicePaid i live id sub) := by
  unfold StripeBooks.invoicePaid
  split
  · next hpaid =>
    have hset := StripeBooks.lasting_setPlan (f := i.renewPlan sub)
      (StripeBooks.plan_get? hplan).1 (.inl hpaid.1)
    exact ⟨fun hj => hset.plan hj, fun hj => hset.club hj⟩
  · exact StripeBooks.Lasting.refl s

/-- What a write to the club that a Stripe subscription has does to the clubs. -/
theorem lasting_setClubOf (s : StripeBooks) (club : Option ℕ)
    (f : ClientSubscription → ClientSubscription) (alive : Bool)
    (hf : ∀ c, (f c).status ≠ .canceled ↔ alive = true) :
    s.Lasting (club.elim s fun id => s.setClub (s.club.db.subscriptions.modify id f)) ↔
      (club.all (fun id => s.clubStatus id != some .canceled) = true ∨ alive = false) := by
  cases club with
  | none => exact iff_of_true (StripeBooks.Lasting.refl s) (.inl rfl)
  | some id =>
    rw [Option.elim_some, Option.all_some, bne_iff_ne]
    constructor
    · intro hlasting
      by_contra hno
      obtain ⟨hcanceled, halive⟩ := not_or.1 hno
      rw [Bool.not_eq_false] at halive
      exact StripeBooks.not_lasting_setClub (not_not.1 hcanceled) (fun c => (hf c).2 halive) hlasting
    · rintro (hne | hdead)
      · exact StripeBooks.lasting_setClub (.inl hne)
      · refine StripeBooks.lasting_setClub (.inr fun c => ?_)
        by_contra hc
        rw [(hf c).1 hc] at hdead
        cases hdead

theorem handleInvoicePaymentSucceeded_iff {i : StripeInvoice}
    (hevent : d.event = .invoicePaymentSucceeded i) :
    (h.books.Lasting (h.books.handle cat d) ∧ d.Due h { h with books := h.books.handle cat d }) ↔
      d.orderly h = true := by
  simp only [StripeBooks.handle, hevent, StripeBooks.handleInvoicePaymentSucceeded,
    Delivery.orderly]
  cases hplan : h.books.plan i.subscriptionId with
  | some r =>
    obtain ⟨id, sub⟩ := r
    dsimp only
    rw [Bool.or_eq_true, Bool.not_eq_true', decide_eq_true_iff,
      ← invoicePaid_iff hevent hplan (StripeBooks.recordInvoice_plans i id)]
    exact and_iff_right
      ((lasting_invoicePaid hplan).congr (StripeBooks.recordInvoice_plans i id)
        (StripeBooks.recordInvoice_club i id))
  | none =>
    dsimp only
    split
    · next hrent =>
      exact iff_of_true ⟨StripeBooks.Lasting.refl _, Delivery.due_of_plans rfl⟩ (by simp [hrent])
    · next hrent =>
      rw [decide_eq_false hrent, Bool.false_or, Bool.not_eq_true', ← StripeBooks.lasting_clubInvoice]
      exact and_iff_left (Delivery.due_of_plans (StripeBooks.clubInvoice_eq i d.live).1)

theorem handleInvoicePaymentFailed_iff {i : StripeInvoice}
    (hevent : d.event = .invoicePaymentFailed i) :
    (h.books.Lasting (h.books.handle cat d) ∧ d.Due h { h with books := h.books.handle cat d }) ↔
      d.orderly h = true := by
  simp only [StripeBooks.handle, hevent, StripeBooks.handleInvoicePaymentFailed, Delivery.orderly]
  cases hplan : h.books.plan i.subscriptionId with
  | some r =>
    exact iff_of_true ⟨⟨fun hj => hj, fun hj => hj⟩, Delivery.due_of_plans rfl⟩ rfl
  | none =>
    dsimp only
    split
    · next hrent =>
      exact iff_of_true ⟨StripeBooks.Lasting.refl _, Delivery.due_of_plans rfl⟩ (by simp [hrent])
    · next hrent =>
      have hiff := lasting_setClubOf h.books (h.books.invoiceClub i) (·.withStatus .pastDue) true
        fun c => iff_of_true (fun hc => by cases hc) rfl
      rw [Bool.true_eq_false, or_false] at hiff
      rw [Option.isSome_none, decide_eq_false hrent, Bool.false_or, Bool.false_or, ← hiff]
      refine and_iff_left (Delivery.due_of_plans ?_)
      cases h.books.invoiceClub i <;> rfl

/-- An event that says the subscription of a plan is alive. -/
theorem setActive_iff {id : ℕ} {sub : PlatformSubscription} {membership : MembershipStatus}
    (hid : h.books.plans.subscriptions.get? id = some sub)
    (hs' : s' = (h.books.setMembership sub.userId membership).setPlan id (·.withStatus .active)) :
    (h.books.Lasting s' ∧ d.Due h { h with books := s' }) ↔ sub.status ≠ .inactive := by
  subst hs'
  have hdue : d.Due h { h with books :=
      (h.books.setMembership sub.userId membership).setPlan id (·.withStatus .active) } :=
    Delivery.due_setStatus rfl
  refine (and_iff_left hdue).trans ?_
  constructor
  · intro hlasting hended
    apply StripeBooks.not_lasting_setPlan (f := (·.withStatus .active)) hid hended
    · exact fun he => by cases he
    · exact hlasting.congr rfl rfl
  · intro hne
    exact (StripeBooks.lasting_setPlan (f := (·.withStatus .active)) hid (.inl hne)).congr rfl rfl

theorem handleSubscriptionUpdated_iff {stripeId : String} {status : StripeSubscriptionStatus}
    (hevent : d.event = .subscriptionUpdated stripeId status) :
    (h.books.Lasting (h.books.handle cat d) ∧ d.Due h { h with books := h.books.handle cat d }) ↔
      d.orderly h = true := by
  simp only [StripeBooks.handle, hevent, StripeBooks.handleSubscriptionUpdated, Delivery.orderly]
  cases hplan : h.books.plan stripeId with
  | some r =>
    obtain ⟨id, sub⟩ := r
    have hid := (StripeBooks.plan_get? hplan).1
    cases status with
    | canceled | unpaid | incomplete_expired =>
      refine iff_of_true ⟨StripeBooks.lasting_releaseToFreePlan id sub.userId, ?_⟩ (by simp)
      refine Delivery.due_of_kept fun {j row} hrow =>
        ⟨_, StripeBooks.releaseToFreePlan_get? hrow, ?_⟩
      split
      · exact PlatformSubscription.not_moved rfl rfl
      · exact PlatformSubscription.not_moved rfl rfl
    | active | trialing =>
      rw [setActive_iff hid rfl]
      simp
    | past_due =>
      rw [setActive_iff hid rfl]
      simp
    | incomplete | paused =>
      exact iff_of_true ⟨StripeBooks.Lasting.refl _, Delivery.due_of_plans rfl⟩ (by simp)
  | none =>
    dsimp only
    refine (and_iff_left (Delivery.due_of_plans ?_)).trans ?_
    · cases h.books.memberships stripeId <;> rfl
    rw [Bool.or_eq_true, Bool.not_eq_true']
    cases hclub : status.club with
    | none =>
      have hsame : ((h.books.memberships stripeId).elim h.books fun id =>
          h.books.setClub (syncClientClub id status h.books.club.db.subscriptions)) = h.books := by
        cases h.books.memberships stripeId with
        | none => rfl
        | some id =>
          rw [Option.elim_some, syncClientClub, hclub]
          rfl
      rw [hsame]
      refine iff_of_true (StripeBooks.Lasting.refl _) (.inr ?_)
      cases status with
      | active | past_due => cases hclub
      | _ => rfl
    | some clubStatus =>
      simp only [syncClientClub, hclub, Option.elim_some]
      refine lasting_setClubOf h.books _ (·.withStatus clubStatus) _ fun c => ?_
      change clubStatus ≠ .canceled ↔ _
      cases status <;> cases hclub <;> decide

theorem handleSubscriptionDeleted_iff {stripeId : String}
    (hevent : d.event = .subscriptionDeleted stripeId) :
    (h.books.Lasting (h.books.handle cat d) ∧ d.Due h { h with books := h.books.handle cat d }) ↔
      d.orderly h = true := by
  simp only [StripeBooks.handle, hevent, StripeBooks.handleSubscriptionDeleted, Delivery.orderly]
  refine iff_of_true ?_ trivial
  cases hplan : h.books.plan stripeId with
  | some r =>
    obtain ⟨id, sub⟩ := r
    have hset := StripeBooks.lasting_setPlan (f := (·.withStatus .inactive))
      (StripeBooks.plan_get? hplan).1 (.inr rfl)
    exact ⟨hset.congr rfl rfl, Delivery.due_setStatus rfl⟩
  | none =>
    dsimp only
    split
    · exact ⟨StripeBooks.Lasting.refl _, Delivery.due_of_plans rfl⟩
    · refine ⟨?_, Delivery.due_of_plans (by cases h.books.memberships stripeId <;> rfl)⟩
      exact (lasting_setClubOf h.books _ (·.withStatus .canceled) false fun c =>
        iff_of_false (not_not.2 rfl) Bool.false_ne_true).2 (.inr rfl)

/-- A delivery ends nothing that had not ended, and begins no plan before its time, if and only if it
is orderly. -/
theorem deliver_iff (cat : PlanCatalog) (h : StripeHistory) (d : Delivery) :
    (h.books.Lasting (h.books.handle cat d) ∧ d.Due h { h with books := h.books.handle cat d }) ↔
      d.orderly h = true := by
  cases hevent : d.event with
  | invoicePaymentSucceeded i => exact handleInvoicePaymentSucceeded_iff hevent
  | invoicePaymentFailed i => exact handleInvoicePaymentFailed_iff hevent
  | subscriptionUpdated stripeId status => exact handleSubscriptionUpdated_iff hevent
  | subscriptionDeleted stripeId => exact handleSubscriptionDeleted_iff hevent

end Deliveries

/-! ## Histories -/

section Histories

variable {cat : PlanCatalog} {h h' : StripeHistory} {steps : List StripeStep}

/-- `changePlan` and Stripe's own moves end nothing that had not ended, and bring nothing back. -/
theorem lasting_of_orderly {a : StripeStep} (ha : a.orderly h = true)
    (hstep : (stripeHistories cat).step h a = some h') : h.books.Lasting h'.books := by
  cases a with
  | deliver d =>
    obtain rfl := Option.some.inj hstep
    exact ((deliver_iff cat h d).2 ha).1
  | changePlan userId newPlanId k =>
    obtain rfl := Option.some.inj hstep
    exact ⟨fun hj => (changePlan_status _).trans hj, fun hj => hj⟩
  | period id start =>
    obtain rfl := Option.some.inj hstep
    exact ⟨fun hj => hj, fun hj => hj⟩

/-- A history of Stripe's events and changes of plans is proper if and only if every delivery is
orderly. -/
theorem stripe_history_proper_iff : h.Proper cat steps ↔
    (stripeHistories cat).Meets (fun h a => a.orderly h = true) h steps := by
  rw [Machine.meets_iff]
  constructor
  · intro hproper before a after h₁ hsplit hrun
    cases a with
    | deliver d =>
      refine (deliver_iff cat h₁ d).1 ⟨?_, ?_⟩
      · exact hproper.ended before [.deliver d] after h₁ _ (by simpa using hsplit) hrun rfl
      · exact hproper.due before d after h₁ _ hsplit hrun rfl
    | _ => rfl
  · intro hmeets
    refine ⟨fun before between after h₁ h₂ hsplit hrun hbetween => ?_,
      fun before d after h₁ h₂ hsplit hrun hstep => ?_⟩
    · refine (stripeHistories cat).run_inv_of_meets (C := fun h a => a.orderly h = true)
        (I := fun h => h₁.books.Lasting h.books) (fun hI ha hstep =>
          hI.trans (lasting_of_orderly ha hstep)) (StripeBooks.Lasting.refl _) ?_ hbetween
      rw [Machine.meets_iff]
      intro before' a after' h₃ hsplit' hrun'
      refine hmeets (before ++ before') a (after' ++ after) h₃ ?_
        ((stripeHistories cat).run_append.2 ⟨h₁, hrun, hrun'⟩)
      rw [hsplit, hsplit']
      simp
    · obtain rfl := Option.some.inj hstep
      exact ((deliver_iff cat h₁ d).2 (hmeets before _ after h₁ hsplit hrun)).2

end Histories

/-! ## Late events -/

/-- A free plan, and two that are paid for. -/
def threePlans : PlanCatalog where
  plans id := {
    price := id * 10
    billingCycle := .monthly
    stripePriceId := some "price" }
  freePlan := some 0
  addDays start days := start + days * 86400000
  addYears start years := start + years * (365 * 86400000)

/-- An owner with the larger plan, billed by Stripe. -/
def ownerOfStripe : StripeHistory where
  books := {
    plans := {
      subscriptions := (Table.empty : Table PlatformSubscription).insert {
        userId := 1
        planId := 2
        status := .active
        stripeSubscriptionId := some "sub_1"
        currentPeriodEnd := none
        renewalFailedAt := none
        cancelAtPeriodEnd := false
        pendingPlanId := none }
      payments := .empty
      renewals := fun _ => none
      owed := []
      advances := [] }
    invoices := .empty
    club := { db := .empty, payments := .empty, current_period_start := fun _ => 0 }
    memberships := fun _ => none
    rents := []
    userMembership := fun _ => .paid }
  pendingSince _ := 0

/-- The renewal of the period that begins at 100. -/
def renewalAt100 : StripeInvoice where
  id := "in_1"
  subscription := some "sub_1"
  payment_intent := some "pi_1"
  renewal := true
  amount_paid := 2000
  currency := "brl"
  created := 100
  next_payment_attempt := none
  lines := [some 200]
  period_start := 100
  period_end := some 200

/-- The end of the subscription is announced, and then an update from before it. -/
def updatedAfterDeleted : List StripeStep :=
  [.deliver ⟨.subscriptionDeleted "sub_1", none⟩,
    .deliver ⟨.subscriptionUpdated "sub_1" .active, none⟩]

/-- The renewal of 100, and then a smaller plan is scheduled at 150. -/
def scheduledAfterRenewal : List StripeStep :=
  [.deliver ⟨.invoicePaymentSucceeded renewalAt100, some .active⟩,
    .changePlan 1 1 {
      now := 150000
      crash := false
      card := true
      charge := .answered .succeeded
      indexed := true
      couponFits := true
      accepted := true
      usageFits := true }]

/-- The renewal of 100 is delivered again. -/
def renewalAgain : Delivery := ⟨.invoicePaymentSucceeded renewalAt100, some .active⟩

theorem late_events_not_proper : ¬ ownerOfStripe.Proper threePlans updatedAfterDeleted ∧
    ¬ ownerOfStripe.Proper threePlans (scheduledAfterRenewal ++ [.deliver renewalAgain]) := by
  constructor
  · intro h
    have hlasting := h.ended [.deliver ⟨.subscriptionDeleted "sub_1", none⟩]
      [.deliver ⟨.subscriptionUpdated "sub_1" .active, none⟩] [] _ _ rfl rfl rfl
    have hended := @hlasting.plan 1 (by decide +kernel)
    exact absurd hended (by decide +kernel)
  · intro h
    have hsome : ((stripeHistories threePlans).run ownerOfStripe scheduledAfterRenewal).any
        (fun h₁ => (h₁.books.plans.subscriptions.get? 1).any (·.planId == 2) &&
          ((h₁.books.handle threePlans renewalAgain).plans.subscriptions.get? 1).any
            (·.planId == 1) && decide (fromSeconds 100 ≤ h₁.pendingSince 1)) = true := by
      decide +kernel
    obtain ⟨h₁, hrun, hout⟩ := (Option.any_eq_true _ _).1 hsome
    simp only [Bool.and_eq_true, Option.any_eq_true, beq_iff_eq, decide_eq_true_eq] at hout
    obtain ⟨⟨⟨sub, hsub, hplan⟩, sub', hsub', hplan'⟩, hsince⟩ := hout
    have hdue := h.due scheduledAfterRenewal renewalAgain [] h₁ _ rfl hrun rfl
    have hmoved : sub.moved sub' := .inl (by rw [hplan, hplan']; decide)
    obtain ⟨i, hi, -, -, hlt⟩ := hdue 1 sub sub' hsub hsub' hmoved
    cases hi
    exact absurd hlt (not_lt.2 hsince)

end Barbershop
