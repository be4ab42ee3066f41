import Mathlib.Data.List.TakeWhile
import Barbershop.Club.Closing
import Barbershop.Lib.Lists

/-!
# The unused cycles come back

A call that completes asks for each unused part once (`complete_refunds`); a call that fails only
cancels, and what it has cancelled is not looked at again. So the parts come back exactly if no
failing call cancels a membership that has one (`unused_cycles_returned_iff`).
-/

namespace Barbershop

open Lib

namespace ClubClosing

variable {shops : List ℕ} {s s' : ClubClosing} {c : ClosingCall}

/-! ## Cancellations -/

/-- A membership that was cancelled. -/
def ended (m : ClubMembership) : ClubMembership :=
  { m with
    status := .canceled
    cancelAtPeriodEnd := false }

/-- `s'` is `s` with the memberships of `ids` cancelled. -/
structure Cancelled (ids : List ℕ) (s s' : ClubClosing) : Prop where
  memberships : ∀ id, s'.memberships.get? id =
    if id ∈ ids then (s.memberships.get? id).map ended else s.memberships.get? id
  payments : s'.payments = s.payments
  currency : s'.currency = s.currency
  refunds : s'.refunds = s.refunds
  completed : s'.completed = s.completed

theorem Cancelled.nil (s : ClubClosing) : Cancelled [] s s where
  memberships _ := (if_neg List.not_mem_nil).symm
  payments := rfl
  currency := rfl
  refunds := rfl
  completed := rfl

theorem Cancelled.cons {id : ℕ} {ids : List ℕ} (h : Cancelled ids (s.cancelMembership id) s') :
    Cancelled (id :: ids) s s' where
  memberships j := by
    rw [h.memberships, cancelMembership]
    by_cases hj : j = id
    · subst hj
      rw [Table.get?_modify_self, if_pos List.mem_cons_self, Option.map_map]
      split <;> rfl
    · rw [Table.get?_modify_of_ne _ _ hj]
      simp [hj]
  payments := h.payments
  currency := h.currency
  refunds := h.refunds
  completed := h.completed

theorem cancelEach_cancelled (answer : ℕ → CancelAnswer) (ids : List ℕ) :
    ∀ s, Cancelled (ids.takeWhile fun id => answer id != .failed) s (cancelEach answer ids s).1 ∧
      (cancelEach answer ids s).2 = !ids.any fun id => answer id == .failed := by
  induction ids with
  | nil => exact fun s => ⟨.nil s, rfl⟩
  | cons id ids ih =>
    intro s
    obtain ⟨hcancelled, hends⟩ := ih (s.cancelMembership id)
    by_cases hid : answer id = .failed
    · simp only [cancelEach, hid, if_pos, List.takeWhile_cons, List.any_cons]
      exact ⟨.nil s, rfl⟩
    · simp only [cancelEach, List.takeWhile_cons, List.any_cons, bne_iff_ne, ne_eq, hid,
        not_false_eq_true, beq_eq_false_iff_ne.2 hid, Bool.false_or]
      exact ⟨hcancelled.cons, hends⟩

variable (shops s) in
theorem step_of_fails (hfails : c.fails = true) :
    Cancelled c.cancels s (s.cancelClientSubscriptionsOfBarbershops shops c) := by
  obtain ⟨hcancelled, hends⟩ := cancelEach_cancelled c.cancel c.order s
  have hfalse : (cancelEach c.cancel c.order s).2 = false := by
    rw [hends, Bool.not_eq_false']
    exact hfails
  unfold cancelClientSubscriptionsOfBarbershops
  cases heach : cancelEach c.cancel c.order s with
  | mk s₁ b =>
    rw [heach] at hcancelled hfalse
    obtain rfl : b = false := hfalse
    exact hcancelled

/-- A call that completes cancels what it has to, and then asks for the unused parts. -/
theorem step_of_completes (hfails : c.fails = false) : ∃ s₁, Cancelled c.cancels s s₁ ∧
    s.cancelClientSubscriptionsOfBarbershops shops c =
      { (s.unusedClubCycles shops c.now).foldl (refundUnusedClubCycle c.refund) s₁ with
        completed := true } := by
  obtain ⟨hcancelled, hends⟩ := cancelEach_cancelled c.cancel c.order s
  have htrue : (cancelEach c.cancel c.order s).2 = true := by
    rw [hends, Bool.not_eq_true']
    exact hfails
  refine ⟨_, hcancelled, ?_⟩
  unfold cancelClientSubscriptionsOfBarbershops
  cases heach : cancelEach c.cancel c.order s with
  | mk s₁ b =>
    rw [heach] at htrue
    obtain rfl : b = true := htrue
    rfl

/-! ## Refunds -/

/-- What an unused part says of the rows it was worked out from. -/
structure Unused (s : ClubClosing) (r : UnusedClubCycle) : Prop where
  payment : ∃ p, s.payments.get? r.paymentId = some p ∧ p.subscriptionId = r.subscriptionId ∧
    p.refundedAmount = r.refundedAmount ∧
      ∃ x, r.amount = round2 (min (p.amount - p.refundedAmount.getD 0) x)

theorem unused_of_unusedCycle {now : ℤ} {id : ℕ} {m : ClubMembership} {r : UnusedClubCycle}
    (h : s.unusedCycle now id m = some r) : r.subscriptionId = id ∧ s.Unused r := by
  unfold unusedCycle at h
  obtain ⟨-, h⟩ := Option.ite_none_left_eq_some.1 h
  obtain ⟨⟨paymentId, p⟩, hcurrent, h⟩ := Option.bind_eq_some_iff.1 h
  obtain ⟨start, -, h⟩ := Option.bind_eq_some_iff.1 h
  obtain ⟨periodEnd, -, h⟩ := Option.bind_eq_some_iff.1 h
  obtain ⟨-, h⟩ := Option.ite_none_left_eq_some.1 h
  obtain ⟨-, h⟩ := Option.ite_none_left_eq_some.1 h
  obtain rfl := Option.some.inj h
  obtain ⟨hp, hmatch⟩ := Table.mem_filter.1 (List.maxOn?_mem hcurrent)
  simp only [Bool.and_eq_true, beq_iff_eq] at hmatch
  exact ⟨rfl, p, hp, hmatch.1.1, rfl, _, rfl⟩

/-- One refund leaves the others' payments, and is asked for if its payment is as it was read. -/
theorem refundUnusedClubCycle_spec (answer : ℕ → ClubRefundAnswer) {r : UnusedClubCycle}
    {p : ClubCyclePayment} (hp : s.payments.get? r.paymentId = some p)
    (hread : p.refundedAmount = r.refundedAmount) :
    (refundUnusedClubCycle answer s r).refunds = s.refunds ++ [r.refund (answer r.paymentId)] ∧
      (refundUnusedClubCycle answer s r).memberships = s.memberships ∧
        ∀ j ≠ r.paymentId, (refundUnusedClubCycle answer s r).payments.get? j =
          s.payments.get? j := by
  have htry : s.payments.tryModify r.paymentId (·.refundedAmount == r.refundedAmount)
      (fun p => { p with
        refundedAmount := some (round2 (r.refundedAmount.getD 0 + r.amount)) }) =
      some (s.payments.modify r.paymentId fun p => { p with
        refundedAmount := some (round2 (r.refundedAmount.getD 0 + r.amount)) }) :=
    Table.tryModify_eq_some.2 ⟨p, hp, beq_iff_eq.2 hread, rfl⟩
  unfold refundUnusedClubCycle
  simp only [htry]
  cases answer r.paymentId with
  | accepted | alreadyRefunded =>
    exact ⟨rfl, rfl, fun j hj => Table.get?_modify_of_ne _ _ hj⟩
  | refused =>
    refine ⟨rfl, rfl, fun j hj => ?_⟩
    dsimp only
    rw [Table.tryModify]
    split
    · rw [Option.getD_some, Table.get?_modify_of_ne _ _ hj, Table.get?_modify_of_ne _ _ hj]
    · rw [Option.getD_none, Table.get?_modify_of_ne _ _ hj]

/-- Refunds of different payments are all asked for, once each. -/
theorem foldl_refunds (answer : ℕ → ClubRefundAnswer) : ∀ {rs : List UnusedClubCycle} {s},
    (rs.map (·.paymentId)).Nodup → (∀ r ∈ rs, ∃ p, s.payments.get? r.paymentId = some p ∧
      p.refundedAmount = r.refundedAmount) →
    (rs.foldl (refundUnusedClubCycle answer) s).refunds =
      s.refunds ++ rs.map (fun r => r.refund (answer r.paymentId)) ∧
        (rs.foldl (refundUnusedClubCycle answer) s).memberships = s.memberships
  | [], s, _, _ => ⟨(List.append_nil _).symm, rfl⟩
  | r :: rs, s, hnodup, hread => by
    obtain ⟨p, hp, hsame⟩ := hread r List.mem_cons_self
    obtain ⟨hrefunds, hmemberships, hothers⟩ := refundUnusedClubCycle_spec answer hp hsame
    rw [List.map_cons, List.nodup_cons] at hnodup
    have hrest : ∀ q ∈ rs, ∃ p, (refundUnusedClubCycle answer s r).payments.get? q.paymentId =
        some p ∧ p.refundedAmount = q.refundedAmount := by
      intro q hq
      have hne : q.paymentId ≠ r.paymentId := fun heq =>
        hnodup.1 (heq ▸ List.mem_map_of_mem hq)
      rw [hothers _ hne]
      exact hread q (List.mem_cons_of_mem _ hq)
    obtain ⟨hrefunds', hmemberships'⟩ := foldl_refunds answer hnodup.2 hrest
    rw [List.foldl_cons, hrefunds', hmemberships', hrefunds, hmemberships]
    exact ⟨by simp, rfl⟩

/-! ## The unused parts -/

theorem unusedOf_eq_some {now : ℤ} {id : ℕ} {r : UnusedClubCycle}
    (h : s.unusedOf now id = some r) : r.subscriptionId = id ∧ s.Unused r := by
  obtain ⟨m, -, hm⟩ := Option.bind_eq_some_iff.1 h
  exact unused_of_unusedCycle hm

theorem mem_unusedClubCycles {now : ℤ} {r : UnusedClubCycle} :
    r ∈ s.unusedClubCycles shops now ↔ ∃ m, s.memberships.get? r.subscriptionId = some m ∧
      m.barbershopId ∈ shops ∧ s.unusedOf now r.subscriptionId = some r := by
  unfold unusedClubCycles
  rw [List.mem_filterMap]
  constructor
  · rintro ⟨⟨id, m⟩, hrow, hm⟩
    obtain ⟨hid, hshop⟩ := Table.mem_filter.1 hrow
    obtain ⟨rfl, -⟩ := unused_of_unusedCycle hm
    exact ⟨m, hid, of_decide_eq_true hshop, by rw [unusedOf, hid, Option.bind_some, hm]⟩
  · rintro ⟨m, hid, hshop, hr⟩
    rw [unusedOf, hid, Option.bind_some] at hr
    exact ⟨(r.subscriptionId, m), Table.mem_filter.2 ⟨hid, decide_eq_true hshop⟩, hr⟩

theorem unused_of_mem {now : ℤ} {r : UnusedClubCycle} (h : r ∈ s.unusedClubCycles shops now) :
    s.Unused r := by
  obtain ⟨m, -, -, hr⟩ := mem_unusedClubCycles.1 h
  exact (unusedOf_eq_some hr).2

theorem nodup_subscriptionIds (now : ℤ) :
    ((s.unusedClubCycles shops now).map (·.subscriptionId)).Nodup := by
  have hrows := s.memberships.nodup_filter fun _ m => decide (m.barbershopId ∈ shops)
  rw [List.Nodup, List.pairwise_map] at hrows ⊢
  unfold unusedClubCycles
  refine (List.pairwise_filterMap).2 (hrows.imp fun hne r hr r' hr' => ?_)
  rw [(unused_of_unusedCycle hr).1, (unused_of_unusedCycle hr').1]
  exact hne

/-- Memberships have payments of their own. -/
theorem nodup_paymentIds (now : ℤ) :
    ((s.unusedClubCycles shops now).map (·.paymentId)).Nodup := by
  have hids : ((s.unusedClubCycles shops now).map (·.subscriptionId)).Nodup :=
    nodup_subscriptionIds now
  rw [List.Nodup, List.pairwise_map] at hids ⊢
  refine hids.imp_of_mem fun {r r'} hr hr' hne heq => hne ?_
  obtain ⟨p, hp, howner, -⟩ := (unused_of_mem hr).payment
  obtain ⟨p', hp', howner', -⟩ := (unused_of_mem hr').payment
  rw [heq] at hp
  obtain rfl := Option.some.inj (hp.symm.trans hp')
  exact howner.symm.trans howner'

/-- The unused parts of one membership of the units. -/
theorem filter_unusedClubCycles {now : ℤ} {id : ℕ} {m : ClubMembership}
    (hid : s.memberships.get? id = some m) (hshop : m.barbershopId ∈ shops) :
    (s.unusedClubCycles shops now).filter (·.subscriptionId == id) =
      (s.unusedOf now id).toList := by
  cases hr : s.unusedOf now id with
  | some r =>
    obtain ⟨rfl, -⟩ := unusedOf_eq_some hr
    exact filter_key_eq_singleton (nodup_subscriptionIds now)
      (mem_unusedClubCycles.2 ⟨m, hid, hshop, hr⟩)
  | none =>
    rw [Option.toList_none, List.filter_eq_nil_iff]
    intro r hmem heq
    obtain rfl := beq_iff_eq.1 heq
    obtain ⟨-, -, -, hr'⟩ := mem_unusedClubCycles.1 hmem
    rw [hr] at hr'
    cases hr'

variable (shops s) in
/-- A call that completes asks for each unused part once. -/
theorem complete_refunds (hfails : c.fails = false) :
    (∀ id, (s.cancelClientSubscriptionsOfBarbershops shops c).memberships.get? id =
      if id ∈ c.cancels then (s.memberships.get? id).map ended else s.memberships.get? id) ∧
    (s.cancelClientSubscriptionsOfBarbershops shops c).refunds = s.refunds ++
      (s.unusedClubCycles shops c.now).map (fun r => r.refund (c.refund r.paymentId)) ∧
    (s.cancelClientSubscriptionsOfBarbershops shops c).completed = true := by
  have hcompletes : ∃ s₁, Cancelled c.cancels s s₁ ∧
      s.cancelClientSubscriptionsOfBarbershops shops c =
        { (s.unusedClubCycles shops c.now).foldl (refundUnusedClubCycle c.refund) s₁ with
          completed := true } := step_of_completes hfails
  obtain ⟨s₁, hcancelled, hstep⟩ := hcompletes
  have hread : ∀ r ∈ s.unusedClubCycles shops c.now, ∃ p,
      s₁.payments.get? r.paymentId = some p ∧ p.refundedAmount = r.refundedAmount := by
    intro r hr
    obtain ⟨p, hp, -, hsame, -⟩ := (unused_of_mem hr).payment
    exact ⟨p, hcancelled.payments ▸ hp, hsame⟩
  obtain ⟨hrefunds, hmemberships⟩ := foldl_refunds c.refund (nodup_paymentIds c.now) hread
  rw [hstep]
  refine ⟨fun id => ?_, ?_, rfl⟩
  · dsimp only
    rw [hmemberships]
    exact hcancelled.memberships id
  · dsimp only
    rw [hrefunds, hcancelled.refunds]

/-- What a call leaves of the memberships. -/
theorem memberships_step (id : ℕ) :
    (s.cancelClientSubscriptionsOfBarbershops shops c).memberships.get? id =
      if id ∈ c.cancels then (s.memberships.get? id).map ended else s.memberships.get? id := by
  cases hfails : c.fails with
  | true => exact (step_of_fails shops s hfails).memberships id
  | false => exact (complete_refunds shops s hfails).1 id

/-! ## Runs -/

theorem clubClosing_step : (clubClosing shops).step s c = some s' ↔ s.completed = false ∧
    c.order.Perm (s.openMemberships shops) ∧
      s.cancelClientSubscriptionsOfBarbershops shops c = s' := by
  simp only [clubClosing, Option.ite_none_left_eq_some, not_or, Bool.not_eq_true, not_not,
    Option.some.injEq, and_assoc]

theorem mem_openMemberships {id : ℕ} : id ∈ s.openMemberships shops ↔
    ∃ m, s.memberships.get? id = some m ∧ m.barbershopId ∈ shops ∧ m.status ≠ .canceled := by
  unfold openMemberships
  rw [List.mem_map]
  constructor
  · rintro ⟨⟨j, m⟩, hrow, rfl⟩
    obtain ⟨hm, hopen⟩ := Table.mem_filter.1 hrow
    rw [Bool.and_eq_true, bne_iff_ne, decide_eq_true_eq] at hopen
    exact ⟨m, hm, hopen⟩
  · rintro ⟨m, hm, hshop, hopen⟩
    refine ⟨(id, m), Table.mem_filter.2 ⟨hm, ?_⟩, rfl⟩
    rw [Bool.and_eq_true, bne_iff_ne, decide_eq_true_eq]
    exact ⟨hshop, hopen⟩

/-- What a call may cancel is open. -/
theorem open_of_mem_cancels {id : ℕ} (hstep : (clubClosing shops).step s c = some s')
    (hid : id ∈ c.cancels) : id ∈ s.openMemberships shops :=
  (clubClosing_step.1 hstep).2.1.mem_iff.1 ((List.takeWhile_sublist _).subset hid)

/-- What is open after a call was not cancelled by it, and was open before. -/
theorem open_step {id : ℕ} (hstep : (clubClosing shops).step s c = some s')
    (hid : id ∈ s'.openMemberships shops) : id ∉ c.cancels ∧ id ∈ s.openMemberships shops := by
  obtain ⟨-, -, rfl⟩ := clubClosing_step.1 hstep
  obtain ⟨m, hm, hshop, hopen⟩ := mem_openMemberships.1 hid
  rw [memberships_step] at hm
  split at hm
  · obtain ⟨m', -, rfl⟩ := Option.map_eq_some_iff.1 hm
    exact absurd rfl hopen
  · next hnot => exact ⟨hnot, mem_openMemberships.2 ⟨m, hm, hshop, hopen⟩⟩

theorem cancelledIn_cons {id : ℕ} {cs : List ClosingCall} :
    cancelledIn shops id s (c :: cs) = if id ∈ c.cancels then some (s, c)
      else cancelledIn shops id (s.cancelClientSubscriptionsOfBarbershops shops c) cs := rfl

/-- A membership that some call cancels is open. -/
theorem open_of_cancelledIn {id : ℕ} {cs : List ClosingCall} {x : ClubClosing × ClosingCall}
    (hrun : (clubClosing shops).run s cs = some s')
    (hx : cancelledIn shops id s cs = some x) : id ∈ s.openMemberships shops := by
  induction cs generalizing s with
  | nil => cases hx
  | cons c cs ih =>
    obtain ⟨s₁, hstep, hrest⟩ := (clubClosing shops).run_cons.1 hrun
    rw [cancelledIn_cons] at hx
    split at hx
    · next hid => exact open_of_mem_cancels hstep hid
    · obtain ⟨-, -, rfl⟩ := clubClosing_step.1 hstep
      exact (open_step hstep (ih hrest hx)).2

/-- The condition, membership by membership. -/
theorem meets_keepsCycles_iff {first : List UnusedClubCycle} {cs : List ClosingCall}
    (hrun : (clubClosing shops).run s cs = some s') :
    (clubClosing shops).Meets (fun s c => c.keepsCycles first s = true) s cs ↔
      ∀ r ∈ first, ∀ s₁ c₁, cancelledIn shops r.subscriptionId s cs = some (s₁, c₁) →
        c₁.fails = true → s₁.unusedOf c₁.now r.subscriptionId = none := by
  induction cs generalizing s with
  | nil =>
    refine ⟨fun _ r _ s₁ c₁ h => ?_, fun _ => trivial⟩
    cases h
  | cons c cs ih =>
    obtain ⟨s₂, hstep, hrest⟩ := (clubClosing shops).run_cons.1 hrun
    obtain ⟨-, -, rfl⟩ := clubClosing_step.1 hstep
    have hhead : c.keepsCycles first s = true ↔ ∀ r ∈ first, r.subscriptionId ∈ c.cancels →
        c.fails = true → s.unusedOf c.now r.subscriptionId = none := by
      simp only [ClosingCall.keepsCycles, Bool.or_eq_true, Bool.not_eq_true', List.all_eq_true,
        Option.isNone_iff_eq_none, List.any_eq_false, beq_iff_eq]
      constructor
      · rintro hkeeps r hr hid hfails
        rcases hkeeps with hnot | hall
        · rw [hfails] at hnot
          cases hnot
        · rcases hall _ hid with hnone | hunused
          · exact absurd rfl (hnone r hr)
          · exact hunused
      · intro h
        cases hfails : c.fails with
        | false => exact .inl rfl
        | true =>
          refine .inr fun id hid => ?_
          by_cases hfirst : ∃ r ∈ first, r.subscriptionId = id
          · obtain ⟨r, hr, rfl⟩ := hfirst
            exact .inr (h r hr hid hfails)
          · exact .inl fun r hr heq => hfirst ⟨r, hr, heq⟩
    constructor
    · rintro ⟨hkeeps, hmeets⟩ r hr s₁ c₁ hx hfails
      rw [cancelledIn_cons] at hx
      split at hx
      · next hid =>
        obtain ⟨rfl, rfl⟩ := Prod.mk.inj (Option.some.inj hx)
        exact hhead.1 hkeeps r hr hid hfails
      · exact (ih hrest).1 (hmeets _ hstep) r hr s₁ c₁ hx hfails
    · intro h
      refine ⟨hhead.2 fun r hr hid hfails => ?_, fun s₃ hstep' => ?_⟩
      · exact h r hr s c (by rw [cancelledIn_cons, if_pos hid]) hfails
      · obtain rfl := Option.some.inj (hstep.symm.trans hstep')
        refine (ih hrest).2 fun r hr s₁ c₁ hx hfails => ?_
        have hopen := open_step hstep (open_of_cancelledIn hrest hx)
        exact h r hr s₁ c₁ (by rw [cancelledIn_cons, if_neg hopen.1, hx]) hfails

/-- A membership that was cancelled gets nothing more. -/
theorem refunds_of_canceled {id : ℕ} {m : ClubMembership} {cs : List ClosingCall}
    (hm : s.memberships.get? id = some m) (hcanceled : m.status = .canceled)
    (hrun : (clubClosing shops).run s cs = some s') :
    s'.refunds.filter (·.subscriptionId == id) = s.refunds.filter (·.subscriptionId == id) := by
  induction cs generalizing s m with
  | nil =>
    obtain rfl := Option.some.inj hrun
    rfl
  | cons c cs ih =>
    obtain ⟨s₁, hstep, hrest⟩ := (clubClosing shops).run_cons.1 hrun
    obtain ⟨-, -, rfl⟩ := clubClosing_step.1 hstep
    have hlater : ∃ m', (s.cancelClientSubscriptionsOfBarbershops shops c).memberships.get? id =
        some m' ∧ m'.status = .canceled := by
      rw [memberships_step, hm]
      split
      · exact ⟨_, rfl, rfl⟩
      · exact ⟨m, rfl, hcanceled⟩
    obtain ⟨m', hm', hcanceled'⟩ := hlater
    rw [ih hm' hcanceled' hrest]
    cases hfails : c.fails with
    | true => rw [(step_of_fails shops s hfails).refunds]
    | false =>
      obtain ⟨-, hrefunds, -⟩ := complete_refunds shops s hfails
      have hnone : ((s.unusedClubCycles shops c.now).map fun r =>
          r.refund (c.refund r.paymentId)).filter (·.subscriptionId == id) = [] := by
        rw [List.filter_map, List.map_eq_nil_iff, List.filter_eq_nil_iff]
        intro r hr heq
        obtain rfl : r.subscriptionId = id := beq_iff_eq.1 heq
        obtain ⟨-, -, -, hunused⟩ := mem_unusedClubCycles.1 hr
        rw [unusedOf, hm, Option.bind_some, unusedCycle, hcanceled, if_pos (by decide)] at hunused
        cases hunused
      rw [hrefunds, List.filter_append, hnone, List.append_nil]

/-- Once a call has completed there is no other. -/
theorem run_of_completed {cs : List ClosingCall} (h : s.completed = true)
    (hrun : (clubClosing shops).run s cs = some s') : s' = s := by
  cases cs with
  | nil => exact (Option.some.inj hrun).symm
  | cons c cs =>
    obtain ⟨s₁, hstep, -⟩ := (clubClosing shops).run_cons.1 hrun
    rw [(clubClosing_step.1 hstep).1] at h
    cases h

/-- A call that completes cancels all that is open. -/
theorem cancels_of_completes {id : ℕ} (hfails : c.fails = false)
    (hstep : (clubClosing shops).step s c = some s') (hid : id ∈ s.openMemberships shops) :
    id ∈ c.cancels := by
  have horder : c.cancels = c.order := by
    refine List.takeWhile_eq_self_iff.2 fun id hid => ?_
    have hnot := (List.any_eq_false.1 hfails) id hid
    simpa using hnot
  rw [horder]
  exact (clubClosing_step.1 hstep).2.1.mem_iff.2 hid

/-- Some call cancels each open membership; if that call completes, it has the unused part asked for
once, and if it fails nothing is. -/
theorem refunds_of_run {id : ℕ} {cs : List ClosingCall} (hid : id ∈ s.openMemberships shops)
    (hnone : s.refunds = []) (hfresh : s.completed = false)
    (hrun : (clubClosing shops).run s cs = some s') (hdone : s'.completed = true) :
    ∃ s₁ c₁, cancelledIn shops id s cs = some (s₁, c₁) ∧
      s'.refunds.filter (·.subscriptionId == id) = if c₁.fails then [] else
        ((s₁.unusedOf c₁.now id).map fun r => r.refund (c₁.refund r.paymentId)).toList := by
  induction cs generalizing s with
  | nil =>
    obtain rfl := Option.some.inj hrun
    rw [hfresh] at hdone
    cases hdone
  | cons c cs ih =>
    obtain ⟨s₁, hstep, hrest⟩ := (clubClosing shops).run_cons.1 hrun
    obtain ⟨-, -, rfl⟩ := clubClosing_step.1 hstep
    obtain ⟨m, hm, hshop, hopen⟩ := mem_openMemberships.1 hid
    cases hfails : c.fails with
    | true =>
      have hcancelled := step_of_fails shops s hfails
      by_cases hmem : id ∈ c.cancels
      · refine ⟨s, c, by rw [cancelledIn_cons, if_pos hmem], ?_⟩
        have hended := hcancelled.memberships id
        rw [if_pos hmem, hm, Option.map_some] at hended
        rw [refunds_of_canceled hended rfl hrest, hcancelled.refunds, hnone, hfails, if_pos rfl]
        rfl
      · have hstill : id ∈
            (s.cancelClientSubscriptionsOfBarbershops shops c).openMemberships shops := by
          refine mem_openMemberships.2 ⟨m, ?_, hshop, hopen⟩
          rw [hcancelled.memberships, if_neg hmem, hm]
        rw [cancelledIn_cons, if_neg hmem]
        exact ih hstill (hcancelled.refunds.trans hnone) (hcancelled.completed.trans hfresh) hrest
    | false =>
      obtain ⟨-, hrefunds, hcompleted⟩ := complete_refunds shops s hfails
      obtain rfl := run_of_completed hcompleted hrest
      have hmem := cancels_of_completes hfails hstep hid
      refine ⟨s, c, by rw [cancelledIn_cons, if_pos hmem], ?_⟩
      rw [hrefunds, hnone, List.nil_append, List.filter_map, hfails, if_neg Bool.false_ne_true,
        Option.toList_map]
      exact congrArg _ (filter_unusedClubCycles hm hshop)

/-- At the end nothing is open. -/
theorem none_open_of_run {id : ℕ} {cs : List ClosingCall} (hfresh : s.completed = false)
    (hrun : (clubClosing shops).run s cs = some s') (hdone : s'.completed = true) :
    id ∉ s'.openMemberships shops := by
  induction cs generalizing s with
  | nil =>
    obtain rfl := Option.some.inj hrun
    rw [hfresh] at hdone
    cases hdone
  | cons c cs ih =>
    obtain ⟨s₁, hstep, hrest⟩ := (clubClosing shops).run_cons.1 hrun
    cases hcompleted : s₁.completed with
    | false => exact ih hcompleted hrest
    | true =>
      obtain rfl := run_of_completed hcompleted hrest
      intro hid
      obtain ⟨hnot, hopen⟩ := open_step hstep hid
      cases hfails : c.fails with
      | false => exact hnot (cancels_of_completes hfails hstep hopen)
      | true =>
        obtain ⟨hopen', -, rfl⟩ := clubClosing_step.1 hstep
        rw [(step_of_fails shops s hfails).completed, hopen'] at hcompleted
        cases hcompleted

/-- What was asked for by the end was worked out by one call, from the payments as they were. -/
theorem refunds_eq_of_run {cs : List ClosingCall} (hnone : s.refunds = [])
    (hfresh : s.completed = false) (hrun : (clubClosing shops).run s cs = some s')
    (hdone : s'.completed = true) : ∃ (t : ClubClosing) (c : ClosingCall),
      t.payments = s.payments ∧ s'.refunds =
        (t.unusedClubCycles shops c.now).map fun r => r.refund (c.refund r.paymentId) := by
  induction cs generalizing s with
  | nil =>
    obtain rfl := Option.some.inj hrun
    rw [hfresh] at hdone
    cases hdone
  | cons c cs ih =>
    obtain ⟨s₁, hstep, hrest⟩ := (clubClosing shops).run_cons.1 hrun
    obtain ⟨-, -, rfl⟩ := clubClosing_step.1 hstep
    cases hfails : c.fails with
    | true =>
      have hcancelled := step_of_fails shops s hfails
      obtain ⟨t, c', ht, heq⟩ := ih (hcancelled.refunds.trans hnone)
        (hcancelled.completed.trans hfresh) hrest
      exact ⟨t, c', ht.trans hcancelled.payments, heq⟩
    | false =>
      obtain ⟨-, hrefunds, hcompleted⟩ := complete_refunds shops s hfails
      obtain rfl := run_of_completed hcompleted hrest
      exact ⟨s, c, rfl, by rw [hrefunds, hnone, List.nil_append]⟩

/-- One call asks for no more of a payment than is left of it. -/
theorem givenBack_le {t : ClubClosing} {id : ℕ} {p : ClubCyclePayment} {now : ℤ}
    {answer : ℕ → ClubRefundAnswer} (hp : t.payments.get? id = some p) (hamount : IsCents p.amount)
    (hrefunded : IsCents (p.refundedAmount.getD 0)) (hpaid : p.refundedAmount.getD 0 ≤ p.amount)
    (hs' : s'.refunds = (t.unusedClubCycles shops now).map fun r => r.refund (answer r.paymentId)) :
    s'.givenBack id ≤ p.amount - p.refundedAmount.getD 0 := by
  have hsplit : (s'.refunds.filter fun r => r.paymentId == id && r.answer == .accepted) =
      (((t.unusedClubCycles shops now).filter (·.paymentId == id)).map fun r =>
        r.refund (answer r.paymentId)).filter (·.answer == .accepted) := by
    rw [hs', List.filter_map, List.filter_map, List.filter_filter]
    refine congrArg _ (List.filter_congr fun r _ => ?_)
    exact Bool.and_comm _ _
  unfold givenBack
  rw [hsplit]
  by_cases hmem : ∃ r ∈ t.unusedClubCycles shops now, r.paymentId = id
  · obtain ⟨r, hr, rfl⟩ := hmem
    obtain ⟨p', hp', -, -, x, hx⟩ := (unused_of_mem hr).payment
    obtain rfl := Option.some.inj (hp.symm.trans hp')
    have hle : r.amount ≤ p.amount - p.refundedAmount.getD 0 := by
      rw [hx, ← (hamount.sub hrefunded).round2_eq]
      exact round2_mono (by rw [(hamount.sub hrefunded).round2_eq]; exact min_le_left _ _)
    rw [filter_key_eq_singleton (nodup_paymentIds now) hr, List.map_singleton,
      List.filter_singleton]
    cases (r.refund (answer r.paymentId)).answer == .accepted with
    | true =>
      rw [cond_true, List.map_singleton, List.sum_singleton]
      exact hle
    | false =>
      rw [cond_false, List.map_nil, List.sum_nil]
      linarith
  · have hempty : (t.unusedClubCycles shops now).filter (·.paymentId == id) = [] := by
      rw [List.filter_eq_nil_iff]
      exact fun r hr heq => hmem ⟨r, hr, beq_iff_eq.1 heq⟩
    rw [hempty, List.map_nil, List.filter_nil, List.map_nil, List.sum_nil]
    linarith

end ClubClosing

open ClubClosing

variable {shops : List ℕ} {s s' : ClubClosing} {c : ClosingCall} {cs : List ClosingCall}

/-- The unused cycles come back exactly if no call that fails cancels a membership that has one. -/
theorem unused_cycles_returned_iff (hs : s.Opening)
    (hrun : (clubClosing shops).run s (c :: cs) = some s') (hdone : s'.completed = true) :
    CyclesReturned shops s c cs s' ↔ (clubClosing shops).Meets
      (fun t d => d.keepsCycles (s.unusedClubCycles shops c.now) t = true) s (c :: cs) := by
  have hopen : ∀ r ∈ s.unusedClubCycles shops c.now,
      r.subscriptionId ∈ s.openMemberships shops := by
    intro r hr
    obtain ⟨m, hm, hshop, hunused⟩ := mem_unusedClubCycles.1 hr
    refine mem_openMemberships.2 ⟨m, hm, hshop, fun hcanceled => ?_⟩
    rw [unusedOf, hm, Option.bind_some, unusedCycle, hcanceled, if_pos (by decide)] at hunused
    cases hunused
  rw [meets_keepsCycles_iff hrun]
  constructor
  · intro h r hr s₁ c₁ hx hfails
    obtain ⟨s₂, c₂, hx', hrefunds⟩ := h.returned r hr
    obtain ⟨s₃, c₃, hx'', hrefunds'⟩ := refunds_of_run (hopen r hr) hs.refunds hs.fresh hrun hdone
    obtain ⟨rfl, rfl⟩ := Prod.mk.inj (Option.some.inj (hx.symm.trans hx'))
    obtain ⟨rfl, rfl⟩ := Prod.mk.inj (Option.some.inj (hx.symm.trans hx''))
    rw [hfails, if_pos rfl, hrefunds] at hrefunds'
    simpa using hrefunds'
  · intro h
    refine ⟨fun r hr => ?_, fun id p hp => ?_, fun id m hm hshop => ?_⟩
    · obtain ⟨s₁, c₁, hx, hrefunds⟩ := refunds_of_run (hopen r hr) hs.refunds hs.fresh hrun hdone
      refine ⟨s₁, c₁, hx, ?_⟩
      rw [hrefunds]
      split
      · next hfails =>
        rw [h r hr s₁ c₁ hx hfails]
        rfl
      · rfl
    · obtain ⟨t, d, ht, hrefunds⟩ := refunds_eq_of_run hs.refunds hs.fresh hrun hdone
      have hle := givenBack_le (ht ▸ hp) (hs.cents hp).1 (hs.cents hp).2 (hs.paid hp) hrefunds
      linarith
    · by_contra hnot
      exact none_open_of_run hs.fresh hrun hdone (mem_openMemberships.2 ⟨m, hm, hshop, hnot⟩)

/-! ## Two closings -/

def halfUsedMembership : ClubMembership where
  barbershopId := 1
  stripeSubscriptionId := "sub_1"
  connectAccountId := none
  status := .active
  usedThisCycle := 0
  sessionsPerCycle := none
  cancelAtPeriodEnd := false

def halfUsedPayment (subscriptionId : ℕ) : ClubCyclePayment where
  subscriptionId := subscriptionId
  stripeInvoiceId := "in_1"
  createdAt := 0
  amount := 100
  refundedAmount := none
  succeeded := true
  periodStart := some 0
  periodEnd := some 2000

/-- Two memberships in the middle of a paid cycle. -/
def twoMemberships : ClubClosing where
  memberships := (Table.empty.insert halfUsedMembership).insert halfUsedMembership
  payments := (Table.empty.insert (halfUsedPayment 1)).insert (halfUsedPayment 2)
  currency _ := "BRL"
  refunds := []
  completed := false

theorem opening_twoMemberships : twoMemberships.Opening where
  fresh := rfl
  refunds := rfl
  cents {id p} hp := by
    have hall : twoMemberships.payments.rows.all (fun row => decide (IsCents row.2.amount ∧
        IsCents (row.2.refundedAmount.getD 0))) = true := by
      decide +kernel
    exact of_decide_eq_true (List.all_eq_true.1 hall _ (Table.mem_iff.2 hp))
  paid {id p} hp := by
    have hall : twoMemberships.payments.rows.all (fun row =>
        decide (row.2.refundedAmount.getD 0 ≤ row.2.amount)) = true := by
      decide +kernel
    exact of_decide_eq_true (List.all_eq_true.1 hall _ (Table.mem_iff.2 hp))

def cancelsAll (order : List ℕ) : ClosingCall where
  now := 1000
  order := order
  cancel _ := .accepted
  refund _ := .accepted

/-- The first call fails at once, and the second completes. -/
def failedAtOnce : ClosingCall := { cancelsAll [1, 2] with cancel := fun _ => .failed }

theorem failedAtOnce_returned : ∃ s', (clubClosing [1]).run twoMemberships
      [failedAtOnce, cancelsAll [2, 1]] = some s' ∧ s'.refunds.length = 2 ∧
        CyclesReturned [1] twoMemberships failedAtOnce [cancelsAll [2, 1]] s' := by
  have hmeets : (clubClosing [1]).Meets (fun t d => d.keepsCycles
      (twoMemberships.unusedClubCycles [1] failedAtOnce.now) t = true) twoMemberships
      [failedAtOnce, cancelsAll [2, 1]] := by
    decide +kernel
  have hsome : ((clubClosing [1]).run twoMemberships [failedAtOnce, cancelsAll [2, 1]]).any
      (fun s' => s'.completed && s'.refunds.length == 2) = true := by
    decide +kernel
  obtain ⟨s', hrun, hout⟩ := (Option.any_eq_true _ _).1 hsome
  simp only [Bool.and_eq_true, beq_iff_eq] at hout
  exact ⟨s', hrun, hout.2, (unused_cycles_returned_iff opening_twoMemberships hrun hout.1).2 hmeets⟩

/-- The first call cancels one membership and fails at the other; the second completes. -/
def failedHalfway : ClosingCall :=
  { cancelsAll [1, 2] with cancel := fun id => if id = 2 then .failed else .accepted }

theorem failedHalfway_not_returned : twoMemberships.Opening ∧ ∃ s',
    (clubClosing [1]).run twoMemberships [failedHalfway, cancelsAll [2]] = some s' ∧
      s'.completed = true ∧ s'.refunds.map (·.subscriptionId) = [2] ∧
        (twoMemberships.unusedOf 1000 1).map (·.amount) = some 50 ∧
          ¬ CyclesReturned [1] twoMemberships failedHalfway [cancelsAll [2]] s' := by
  have hsome : ((clubClosing [1]).run twoMemberships [failedHalfway, cancelsAll [2]]).any
      (fun s' => s'.completed && s'.refunds.map (·.subscriptionId) == [2]) = true := by
    decide +kernel
  obtain ⟨s', hrun, hout⟩ := (Option.any_eq_true _ _).1 hsome
  simp only [Bool.and_eq_true, beq_iff_eq] at hout
  refine ⟨opening_twoMemberships, s', hrun, hout.1, hout.2, by decide +kernel, fun h => ?_⟩
  have hfirst : UnusedClubCycle.mk 1 1 none false "BRL" 50 ∈
      twoMemberships.unusedClubCycles [1] failedHalfway.now := by
    decide +kernel
  obtain ⟨s₁, c₁, hx, hrefunds⟩ := h.returned _ hfirst
  rw [cancelledIn_cons, if_pos (by decide)] at hx
  obtain ⟨rfl, rfl⟩ := Prod.mk.inj (Option.some.inj hx)
  have hnone : s'.refunds.filter (·.subscriptionId == 1) = [] := by
    rw [List.filter_eq_nil_iff]
    intro r hr heq
    have hmem := List.mem_map_of_mem (f := (·.subscriptionId)) hr
    rw [hout.2, beq_iff_eq.1 heq] at hmem
    exact absurd hmem (by decide)
  have hsome : (twoMemberships.unusedOf failedHalfway.now 1).isSome = true := by
    decide +kernel
  rw [hnone, eq_comm, Option.toList_eq_nil_iff, Option.map_eq_none_iff] at hrefunds
  rw [hrefunds] at hsome
  cases hsome

end Barbershop
