import Barbershop.Payment.Notice
import Barbershop.Payment.Refund

/-!
# A lost dispute is applied

Whatever is delivered for a payment, in any order and stopped after any write, the amount shown as
returned only goes up and stays within the charge. When every delivery keeps up, a dispute that was
lost has been applied once an event that says so was handled to its end.
-/

namespace Barbershop

open Lib

/-! ## Whole runs -/

/-- The payment is recorded, and what is delivered is about it, from before its first dispute on. -/
structure AppPayment.Delivered (p : AppPayment) (amountOf : String → ℤ) (s : AppBooks)
    (ns : List (Notice × Option ℕ)) : Prop where
  recorded : p.Recorded s
  fresh : ∀ n ∈ ns, ∀ d, n.1.event = .dispute d → s.disputes d.id = none
  notified : ∀ n ∈ ns, p.Notified amountOf n.1

section Runs

variable {p : AppPayment} {amountOf : String → ℤ} {s s' : AppBooks} {ns : List (Notice × Option ℕ)}

theorem run_advances (hp : 0 ≤ p.amount) (hn : ∀ n ∈ ns, p.Notified amountOf n.1)
    (hrun : refundWebhooks.deliveries.run s ns = some s') : p.Advances s s' := by
  induction ns generalizing s with
  | nil => exact Option.some.inj hrun ▸ .refl s
  | cons n ns ih =>
    obtain ⟨s₁, h₁, h₂⟩ := Machine.run_cons _ |>.1 hrun
    obtain rfl := Option.some.inj h₁
    have hrest := ih (fun m hm => hn m (List.mem_cons_of_mem _ hm)) h₂
    exact ((hn n List.mem_cons_self).advances hp n.2 s).trans hrest

/-- A dispute that is closed stays closed. -/
theorem closed_handle {id : String} (n : Notice) (stop : Option ℕ)
    (h : (s.disputes id).any (·.closedAt.isSome) = true) :
    ((refundWebhooks.handle n stop s).disputes id).any (·.closedAt.isSome) = true := by
  obtain hsame | ⟨d, -, hopen, -, hnew⟩ := disputes_handle n stop s
  · rw [hsame]
    exact h
  · have hne : id ≠ d.id := by
      rintro rfl
      rw [h] at hopen
      cases hopen
    rw [hnew]
    simpa only [AppWrite.exec, if_neg hne] using h

theorem closed_run {id : String} (h : (s.disputes id).any (·.closedAt.isSome) = true)
    (hrun : refundWebhooks.deliveries.run s ns = some s') :
    (s'.disputes id).any (·.closedAt.isSome) = true := by
  refine Machine.run_inv (m := refundWebhooks.deliveries)
    (I := fun s : AppBooks => (s.disputes id).any (·.closedAt.isSome) = true) ?_ h hrun
  intro s a s₁ hs hstep
  obtain rfl := Option.some.inj hstep
  exact closed_handle a.1 a.2 hs

/-- Once an event that says it is lost was handled to the end, the dispute is closed. -/
theorem closed_of_handled {d : StripeDispute} (hlost : d.status = .lost)
    (hh : Handler.Handled (fun n : Notice => n.event = .dispute d) ns)
    (hrun : refundWebhooks.deliveries.run s ns = some s') :
    (s'.disputes d.id).any (·.closedAt.isSome) = true := by
  obtain ⟨n, hn, he, hstop⟩ := hh
  obtain ⟨before, after, rfl⟩ := List.append_of_mem hn
  obtain ⟨s₁, -, h₂⟩ := Machine.run_append _ |>.1 hrun
  obtain ⟨s₂, h₂, h₃⟩ := Machine.run_cons _ |>.1 h₂
  obtain rfl := Option.some.inj h₂
  refine closed_run ?_ h₃
  cases hclosed : (s₁.disputes d.id).any (·.closedAt.isSome) with
  | true => exact closed_handle n.1 n.2 hclosed
  | false =>
    obtain ⟨hclosed', -⟩ | ⟨rest, hrest, -, hmem⟩ := writes_dispute he s₁
    · rw [hclosed] at hclosed'
      cases hclosed'
    · have hnot : ∀ x ∈ rest, ∀ d now, x ≠ .dispute d now := by
        intro x hx
        rcases hmem x hx with ⟨intent, -, hx⟩ | hx
        · exact not_dispute_of_revoke hx
        · exact hx.not_dispute
      have hwrites : refundWebhooks.done n.1 n.2 s₁ = .dispute d n.1.now :: rest := by
        rw [hstop]
        exact hrest
      rw [Handler.handle, hwrites, Handler.execAll_cons]
      refine Handler.execAll_inv
        (I := fun s : AppBooks => (s.disputes d.id).any (·.closedAt.isSome) = true)
        (fun x hx s hs => ?_) ?_
      · simp only [refundWebhooks]
        rw [AppWrite.disputes_exec (hnot x hx)]
        exact hs
      · simp [refundWebhooks, AppWrite.exec, StripeDispute.row, hlost, DisputeStatus.closed]

/-- While deliveries keep up, a dispute that is closed has been applied. -/
theorem run_applied {id : String} (hp : 0 ≤ p.amount) (hn : ∀ n ∈ ns, p.Notified amountOf n.1)
    (hlost : FinallyLost id ns) (hwhole : p.whole = true → amountOf id = p.amount)
    (hC : refundWebhooks.deliveries.Meets (fun s n => p.keepsUp s n = true) s ns)
    (hrun : refundWebhooks.deliveries.run s ns = some s') (hs : p.Kept s) (ht : p.TookDays s)
    (hclosed : (s.disputes id).any (·.closedAt.isSome) = true → p.Applied (amountOf id) s) :
    (s'.disputes id).any (·.closedAt.isSome) = true → p.Applied (amountOf id) s' := by
  induction ns generalizing s with
  | nil => exact Option.some.inj hrun ▸ hclosed
  | cons n ns ih =>
    obtain ⟨s₁, h₁, h₂⟩ := Machine.run_cons _ |>.1 hrun
    have hC' := hC.2 s₁ h₁
    obtain rfl := Option.some.inj h₁
    have hnotified := hn n List.mem_cons_self
    have hadvances := hnotified.advances hp n.2 s
    refine ih (fun m hm => hn m (List.mem_cons_of_mem _ hm))
      (fun m hm => hlost m (List.mem_cons_of_mem _ hm)) hC' h₂ (hadvances.kept hs)
      (hnotified.tookDays hp hs ht hC.1) fun hafter => ?_
    obtain hsame | ⟨d, he, hopen, hdone, hnew⟩ := disputes_handle n.1 n.2 s
    · rw [hsame] at hafter
      exact hadvances.applied hs _ (hclosed hafter)
    · rw [hnew] at hafter
      by_cases hid : id = d.id
      · have hdisputed : p.Disputed amountOf d := by
          have h := hnotified
          unfold AppPayment.Notified at h
          rw [he] at h
          exact h.1
        have hended : d.status.closed = true := by
          by_contra hne
          rw [Bool.not_eq_true] at hne
          simp [AppWrite.exec, hid, StripeDispute.row, hne] at hafter
        have hlost' := hlost n List.mem_cons_self d he hid.symm hended
        have hwhole' : p.whole = true → d.amount = p.amount := by
          rw [hdisputed.amount, ← hid]
          exact hwhole
        rw [hid, ← hdisputed.amount]
        exact hnotified.lost hp he hlost' hs ht hC.1 hdone hwhole'
      · simp only [AppWrite.exec, if_neg hid] at hafter
        exact hadvances.applied hs _ (hclosed hafter)

end Runs

/-- In any run of deliveries the amount shown as returned only goes up and stays within the charge;
and if every delivery keeps up, a lost dispute that was handled to the end has been applied. -/
theorem lost_dispute_applied {p : AppPayment} {amountOf : String → ℤ} {s s' : AppBooks}
    {ns : List (Notice × Option ℕ)} (h : p.Delivered amountOf s ns)
    (hrun : refundWebhooks.deliveries.run s ns = some s') :
    (∀ before after s₁, ns = before ++ after →
      refundWebhooks.deliveries.run s before = some s₁ →
        p.shown s₁ ≤ p.shown s' ∧ p.shown s₁ ≤ p.value) ∧
    (refundWebhooks.deliveries.Meets (fun s n => p.keepsUp s n = true) s ns →
      ∀ d : StripeDispute, d.status = .lost → FinallyLost d.id ns →
        Handler.Handled (fun n : Notice => n.event = .dispute d) ns →
        (p.whole = true → d.amount = p.amount) → p.Applied d.amount s') := by
  have hp := h.recorded.nonneg
  constructor
  · rintro before after s₁ rfl hbefore
    obtain ⟨s₂, h₂, hafter⟩ := Machine.run_append _ |>.1 hrun
    obtain rfl := Option.some.inj (hbefore.symm.trans h₂)
    have first : p.Advances s s₁ :=
      run_advances hp (fun n hn => h.notified n (List.mem_append_left _ hn)) hbefore
    have second : p.Advances s₁ s' :=
      run_advances hp (fun n hn => h.notified n (List.mem_append_right _ hn)) hafter
    have hkept := first.kept h.recorded.kept
    exact ⟨second.shown hkept, AppPayment.shown_le hp hkept⟩
  · intro hC d hlost hfinally hhandled hwhole
    have hclosed := closed_of_handled hlost hhandled hrun
    obtain ⟨n, hn, he, -⟩ := hhandled
    have hdisputed : p.Disputed amountOf d := by
      have hnotified := h.notified n hn
      unfold AppPayment.Notified at hnotified
      rw [he] at hnotified
      exact hnotified.1
    rw [hdisputed.amount] at hwhole ⊢
    refine run_applied hp h.notified hfinally hwhole hC hrun h.recorded.kept h.recorded.tookDays
      (fun hopen => ?_) hclosed
    rw [h.fresh n hn d he] at hopen
    cases hopen

/-! ## A payment of 50, disputed -/

def noAppPayments : AppBooks where
  disputes _ := none
  appointments := .empty
  tips := .empty
  clubPayments := .empty
  featured := .empty
  featuredUntil _ _ := none
  fees := .empty

def paidFifty (kind : AppPaymentKind) (invoice : Option String) : AppPayment where
  kind := kind
  id := 1
  intent := "pi_1"
  invoice := invoice
  currency := "brl"
  amount := 5000

/-- The charge, with what of it went back. -/
def chargeOfFifty (invoice : Option String) (back : ℤ) : StripeCharge where
  id := "ch_1"
  payment_intent := some "pi_1"
  invoice := invoice
  currency := "brl"
  amount := 5000
  amount_refunded := back
  refunded := decide (5000 ≤ back)

def disputeOf (amount : ℤ) (status : DisputeStatus) : StripeDispute where
  id := "dp_1"
  charge := some (.id "ch_1")
  payment_intent := some "pi_1"
  amount := amount
  currency := "brl"
  reason := "fraudulent"
  status := status
  due_by := none

def noticeOf (event : AppEvent) (retrieved : Option StripeCharge) : Notice where
  event := event
  retrieved := retrieved
  now := 10
  syncedAt := 11

def withDeposit : AppBooks :=
  { noAppPayments with
    appointments := Table.empty.insert
      { visit with
        depositAmount := some 50
        depositPaid := true
        depositPaidAt := some 1
        depositPaymentIntentId := some "pi_1" } }

def withPrepayment : AppBooks :=
  { noAppPayments with
    appointments := Table.empty.insert
      { visit with
        prepaidAt := some 1
        prepaidAmount := some 50
        prepaidPaymentIntentId := some "pi_1" } }

def withInvoice : AppBooks :=
  { noAppPayments with clubPayments := Table.empty.insert ⟨"in_1", 50, none⟩ }

theorem paidFifty_value (kind : AppPaymentKind) (invoice : Option String) :
    (paidFifty kind invoice).value = 50 := by
  have h : fromMinorUnits 5000 "brl" = 50 := by decide +kernel
  exact h

theorem withDeposit_recorded : (paidFifty .deposit none).Recorded withDeposit where
  nonneg := by decide
  kept := .single rfl (by rw [AppPayment.DepositRow, paidFifty_value])
  tookDays h := by cases h

theorem withPrepayment_recorded : (paidFifty .prepaid none).Recorded withPrepayment where
  nonneg := by decide
  kept := .single rfl ⟨rfl, by rw [paidFifty_value], by rw [paidFifty_value]; decide +kernel⟩
  tookDays h := by cases h

theorem withInvoice_recorded : (paidFifty .club (some "in_1")).Recorded withInvoice where
  nonneg := by decide
  kept := .single rfl (by rw [AppPayment.ClubRow, paidFifty_value]; decide +kernel)
  tookDays h := by cases h

theorem disputeOf_notified {kind : AppPaymentKind} {invoice : Option String} {amount : ℤ}
    (status : DisputeStatus) {retrieved : Option StripeCharge} (hpos : 0 < amount)
    (hle : amount ≤ 5000) (hc : ∀ c ∈ retrieved, c = chargeOfFifty invoice 0) :
    (paidFifty kind invoice).Notified (fun _ => amount)
      (noticeOf (.dispute (disputeOf amount status)) retrieved) := by
  refine ⟨⟨rfl, rfl, rfl, hpos, hle⟩, fun c hat => ?_⟩
  obtain rfl := hc c hat
  exact ⟨rfl, rfl, rfl, rfl, le_rfl, by simp [chargeOfFifty], rfl⟩

/-- The dispute opens; it is lost while the server goes down before it writes anything, and the
event comes again. -/
def lostAndRedelivered : List (Notice × Option ℕ) :=
  let opened := noticeOf (.dispute (disputeOf 2500 .needsResponse)) none
  let lost := noticeOf (.dispute (disputeOf 2500 .lost)) (some (chargeOfFifty none 0))
  [(opened, none), (lost, some 0), (lost, none)]

theorem lostAndRedelivered_applied : ∃ s',
    refundWebhooks.deliveries.run withPrepayment lostAndRedelivered = some s' ∧
      (paidFifty .prepaid none).Applied 2500 s' := by
  have hrun : (refundWebhooks.deliveries.run withPrepayment lostAndRedelivered).isSome := by
    decide +kernel
  obtain ⟨s', hs'⟩ := Option.isSome_iff_exists.1 hrun
  have hdelivered : (paidFifty .prepaid none).Delivered (fun _ => 2500) withPrepayment
      lostAndRedelivered := by
    refine ⟨withPrepayment_recorded, fun _ _ _ _ => rfl, fun n hn => ?_⟩
    simp only [lostAndRedelivered, List.mem_cons, List.not_mem_nil, or_false] at hn
    rcases hn with rfl | rfl | rfl
    · exact disputeOf_notified _ (by decide) (by decide) fun c hc => by cases hc
    · exact disputeOf_notified _ (by decide) (by decide) fun c hc => (Option.some.inj hc).symm
    · exact disputeOf_notified _ (by decide) (by decide) fun c hc => (Option.some.inj hc).symm
  have hfinally : FinallyLost "dp_1" lostAndRedelivered := by
    intro n hn d he _ hclosed
    simp only [lostAndRedelivered, List.mem_cons, List.not_mem_nil, or_false] at hn
    rcases hn with rfl | rfl | rfl
    · obtain rfl := AppEvent.dispute.inj he
      cases hclosed
    · obtain rfl := AppEvent.dispute.inj he
      rfl
    · obtain rfl := AppEvent.dispute.inj he
      rfl
  refine ⟨s', hs', (lost_dispute_applied hdelivered hs').2 (by decide +kernel)
    (disputeOf 2500 .lost) rfl hfinally ?_ (fun h => by cases h)⟩
  exact ⟨_, List.mem_cons_of_mem _ (List.mem_cons_of_mem _ List.mem_cons_self), rfl, rfl⟩

/-- Deliveries of one event about a lost dispute. -/
def lostDeliveries (amount : ℤ) (retrieved : Option StripeCharge) (stops : List (Option ℕ)) :
    List (Notice × Option ℕ) :=
  stops.map fun stop => (noticeOf (.dispute (disputeOf amount .lost)) retrieved, stop)

theorem lostDeliveries_delivered {kind : AppPaymentKind} {invoice : Option String} {amount : ℤ}
    {retrieved : Option StripeCharge} {s : AppBooks} (hs : (paidFifty kind invoice).Recorded s)
    (hfresh : s.disputes = fun _ => none) (hpos : 0 < amount) (hle : amount ≤ 5000)
    (hc : ∀ c ∈ retrieved, c = chargeOfFifty invoice 0) (stops : List (Option ℕ)) :
    (paidFifty kind invoice).Delivered (fun _ => amount) s
      (lostDeliveries amount retrieved stops) where
  recorded := hs
  fresh _ _ _ _ := by rw [hfresh]
  notified n hn := by
    obtain ⟨stop, -, rfl⟩ := List.mem_map.1 hn
    exact disputeOf_notified _ hpos hle hc

theorem lostDeliveries_lost (amount : ℤ) (retrieved : Option StripeCharge)
    {stops : List (Option ℕ)} (hstops : none ∈ stops) :
    FinallyLost "dp_1" (lostDeliveries amount retrieved stops) ∧
      Handler.Handled (fun n : Notice => n.event = .dispute (disputeOf amount .lost))
        (lostDeliveries amount retrieved stops) := by
  constructor
  · intro n hn d he _ _
    obtain ⟨stop, -, rfl⟩ := List.mem_map.1 hn
    obtain rfl := AppEvent.dispute.inj he
    rfl
  · exact ⟨_, List.mem_map.2 ⟨none, hstops, rfl⟩, rfl, rfl⟩

/-- Every lost dispute that was handled to the end has been applied. -/
def LostApplied (p : AppPayment) (ns : List (Notice × Option ℕ)) (s' : AppBooks) : Prop :=
  ∀ d : StripeDispute, d.status = .lost → FinallyLost d.id ns →
    Handler.Handled (fun n : Notice => n.event = .dispute d) ns → p.Applied d.amount s'

/-- A deposit of which a part is disputed; an invoice of the club whose charge Stripe does not give;
a prepayment, when the first delivery stops after the row of the dispute. -/
theorem lost_dispute_missed :
    (∃ s', (paidFifty .deposit none).Delivered (fun _ => 2000) withDeposit
        (lostDeliveries 2000 (some (chargeOfFifty none 0)) [none]) ∧
      refundWebhooks.deliveries.run withDeposit
        (lostDeliveries 2000 (some (chargeOfFifty none 0)) [none]) = some s' ∧
      ¬LostApplied (paidFifty .deposit none)
        (lostDeliveries 2000 (some (chargeOfFifty none 0)) [none]) s') ∧
    (∃ s', (paidFifty .club (some "in_1")).Delivered (fun _ => 5000) withInvoice
        (lostDeliveries 5000 none [none]) ∧
      refundWebhooks.deliveries.run withInvoice (lostDeliveries 5000 none [none]) = some s' ∧
      ¬LostApplied (paidFifty .club (some "in_1")) (lostDeliveries 5000 none [none]) s') ∧
    ∃ s', (paidFifty .prepaid none).Delivered (fun _ => 2500) withPrepayment
        (lostDeliveries 2500 (some (chargeOfFifty none 0)) [some 1, none]) ∧
      refundWebhooks.deliveries.run withPrepayment
        (lostDeliveries 2500 (some (chargeOfFifty none 0)) [some 1, none]) = some s' ∧
      ¬LostApplied (paidFifty .prepaid none)
        (lostDeliveries 2500 (some (chargeOfFifty none 0)) [some 1, none]) s' := by
  have missed : ∀ (p : AppPayment) (amount : ℤ) (retrieved : Option StripeCharge)
      (stops : List (Option ℕ)) (s : AppBooks), none ∈ stops →
      (p.kind ≠ .featured ∧ p.kind ≠ .jobFee) →
      ((refundWebhooks.deliveries.run s (lostDeliveries amount retrieved stops)).any fun s' =>
        decide (p.shown s' < fromMinorUnits amount p.currency)) = true →
      ∃ s', refundWebhooks.deliveries.run s (lostDeliveries amount retrieved stops) = some s' ∧
        ¬LostApplied p (lostDeliveries amount retrieved stops) s' := by
    intro p amount retrieved stops s hstops hkind hrun
    obtain ⟨s', hs', hshort⟩ := (Option.any_eq_true _ _).1 hrun
    refine ⟨s', hs', fun happlied => ?_⟩
    obtain ⟨hfinally, hhandled⟩ := lostDeliveries_lost amount retrieved hstops
    have h := happlied _ rfl hfinally hhandled
    unfold AppPayment.Applied at h
    have hlt := of_decide_eq_true hshort
    cases hk : p.kind with
    | featured => exact hkind.1 hk
    | jobFee => exact hkind.2 hk
    | deposit | prepaid | tip | club =>
      rw [hk] at h
      exact absurd h (not_le.2 hlt)
  have charged : ∀ c ∈ some (chargeOfFifty none 0), c = chargeOfFifty none 0 :=
    fun c hc => (Option.some.inj hc).symm
  refine ⟨?_, ?_, ?_⟩
  · obtain ⟨s', hs', hnot⟩ := missed (paidFifty .deposit none) 2000
      (some (chargeOfFifty none 0)) [none] withDeposit (by decide) (by decide) (by decide +kernel)
    exact ⟨s', lostDeliveries_delivered withDeposit_recorded rfl (by decide) (by decide) charged _,
      hs', hnot⟩
  · obtain ⟨s', hs', hnot⟩ := missed (paidFifty .club (some "in_1")) 5000 none [none]
      withInvoice (by decide) (by decide) (by decide +kernel)
    exact ⟨s', lostDeliveries_delivered withInvoice_recorded rfl (by decide) (by decide)
      (fun c hc => by cases hc) _, hs', hnot⟩
  · obtain ⟨s', hs', hnot⟩ := missed (paidFifty .prepaid none) 2500
      (some (chargeOfFifty none 0)) [some 1, none] withPrepayment (by decide) (by decide)
      (by decide +kernel)
    exact ⟨s', lostDeliveries_delivered withPrepayment_recorded rfl (by decide) (by decide) charged
      _, hs', hnot⟩

end Barbershop
