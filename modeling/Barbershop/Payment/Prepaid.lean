import Barbershop.Payment.Refund

/-!
# What was given back of a prepayment

Calls of `refundPrepayment` on one appointment, side by side. The recorded amount is a stack: a
claim puts its value on top, and an undo takes it off when it is still on top. So the claims that
Stripe has executed or has yet to answer lie apart below the recorded amount, and no request repeats
an executed key. What is recorded is what Stripe gave back plus what is pending, as long as every
amount is a whole number of minor units and every undo finds its claim on top; an undo that does not
find it leaves its value recorded for good.
-/

namespace Barbershop

open Lib

/-- Calls of `refundPrepayment` on one appointment. -/
def prepaymentRefunds (currency : String) (appointmentId : ℕ) :
    CallSystem Payments PrepaymentRefund (Option ℚ) Chance where
  event amount s := some (s, some (.reading amount))
  step k c s := (c.step currency appointmentId k s).map fun r => (r.1, r.2.running)

namespace PrepaymentRefund

/-- The claim a call has made on the row. -/
def claimed : PrepaymentRefund → Option PrepaymentClaim
  | calling c | undoing c => some c
  | _ => none

/-- A call about to undo its claim finds the amount it recorded. -/
def UndoFinds (appointmentId : ℕ) : PrepaymentRefund → Payments → Prop
  | undoing c, s =>
    (s.db.appointments.get? appointmentId).any (·.prepaidRefundedAmount == some c.after) = true
  | _, _ => True

instance (appointmentId : ℕ) : ∀ (c : PrepaymentRefund) (s : Payments),
    Decidable (c.UndoFinds appointmentId s)
  | undoing _, _ => inferInstanceAs (Decidable (_ = true))
  | reading _, _ | claiming _, _ | calling _, _ => inferInstanceAs (Decidable True)

end PrepaymentRefund

/-- An appointment whose prepayment of `n` minor units was approved, and nothing given back. -/
structure Prepaid (currency intentId : String) (appointmentId : ℕ) (n : ℤ) (s : Payments) :
    Prop where
  pos : 0 < n
  charged : s.stripe.charged intentId = n
  refunds : s.stripe.refunds = []
  row : ∃ a, s.db.appointments.get? appointmentId = some a ∧
    a.prepaidPaymentIntentId = some intentId ∧ a.prepaidAmount = some (fromMinorUnits n currency) ∧
    a.prepaidRefundedAt = none ∧ a.prepaidRefundedAmount = none

section Balance

variable (currency intentId : String) (appointmentId : ℕ) (paid : ℚ)

def Payments.recorded (s : Payments) : ℚ :=
  (s.db.appointments.get? appointmentId).elim 0 (·.refunded)

/-- The row, beside Stripe's books, while so much is pending. -/
structure RefundBalance (s : Payments) (pending : ℚ≥0) (a : Appointment) : Prop where
  row : s.db.appointments.get? appointmentId = some a
  intent : a.prepaidPaymentIntentId = some intentId
  amount : a.prepaidAmount = some paid
  minor : IsMinor currency a.refunded
  balance : a.refunded = fromMinorUnits (s.stripe.refunded intentId) currency + pending
  le_paid : a.refunded ≤ paid
  full_iff : a.prepaidRefundedAt.isSome = true ↔ a.refunded = paid
  keys : ∀ k, s.stripe.executed (.prepayment intentId k) = true → (k : ℚ) / 100 ≤ a.refunded
  charged : fromMinorUnits (s.stripe.charged intentId) currency = paid

/-- A claim on the row: it is part of the recorded amount, apart from what Stripe has executed. -/
structure ClaimRecorded (s : Payments) (c : PrepaymentClaim) : Prop where
  valid : c.Valid currency intentId paid
  covered : c.after ≤ s.recorded appointmentId
  apart : ∀ k, s.stripe.executed (.prepayment intentId k) = true →
    (k : ℚ) / 100 ≤ c.before.getD 0 ∨ c.after < (k : ℚ) / 100

/-- Two claims lie apart on the stack. -/
def PrepaymentClaim.Apart (c d : PrepaymentClaim) : Prop :=
  c.after ≤ d.before.getD 0 ∨ d.after ≤ c.before.getD 0

def refundInv : CallInv Payments PrepaymentRefund ℚ≥0 where
  weight r := r.claimed.elim 0 (·.value.toNNRat)
  whole s pending := ∃ a, RefundBalance currency intentId appointmentId paid s pending a
  each s
    | .reading amount => PrepaymentRefund.Whole currency amount
    | .claiming c => c.Valid currency intentId paid
    | .calling c | .undoing c => ClaimRecorded currency intentId appointmentId paid s c
  pair r r' := ∀ c ∈ r.claimed, ∀ d ∈ r'.claimed, c.Apart d
  symm h c hc d hd := (h d hd c hc).symm

end Balance

section Steps

variable {currency intentId : String} {appointmentId : ℕ} {paid : ℚ} {s : Payments}
  {pending : ℚ≥0} {a : Appointment} {c : PrepaymentClaim} {k : Chance}

theorem RefundBalance.recorded (h : RefundBalance currency intentId appointmentId paid s pending a) :
    s.recorded appointmentId = a.refunded := by
  simp [Payments.recorded, h.row]

/-- A claim that was recorded before and is covered still. -/
theorem ClaimRecorded.of_covered {s' : Payments}
    (h : ClaimRecorded currency intentId appointmentId paid s c)
    (hstripe : s'.stripe = s.stripe) (hcov : c.after ≤ s'.recorded appointmentId) :
    ClaimRecorded currency intentId appointmentId paid s' c where
  valid := h.valid
  covered := hcov
  apart := hstripe ▸ h.apart

/-- A claim that finds the amount it read goes on top. -/
theorem claim_keeps (h : c.Valid currency intentId paid) {db : Db}
    (hclaim : PrepaymentRefund.claim appointmentId c k.now s.db = some db) :
    (refundInv currency intentId appointmentId paid).Keeps s (some (.claiming c))
      ({ s with db := db }, some (.calling c)) := by
  obtain ⟨a, ha, hp, hget, -⟩ := Db.updateAppointmentWhere_some hclaim
  simp only [Bool.and_eq_true, beq_iff_eq] at hp
  obtain ⟨-, hbefore⟩ := hp
  have htop : a.refunded = c.before.getD 0 := by rw [Appointment.refunded, hbefore]
  rintro m ⟨a', hbal⟩ -
  obtain rfl : a' = a := Option.some.inj (hbal.row.symm.trans ha)
  have hrec : ({ s with db := db } : Payments).recorded appointmentId = c.after := by
    simp [Payments.recorded, hget, Appointment.refunded]
  have hup : s.recorded appointmentId ≤ ({ s with db := db } : Payments).recorded appointmentId := by
    rw [hrec, hbal.recorded, htop]
    exact h.before_lt.le
  refine ⟨?_, ?_, ?_, ?_⟩
  · exact ⟨_, {
      row := hget
      intent := hbal.intent
      amount := hbal.amount
      minor := h.after_minor
      balance := by
        have hb := hbal.balance
        simp only [refundInv, CallInv.weigh_some, PrepaymentRefund.claimed, Option.elim_none,
          zero_add] at hb
        simp only [Appointment.refunded, Option.getD_some, refundInv, CallInv.weigh_some,
          PrepaymentRefund.claimed, Option.elim_some, NNRat.coe_add, h.value_coe]
        rw [h.after_eq, ← htop, hb]
        ring
      le_paid := h.after_le
      full_iff := by
        cases hf : c.full with
        | true => simpa [Appointment.refunded] using h.full_iff.1 hf
        | false =>
          have : c.after ≠ paid := fun e => by simp [h.full_iff.2 e] at hf
          simpa [Appointment.refunded] using this
      keys := fun k hk => (hbal.keys k hk).trans (htop ▸ h.before_lt.le)
      charged := hbal.charged }⟩
  · rintro _ ⟨⟩
    exact {
      valid := h
      covered := hrec.ge
      apart := fun k hk => .inl (htop ▸ hbal.keys k hk) }
  · intro d hd _
    cases d with
    | reading amount => exact hd
    | claiming d => exact hd
    | calling d | undoing d => exact hd.of_covered rfl (hd.covered.trans hup)
  · rintro d hd - _ ⟨⟩ x ⟨⟩ y hy
    cases d with
    | reading amount => cases hy
    | claiming d => cases hy
    | calling d | undoing d =>
      obtain rfl := Option.some.inj hy
      exact .inr (htop ▸ hbal.recorded ▸ hd.covered)

/-- A read that finds something to give back plans a valid claim. -/
theorem read_keeps {amount : Option ℚ}
    (hread : PrepaymentRefund.read appointmentId amount s.db = .ok (some c)) :
    (refundInv currency intentId appointmentId paid).Keeps s (some (.reading amount))
      (s, some (.claiming c)) := by
  rintro m ⟨a, hbal⟩ hwhole
  obtain ⟨a', id, ha', hid, -, -, -, hplan⟩ := PrepaymentRefund.read_ok hread
  obtain rfl : a' = a := Option.some.inj (ha'.symm.trans hbal.row)
  obtain rfl : id = intentId := Option.some.inj (hid.symm.trans hbal.intent)
  have hpaid : IsMinor currency paid := hbal.charged ▸ isMinor_fromMinorUnits ..
  obtain ⟨hvalid, -⟩ := PrepaymentRefund.plan_valid hplan (hwhole _ rfl)
    (by rw [hbal.amount, Option.getD_some]) hpaid hbal.minor
  refine .stay ⟨a', hbal⟩ rfl ?_ ?_
  · rintro _ ⟨⟩
    exact hvalid
  · rintro d - _ ⟨⟩ x ⟨⟩

/-- No executed refund has the key of a claim that Stripe has yet to answer. -/
theorem ClaimRecorded.not_executed (h : ClaimRecorded currency intentId appointmentId paid s c) :
    s.stripe.executed (PrepaymentRefund.request currency c).key = false := by
  rw [Bool.eq_false_iff]
  intro hk
  simp only [PrepaymentRefund.request, h.valid.intent] at hk
  have hcents := h.valid.after_minor.isCents.cents_div
  rcases h.apart _ hk with hle | hlt
  · exact absurd (hcents ▸ hle) (not_le.2 h.valid.before_lt)
  · exact absurd (hcents ▸ hlt) (lt_irrefl _)

/-- Stripe executes the request of a claim. -/
theorem accept_keeps : (refundInv currency intentId appointmentId paid).Keeps s (some (.calling c))
    ({ s with stripe := s.stripe.execute (PrepaymentRefund.request currency c) }, none) := by
  rintro m ⟨a, hbal⟩ hc
  have hrec : ClaimRecorded currency intentId appointmentId paid s c := hc _ rfl
  have hvalid := hrec.valid
  have hcents := hvalid.after_minor.isCents.cents_div
  have hkeys : ∀ k, (s.stripe.execute (PrepaymentRefund.request currency c)).executed
      (.prepayment intentId k) = true → s.stripe.executed (.prepayment intentId k) = true ∨
        (k : ℚ) / 100 = c.after := by
    intro k hk
    refine (Stripe.executed_execute.1 hk).imp_right fun e => ?_
    simp only [PrepaymentRefund.request, RefundKey.prepayment.injEq] at e
    rw [← e.2, hcents]
  have hrefunded : fromMinorUnits ((s.stripe.execute (PrepaymentRefund.request currency c)).refunded
      intentId) currency = fromMinorUnits (s.stripe.refunded intentId) currency + c.value := by
    have hminor := hvalid.value_minor
    rw [Stripe.refunded_execute hrec.not_executed rfl
      (hminor.toMinorUnits_pos hvalid.value_pos).ne', fromMinorUnits_add,
      if_pos (show (PrepaymentRefund.request currency c).intentId = intentId from hvalid.intent),
      hminor]
  refine ⟨?_, ?_, ?_, ?_⟩
  · exact ⟨a, {
      row := hbal.row
      intent := hbal.intent
      amount := hbal.amount
      minor := hbal.minor
      balance := by
        have hb := hbal.balance
        simp only [refundInv, CallInv.weigh_some, PrepaymentRefund.claimed, Option.elim_some,
          NNRat.coe_add, hvalid.value_coe] at hb
        simp only [hrefunded, CallInv.weigh_none, zero_add]
        linarith
      le_paid := hbal.le_paid
      full_iff := hbal.full_iff
      keys := by
        intro k hk
        rcases hkeys k hk with hk | hk
        · exact hbal.keys k hk
        · exact hk ▸ hbal.recorded ▸ hrec.covered
      charged := by simpa [Stripe.charged] using hbal.charged }⟩
  · rintro _ ⟨⟩
  · intro d hd hpair
    cases d with
    | reading amount => exact hd
    | claiming d => exact hd
    | calling d | undoing d =>
      refine ⟨hd.valid, hd.covered, fun k hk => ?_⟩
      rcases hkeys k hk with hk | hk
      · exact hd.apart k hk
      · rcases hpair _ rfl c rfl d rfl with hle | hle
        · exact .inl (hk ▸ hle)
        · exact .inr (hk ▸ hle.trans_lt hvalid.before_lt)
  · rintro d - - _ ⟨⟩

/-- A claim is pending, so the charge has not gone back whole. -/
theorem not_alreadyRefunded
    (hbal : RefundBalance currency intentId appointmentId paid s (c.value.toNNRat + pending) a)
    (hvalid : c.Valid currency intentId paid) :
    ¬s.stripe.charged c.intentId ≤ s.stripe.refunded c.intentId := by
  intro h
  rw [hvalid.intent, ← @fromMinorUnits_le _ _ currency, hbal.charged] at h
  have hb := hbal.balance
  rw [NNRat.coe_add, hvalid.value_coe] at hb
  have := hbal.le_paid
  have := hvalid.value_pos
  have : (0 : ℚ) ≤ pending := NNRat.coe_nonneg pending
  linarith

/-- An undo that finds its claim takes it off the top. -/
theorem undo_keeps (hfinds : (PrepaymentRefund.undoing c).UndoFinds appointmentId s) :
    (refundInv currency intentId appointmentId paid).Keeps s (some (.undoing c))
      ({ s with db := PrepaymentRefund.undo appointmentId c s.db }, none) := by
  rintro m ⟨a, hbal⟩ hc
  have hrec : ClaimRecorded currency intentId appointmentId paid s c := hc _ rfl
  have hvalid := hrec.valid
  have hfound : (a.prepaidRefundedAmount == some c.after) = true := by
    simpa [PrepaymentRefund.UndoFinds, hbal.row] using hfinds
  have htop : a.refunded = c.after := by
    rw [Appointment.refunded, beq_iff_eq.1 hfound, Option.getD_some]
  obtain ⟨hget, -⟩ := Db.updateAppointmentWhere_getD (f := fun a =>
      { a with prepaidRefundedAmount := c.before, prepaidRefundedAt := none })
    (p := fun a => a.prepaidRefundedAmount == some c.after) hbal.row
  rw [if_pos hfound] at hget
  have hundone : Payments.recorded appointmentId
      { s with db := PrepaymentRefund.undo appointmentId c s.db } = c.before.getD 0 := by
    unfold Payments.recorded PrepaymentRefund.undo
    rw [hget]
    rfl
  refine ⟨?_, ?_, ?_, ?_⟩
  · exact ⟨_, {
      row := hget
      intent := hbal.intent
      amount := hbal.amount
      minor := hvalid.before_minor
      balance := by
        have hb := hbal.balance
        simp only [refundInv, CallInv.weigh_some, PrepaymentRefund.claimed, Option.elim_some,
          NNRat.coe_add, hvalid.value_coe, htop, hvalid.after_eq] at hb
        simp only [CallInv.weigh_none, zero_add, Appointment.refunded]
        linarith
      le_paid := hvalid.before_lt.le.trans hvalid.after_le
      full_iff := by
        have : c.before.getD 0 ≠ paid := (hvalid.before_lt.trans_le hvalid.after_le).ne
        simpa [Appointment.refunded] using this
      keys := by
        intro k hk
        rcases hrec.apart k hk with hle | hlt
        · exact hle
        · exact absurd (htop ▸ hbal.keys k hk) (not_le.2 hlt)
      charged := hbal.charged }⟩
  · rintro _ ⟨⟩
  · intro d hd hpair
    cases d with
    | reading amount => exact hd
    | claiming d => exact hd
    | calling d | undoing d =>
      refine hd.of_covered rfl (hundone ▸ ?_)
      rcases hpair _ rfl c rfl d rfl with hle | hle
      · have hcov : d.after ≤ c.after := htop ▸ hbal.recorded ▸ hd.covered
        exact absurd (hle.trans_lt (hd.valid.before_lt.trans_le hcov)) (lt_irrefl _)
      · exact hle
  · rintro d - - _ ⟨⟩

/-- A call that ends before it has claimed anything. -/
theorem quit_keeps {r : PrepaymentRefund} (hr : r.claimed = none) :
    (refundInv currency intentId appointmentId paid).Keeps s (some r) (s, none) := by
  intro m h _
  refine .stay h ?_ (by simp) (by simp)
  simp [refundInv, hr]

/-- A new request names a whole number of minor units. -/
theorem begin_keeps {amount : Option ℚ} (h : PrepaymentRefund.Whole currency amount) :
    (refundInv currency intentId appointmentId paid).Keeps s none (s, some (.reading amount)) := by
  intro m hm _
  refine .stay hm rfl ?_ ?_
  · rintro _ ⟨⟩
    exact h
  · rintro d - _ ⟨⟩ x ⟨⟩

theorem refund_keeps {r : PrepaymentRefund} {out : Payments × Option PrepaymentRefund}
    (hfinds : r.UndoFinds appointmentId s)
    (h : (prepaymentRefunds currency appointmentId).step k r s = some out) :
    (refundInv currency intentId appointmentId paid).Keeps s (some r) out := by
  obtain ⟨⟨s', p⟩, hstep, rfl⟩ := Option.map_eq_some_iff.1 h
  cases r with
  | reading amount =>
    simp only [PrepaymentRefund.step] at hstep
    split at hstep
    · cases hstep
      exact quit_keeps rfl
    · cases hstep
      exact quit_keeps rfl
    · next hread =>
      cases hstep
      exact read_keeps hread
  | claiming c =>
    simp only [PrepaymentRefund.step] at hstep
    split at hstep
    · cases hstep
      exact quit_keeps rfl
    · next hclaim =>
      cases hstep
      intro m hm hc
      exact claim_keeps (hc _ rfl) hclaim m hm hc
  | calling c =>
    simp only [PrepaymentRefund.step, Option.map_eq_some_iff] at hstep
    obtain ⟨t, hanswer, hout⟩ := hstep
    cases hout
    rcases Stripe.createRefund_ok hanswer with ⟨ha, rfl⟩ | ⟨ha, hrefunded, rfl⟩ | ⟨ha, rfl⟩
    · rw [ha]
      exact accept_keeps
    · rintro m ⟨a, hbal⟩ hc
      have hrec : ClaimRecorded currency intentId appointmentId paid s c := hc _ rfl
      exact absurd hrefunded (not_alreadyRefunded hbal hrec.valid)
    · rw [ha]
      intro m hm hc
      refine .stay hm rfl ?_ ?_
      · rintro _ ⟨⟩
        exact hc (.calling c) rfl
      · rintro d hd _ ⟨⟩
        exact hd (.calling c) rfl
  | undoing c =>
    cases hstep
    exact undo_keeps hfinds

end Steps

theorem Prepaid.balance {currency intentId : String} {appointmentId : ℕ} {n : ℤ} {s : Payments}
    (h : Prepaid currency intentId appointmentId n s) : ∃ a,
    RefundBalance currency intentId appointmentId (fromMinorUnits n currency) s 0 a := by
  obtain ⟨a, hrow, hintent, hamount, hat, hrefunded⟩ := h.row
  have hzero : a.refunded = 0 := by simp [Appointment.refunded, hrefunded]
  have hpaid : 0 < fromMinorUnits n currency := by
    rw [← not_le, ← fromMinorUnits_zero currency, fromMinorUnits_le]
    exact not_le.2 h.pos
  exact ⟨a, {
    row := hrow
    intent := hintent
    amount := hamount
    minor := hzero ▸ isMinor_zero currency
    balance := by simp [hzero, Stripe.refunded, h.refunds]
    le_paid := hzero ▸ hpaid.le
    full_iff := by simp [hat, hzero, hpaid.ne]
    keys := by simp [Stripe.executed, h.refunds]
    charged := by rw [h.charged] }⟩

/-- In every run whose refunds name whole minor units and whose undos find their claims, no more is
recorded than was paid; and when all calls have finished, what is recorded is what Stripe gave back,
and the prepayment is marked as refunded exactly when that is all of it. -/
theorem prepaymentRefunds_balanced {currency intentId : String} {appointmentId : ℕ} {n : ℤ}
    {s : Payments} (hprepaid : Prepaid currency intentId appointmentId n s)
    {moves : List (Move (Option ℚ) Chance)} {x : Calls Payments PrepaymentRefund}
    (hmeets : (prepaymentRefunds currency appointmentId).machine.Meets
      (CallSystem.When (fun amount _ => PrepaymentRefund.Whole currency amount)
        fun _ r s => r.UndoFinds appointmentId s) (.idle s) moves)
    (hrun : (prepaymentRefunds currency appointmentId).machine.run (.idle s) moves = some x) :
    ∃ a, x.shared.db.appointments.get? appointmentId = some a ∧
      a.prepaidAmount = some (fromMinorUnits n currency) ∧
      a.refunded ≤ fromMinorUnits n currency ∧
      (x.quiet = true →
        a.refunded = fromMinorUnits (x.shared.stripe.refunded intentId) currency ∧
        (a.prepaidRefundedAt.isSome = true ↔ x.shared.stripe.refunded intentId = n)) := by
  have hinv := CallInv.Holds.run (I := refundInv currency intentId appointmentId _)
    (fun hwhole h => by cases h; exact begin_keeps hwhole) (fun hfinds h => refund_keeps hfinds h)
    (CallInv.holds_idle hprepaid.balance) hmeets hrun
  obtain ⟨a, hbal⟩ := hinv.whole
  refine ⟨a, hbal.row, hbal.amount, hbal.le_paid, fun hq => ?_⟩
  obtain ⟨a', hrest⟩ := hinv.quiet hq
  obtain rfl : a' = a := Option.some.inj (hrest.row.symm.trans hbal.row)
  have hbalance := hrest.balance
  rw [NNRat.coe_zero, add_zero] at hbalance
  refine ⟨hbalance, ?_⟩
  rw [hrest.full_iff, hbalance, le_antisymm_iff, le_antisymm_iff, fromMinorUnits_le,
    fromMinorUnits_le]

theorem prepaidVisit_prepaid : Prepaid "BRL" "pi_1" 1 10000 prepaidVisit where
  pos := by decide
  charged := by decide +kernel
  refunds := rfl
  row := ⟨_, rfl, rfl, by decide +kernel, rfl, rfl⟩

/-- A refund of thirty that Stripe refuses and one of the rest that it accepts. -/
def refusedThenAccepted : List (Move (Option ℚ) Chance) :=
  [.event (some 30), .step 1 (chance 1 .accepted), .step 1 (chance 1 .accepted),
    .step 1 (chance 2 .rejected), .step 1 (chance 3 .accepted),
    .event none, .step 2 (chance 4 .accepted), .step 2 (chance 4 .accepted),
    .step 2 (chance 5 .accepted)]

theorem refusedThenAccepted_balanced : ∃ x,
    (prepaymentRefunds "BRL" 1).machine.run (.idle prepaidVisit) refusedThenAccepted = some x ∧
      ∃ a, x.shared.db.appointments.get? 1 = some a ∧ a.prepaidAmount = some 100 ∧
        a.refunded = fromMinorUnits (x.shared.stripe.refunded "pi_1") "BRL" ∧
        (a.prepaidRefundedAt.isSome = true ↔ x.shared.stripe.refunded "pi_1" = 10000) := by
  have hmeets : (prepaymentRefunds "BRL" 1).machine.Meets
      (CallSystem.When (fun amount _ => PrepaymentRefund.Whole "BRL" amount)
        fun _ r s => r.UndoFinds 1 s) (.idle prepaidVisit) refusedThenAccepted := by
    decide +kernel
  have hsome : ((prepaymentRefunds "BRL" 1).machine.run (.idle prepaidVisit)
      refusedThenAccepted).any (·.quiet) = true := by
    decide +kernel
  obtain ⟨x, hx, hq⟩ := (Option.any_eq_true _ _).1 hsome
  obtain ⟨a, hrow, hamount, -, hrest⟩ :=
    prepaymentRefunds_balanced prepaidVisit_prepaid hmeets hx
  have hpaid : fromMinorUnits 10000 "BRL" = 100 := by decide +kernel
  exact ⟨x, hx, a, hrow, hpaid ▸ hamount, hrest hq⟩

/-- A refund of thirty, and one of twenty that claims on top of it before Stripe refuses the
first. -/
def claimedOnTop : List (Move (Option ℚ) Chance) :=
  [.event (some 30), .step 1 (chance 1 .accepted), .step 1 (chance 1 .accepted),
    .event (some 20), .step 2 (chance 2 .accepted), .step 2 (chance 2 .accepted),
    .step 1 (chance 3 .rejected), .step 1 (chance 4 .accepted), .step 2 (chance 5 .accepted)]

/-- The undo of the first does not find its amount: fifty are recorded, twenty were given back. -/
theorem claimedOnTop_recorded : ∃ x,
    (prepaymentRefunds "BRL" 1).machine.run (.idle prepaidVisit) claimedOnTop = some x ∧
      x.quiet = true ∧ ∃ a, x.shared.db.appointments.get? 1 = some a ∧ a.refunded = 50 ∧
        fromMinorUnits (x.shared.stripe.refunded "pi_1") "BRL" = 20 := by
  have hrun : ((prepaymentRefunds "BRL" 1).machine.run (.idle prepaidVisit) claimedOnTop).any
      (fun x => x.quiet && (x.shared.db.appointments.get? 1).any (·.refunded == 50) &&
        fromMinorUnits (x.shared.stripe.refunded "pi_1") "BRL" == 20) = true := by
    decide +kernel
  obtain ⟨x, hx, hout⟩ := (Option.any_eq_true _ _).1 hrun
  simp only [Bool.and_eq_true, beq_iff_eq, Option.any_eq_true] at hout
  obtain ⟨⟨hq, a, ha, hrecorded⟩, hback⟩ := hout
  exact ⟨x, hx, hq, a, ha, hrecorded, hback⟩

/-- The visit with a hundred yen paid by app. -/
def yenVisit : Payments :=
  .ofVisit { visit with
    prepaidPaymentIntentId := some "pi_1"
    prepaidAt := some 0
    prepaidAmount := some 100 } "pi_1" 100

/-- A refund of a fraction of a yen. -/
def fractionOfYen : List (Move (Option ℚ) Chance) :=
  [.event (some (2 / 5)), .step 1 (chance 1 .accepted), .step 1 (chance 1 .accepted),
    .step 1 (chance 2 .accepted)]

/-- In a currency without decimals the fraction is sent as zero, and Stripe gives everything back. -/
theorem fractionOfYen_refunds_all : ∃ x,
    (prepaymentRefunds "JPY" 1).machine.run (.idle yenVisit) fractionOfYen = some x ∧
      x.quiet = true ∧ ∃ a, x.shared.db.appointments.get? 1 = some a ∧ a.refunded = 2 / 5 ∧
        a.prepaidRefundedAt = none ∧ x.shared.stripe.refunded "pi_1" = 100 := by
  have hrun : ((prepaymentRefunds "JPY" 1).machine.run (.idle yenVisit) fractionOfYen).any
      (fun x => x.quiet && (x.shared.db.appointments.get? 1).any (fun a =>
        a.refunded == 2 / 5 && a.prepaidRefundedAt == none) &&
          x.shared.stripe.refunded "pi_1" == 100) = true := by
    decide +kernel
  obtain ⟨x, hx, hout⟩ := (Option.any_eq_true _ _).1 hrun
  simp only [Bool.and_eq_true, beq_iff_eq, Option.any_eq_true] at hout
  obtain ⟨⟨hq, a, ha, hrecorded, hat⟩, hback⟩ := hout
  exact ⟨x, hx, hq, a, ha, hrecorded, hat, hback⟩

end Barbershop
