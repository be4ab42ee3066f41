import Barbershop.Payment.Bill
import Barbershop.Service
import Mathlib.Algebra.Group.Prod

/-!
# A payment made in advance is used once

`createSale`, `refundOnlineDeposit` and `refundPrepayment` on one appointment, side by side. The
sale takes off what it read as paid, the refunds claim what no sale had taken off when they looked,
and neither write asks again. The money is used once in the runs in which no refund is claimed on an
appointment that has a sale, and in which a sale that commits has read no more than is there still.
-/

namespace Barbershop

open Lib

inductive PaymentCall where
  | deposit (c : DepositRefund)
  | prepayment (c : PrepaymentRefund)
  | billing (c : Billing)

inductive PaymentRequest where
  | refundOnlineDeposit
  | refundPrepayment (amount : Option ℚ)
  | createSale (c : SaleCall)

def PaymentRequest.call : PaymentRequest → PaymentCall
  | refundOnlineDeposit => .deposit .reading
  | refundPrepayment amount => .prepayment (.reading amount)
  | createSale c => .billing (.reading c)

def PaymentCall.step (currency : String) (appointmentId : ℕ) (k : Chance) (c : PaymentCall)
    (s : Payments) : Option (Payments × Option PaymentCall) :=
  match c with
  | deposit c => (c.step appointmentId k s).map fun r => (r.1, r.2.running.map deposit)
  | prepayment c =>
    (c.step currency appointmentId k s).map fun r => (r.1, r.2.running.map prepayment)
  | billing c => some ((c.step s).1, (c.step s).2.running.map billing)

/-- The three calls on one appointment. -/
def paymentCalls (currency : String) (appointmentId : ℕ) :
    CallSystem Payments PaymentCall PaymentRequest Chance where
  event r s := some (s, some r.call)
  step k c s := c.step currency appointmentId k s

/-- A refund names a whole number of minor units. -/
def PaymentRequest.Whole (currency : String) : PaymentRequest → Prop
  | refundPrepayment amount => PrepaymentRefund.Whole currency amount
  | _ => True

instance (currency : String) : ∀ r : PaymentRequest, Decidable (r.Whole currency)
  | .refundPrepayment amount => inferInstanceAs (Decidable (PrepaymentRefund.Whole currency amount))
  | .refundOnlineDeposit | .createSale _ => inferInstanceAs (Decidable True)

/-- What was read as paid is there still. -/
def StillPaid (appointmentId : ℕ) (seen db : Db) : Prop :=
  ∀ a ∈ seen.appointments.get? appointmentId, ∀ b ∈ db.appointments.get? appointmentId,
    a.deposit ≤ b.deposit ∧ a.prepaid ≤ b.prepaid

instance (appointmentId : ℕ) (seen db : Db) : Decidable (StillPaid appointmentId seen db) := by
  unfold StillPaid
  infer_instance

/-- A refund is claimed while the appointment has no sale, and a sale commits on what is paid. -/
def PaymentCall.Timely (appointmentId : ℕ) : PaymentCall → Payments → Prop
  | deposit (.claiming _), s | prepayment (.claiming _), s => s.db.billed appointmentId = false
  | billing (.committing _ seen _), s => StillPaid appointmentId seen s.db
  | _, _ => True

instance (appointmentId : ℕ) : ∀ (c : PaymentCall) (s : Payments),
    Decidable (c.Timely appointmentId s)
  | .deposit (.claiming _), _ | .prepayment (.claiming _), _ =>
    inferInstanceAs (Decidable (_ = false))
  | .billing (.committing _ _ _), _ => inferInstanceAs (Decidable (StillPaid _ _ _))
  | .deposit .reading, _ | .deposit (.calling ..), _ | .deposit (.undoing ..), _
  | .prepayment (.reading _), _ | .prepayment (.calling _), _ | .prepayment (.undoing _), _
  | .billing (.reading _), _ | .billing (.canceling ..), _ | .billing (.checking ..), _ =>
    inferInstanceAs (Decidable True)

/-- An appointment not billed, with what was paid for it not given back: its intents, and the
amount of the prepayment. -/
structure UnspentVisit (currency depositIntent prepaidIntent : String) (appointmentId : ℕ) (paid : ℚ)
    (s : Payments) (a : Appointment) : Prop where
  row : s.db.appointments.get? appointmentId = some a
  ne : depositIntent ≠ prepaidIntent
  deposit_intent : ∀ id ∈ a.depositPaymentIntentId, id = depositIntent
  prepaid_intent : ∀ id ∈ a.prepaidPaymentIntentId, id = prepaidIntent
  amount : a.prepaidAmount.getD 0 = paid
  nonneg : 0 ≤ paid
  minor : IsMinor currency paid
  deposit_kept : a.depositRefundedAt = none
  prepaid_kept : a.prepaidRefundedAmount = none
  refunds : s.stripe.refunds = []
  unbilled : s.db.billed appointmentId = false

section Spent

variable (currency depositIntent prepaidIntent : String) (appointmentId : ℕ) (paid : ℚ)

/-- What a sale of the appointment took off was not given back. -/
structure TakenOff (a : Appointment) (sale : Sale) : Prop where
  deposit : sale.depositApplied.isSome = true → a.depositRefundedAt = none
  prepaid : sale.prepaidApplied.getD 0 + a.refunded ≤ paid

/-- The row, beside Stripe's books and the sales; pending are the values of prepayment claims and
the number of deposit claims. -/
structure SpentOnce (s : Payments) (pending : ℚ≥0 × ℕ) (a : Appointment) : Prop where
  row : s.db.appointments.get? appointmentId = some a
  deposit_intent : ∀ id ∈ a.depositPaymentIntentId, id = depositIntent
  prepaid_intent : ∀ id ∈ a.prepaidPaymentIntentId, id = prepaidIntent
  amount : a.prepaidAmount.getD 0 = paid
  one_claim : pending.2 ≤ 1
  claimed : pending.2 ≠ 0 → a.depositRefundedAt.isSome = true
  paid_kept : a.depositPaid = true → a.depositRefundedAt = none
  executed : s.stripe.executed (.deposit depositIntent) = true →
    a.depositRefundedAt.isSome = true ∧ pending.2 = 0
  count : s.stripe.refundCount depositIntent ≤
    if s.stripe.executed (.deposit depositIntent) = true then 1 else 0
  minor : IsMinor currency a.refunded
  le_paid : a.refunded ≤ paid
  given : fromMinorUnits (s.stripe.refunded prepaidIntent) currency + pending.1 ≤ a.refunded
  sales : ∀ k sale, s.db.sales.get? k = some sale → sale.appointmentId = some appointmentId →
    TakenOff paid a sale

/-- What a call has claimed: the value of a prepayment, or one deposit. -/
def PaymentCall.claims : PaymentCall → ℚ≥0 × ℕ
  | deposit (.calling ..) | deposit (.undoing ..) => (0, 1)
  | prepayment (.calling c) | prepayment (.undoing c) => (c.value.toNNRat, 0)
  | _ => 0

def onceInv : CallInv Payments PaymentCall (ℚ≥0 × ℕ) where
  weight := PaymentCall.claims
  whole s pending := ∃ a,
    SpentOnce currency depositIntent prepaidIntent appointmentId paid s pending a
  each _
    | .deposit .reading | .billing (.reading _) | .billing (.canceling ..)
    | .billing (.checking ..) => True
    | .deposit (.claiming id) | .deposit (.calling id _) | .deposit (.undoing id _) =>
      id = depositIntent
    | .prepayment (.reading amount) => PrepaymentRefund.Whole currency amount
    | .prepayment (.claiming c) | .prepayment (.calling c) | .prepayment (.undoing c) =>
      c.Valid currency prepaidIntent paid
    | .billing (.committing _ seen plan) => plan.From seen

end Spent

section Steps

variable {currency depositIntent prepaidIntent : String} {appointmentId : ℕ} {paid : ℚ}
  {s : Payments} {k : Chance} {a : Appointment} {m : ℚ≥0 × ℕ}

/-- The facts about a call do not depend on the shared state, so a move owes what it does to the
row, and what its own call has become. -/
theorem onceInv_kept {c c' : Option PaymentCall} {s' : Payments}
    (hwhole : (onceInv currency depositIntent prepaidIntent appointmentId paid).whole s'
      ((onceInv currency depositIntent prepaidIntent appointmentId paid).weigh c' + m))
    (hmine : ∀ b ∈ c', (onceInv currency depositIntent prepaidIntent appointmentId paid).each s' b) :
    (onceInv currency depositIntent prepaidIntent appointmentId paid).Kept s c m s' c' where
  whole := hwhole
  mine := hmine
  others d hd _ := by
    rcases d with (_ | _ | _ | _) | (_ | _ | _ | _) | (_ | _ | _ | _) <;> exact hd
  apart _ _ _ _ _ := trivial

/-- An appointment without a sale owes nothing to its sales. -/
theorem sales_of_unbilled (h : s.db.billed appointmentId = false) {P : Sale → Prop} (j : ℕ)
    (sale : Sale) (hj : s.db.sales.get? j = some sale)
    (hsale : sale.appointmentId = some appointmentId) : P sale := by
  have := Table.any_eq_false.1 h j sale hj
  simp [hsale] at this

namespace SpentOnce

/-- Only the executed refunds of Stripe's books matter. -/
theorem of_refunds (h : SpentOnce currency depositIntent prepaidIntent appointmentId paid s m a)
    {t : Stripe} (ht : t.refunds = s.stripe.refunds) :
    SpentOnce currency depositIntent prepaidIntent appointmentId paid { s with stripe := t } m a where
  row := h.row
  deposit_intent := h.deposit_intent
  prepaid_intent := h.prepaid_intent
  amount := h.amount
  one_claim := h.one_claim
  claimed := h.claimed
  paid_kept := h.paid_kept
  executed := by simpa [Stripe.executed, ht] using h.executed
  count := by simpa [Stripe.executed, Stripe.refundCount, ht] using h.count
  minor := h.minor
  le_paid := h.le_paid
  given := by simpa [Stripe.refunded, ht] using h.given
  sales := h.sales

/-- A deposit that no sale has taken off is claimed: nothing was claimed or executed. -/
theorem claimDeposit (h : SpentOnce currency depositIntent prepaidIntent appointmentId paid s m a)
    (hunbilled : s.db.billed appointmentId = false) {id : String} {db : Db}
    (hclaim : DepositRefund.claim appointmentId id k.now s.db = some db) :
    SpentOnce currency depositIntent prepaidIntent appointmentId paid { s with db := db }
      ((0, 1) + m) { a with depositPaid := false, depositRefundedAt := some k.now } := by
  obtain ⟨b, hb, hp, hget, hsales⟩ := Db.updateAppointmentWhere_some hclaim
  obtain rfl : b = a := Option.some.inj (hb.symm.trans h.row)
  simp only [Bool.and_eq_true, beq_iff_eq] at hp
  obtain ⟨⟨-, hkept⟩, -⟩ := hp
  have hnone : m.2 = 0 := by
    by_contra hne
    simpa [hkept] using h.claimed hne
  exact {
    row := hget
    deposit_intent := h.deposit_intent
    prepaid_intent := h.prepaid_intent
    amount := h.amount
    one_claim := by simp [hnone]
    claimed := fun _ => rfl
    paid_kept := fun hpaid => by cases hpaid
    executed := fun hex => by simpa [hkept] using (h.executed hex).1
    count := h.count
    minor := h.minor
    le_paid := h.le_paid
    given := by simpa [Appointment.refunded] using h.given
    sales := fun j sale hj hsale =>
      sales_of_unbilled hunbilled j sale (by simpa [hsales] using hj) hsale }

/-- Stripe executes the refund of the claimed deposit. -/
theorem refundDeposit (hne : depositIntent ≠ prepaidIntent)
    (h : SpentOnce currency depositIntent prepaidIntent appointmentId paid s ((0, 1) + m) a) :
    SpentOnce currency depositIntent prepaidIntent appointmentId paid
      { s with stripe := s.stripe.execute (DepositRefund.request depositIntent) } m a := by
  have hnone : m.2 = 0 := by
    have := h.one_claim
    simp only [Prod.snd_add] at this
    omega
  have hsome : a.depositRefundedAt.isSome = true := h.claimed (by simp)
  have hnew : s.stripe.executed (.deposit depositIntent) = false := by
    rw [Bool.eq_false_iff]
    intro hex
    simpa using (h.executed hex).2
  exact {
    row := h.row
    deposit_intent := h.deposit_intent
    prepaid_intent := h.prepaid_intent
    amount := h.amount
    one_claim := by simp [hnone]
    claimed := fun _ => hsome
    paid_kept := h.paid_kept
    executed := fun _ => ⟨hsome, hnone⟩
    count := by
      have hcount := h.count
      have hex : (s.stripe.execute (DepositRefund.request depositIntent)).executed
          (.deposit depositIntent) = true := Stripe.executed_execute.2 (.inr rfl)
      rw [Stripe.refundCount_execute, if_pos hex]
      rw [hnew, if_neg Bool.false_ne_true] at hcount
      split <;> omega
    minor := h.minor
    le_paid := h.le_paid
    given := by
      have hgiven := h.given
      simp only [Prod.fst_add, zero_add] at hgiven
      rwa [Stripe.refunded_execute_of_ne (show (DepositRefund.request depositIntent).intentId ≠ _
        from hne)]
    sales := h.sales }

/-- A claimed deposit is settled without a refund, and the row is as it was. -/
theorem dropDeposit
    (h : SpentOnce currency depositIntent prepaidIntent appointmentId paid s ((0, 1) + m) a) :
    SpentOnce currency depositIntent prepaidIntent appointmentId paid s m a := by
  have hone := h.one_claim
  simp only [Prod.snd_add] at hone
  exact {
    h with
    one_claim := by omega
    claimed := fun _ => h.claimed (by simp)
    executed := fun hex => by simpa using h.executed hex
    given := by simpa using h.given }

/-- The claim on the deposit is taken back; it was not executed. -/
theorem undoDeposit {claimedAt : ℤ}
    (h : SpentOnce currency depositIntent prepaidIntent appointmentId paid s ((0, 1) + m) a) :
    ∃ b, SpentOnce currency depositIntent prepaidIntent appointmentId paid
      { s with db := DepositRefund.undo appointmentId claimedAt s.db } m b := by
  obtain ⟨hget, hsales⟩ := Db.updateAppointmentWhere_getD
    (p := fun a => a.depositRefundedAt == some claimedAt)
    (f := fun a => { a with depositPaid := true, depositRefundedAt := none }) h.row
  have hdrop := h.dropDeposit
  split at hget
  · refine ⟨_, {
      row := hget
      deposit_intent := h.deposit_intent
      prepaid_intent := h.prepaid_intent
      amount := h.amount
      one_claim := hdrop.one_claim
      claimed := ?_
      paid_kept := fun _ => rfl
      executed := ?_
      count := h.count
      minor := h.minor
      le_paid := h.le_paid
      given := hdrop.given
      sales := ?_ }⟩
    · intro hm
      have := h.one_claim
      simp only [Prod.snd_add] at this
      omega
    · intro hex
      simpa using (h.executed hex).2
    · intro j sale hj hsale
      have htaken := h.sales j sale (by simpa [DepositRefund.undo, hsales] using hj) hsale
      exact ⟨fun _ => rfl, htaken.prepaid⟩
  · exact ⟨a, {
      hdrop with
      row := hget
      sales := fun j sale hj hsale =>
        h.sales j sale (by simpa [DepositRefund.undo, hsales] using hj) hsale }⟩

variable {c : PrepaymentClaim}

/-- A prepayment that no sale has taken off is claimed. -/
theorem claimPrepayment
    (h : SpentOnce currency depositIntent prepaidIntent appointmentId paid s m a)
    (hc : c.Valid currency prepaidIntent paid) (hunbilled : s.db.billed appointmentId = false)
    {db : Db} (hclaim : PrepaymentRefund.claim appointmentId c k.now s.db = some db) :
    ∃ b, SpentOnce currency depositIntent prepaidIntent appointmentId paid { s with db := db }
      ((c.value.toNNRat, 0) + m) b := by
  obtain ⟨b, hb, hp, hget, hsales⟩ := Db.updateAppointmentWhere_some hclaim
  obtain rfl : b = a := Option.some.inj (hb.symm.trans h.row)
  simp only [Bool.and_eq_true, beq_iff_eq] at hp
  have htop : b.refunded = c.before.getD 0 := by rw [Appointment.refunded, hp.2]
  refine ⟨_, {
    row := hget
    deposit_intent := h.deposit_intent
    prepaid_intent := h.prepaid_intent
    amount := h.amount
    one_claim := by simpa using h.one_claim
    claimed := fun hm => h.claimed (by simpa using hm)
    paid_kept := h.paid_kept
    executed := fun hex => by simpa using h.executed hex
    count := h.count
    minor := hc.after_minor
    le_paid := hc.after_le
    given := ?_
    sales := fun j sale hj hsale =>
      sales_of_unbilled hunbilled j sale (by simpa [hsales] using hj) hsale }⟩
  have hgiven := h.given
  rw [htop] at hgiven
  simp only [Prod.fst_add, NNRat.coe_add, hc.value_coe, Appointment.refunded, Option.getD_some,
    hc.after_eq]
  linarith

/-- Stripe executes the refund of a claimed prepayment. -/
theorem refundPrepayment (hne : depositIntent ≠ prepaidIntent)
    (hc : c.Valid currency prepaidIntent paid)
    (h : SpentOnce currency depositIntent prepaidIntent appointmentId paid s
      ((c.value.toNNRat, 0) + m) a) :
    SpentOnce currency depositIntent prepaidIntent appointmentId paid
      { s with stripe := s.stripe.execute (PrepaymentRefund.request currency c) } m a := by
  have hdeposit : (s.stripe.execute (PrepaymentRefund.request currency c)).executed
      (.deposit depositIntent) = s.stripe.executed (.deposit depositIntent) := by
    rw [Bool.eq_iff_iff, Stripe.executed_execute]
    simp [PrepaymentRefund.request]
  exact {
    row := h.row
    deposit_intent := h.deposit_intent
    prepaid_intent := h.prepaid_intent
    amount := h.amount
    one_claim := by simpa using h.one_claim
    claimed := fun hm => h.claimed (by simpa using hm)
    paid_kept := h.paid_kept
    executed := fun hex => by simpa using h.executed (hdeposit ▸ hex)
    count := by
      have hid : (PrepaymentRefund.request currency c).intentId ≠ depositIntent :=
        fun e => hne (e.symm.trans hc.intent)
      rw [hdeposit, Stripe.refundCount_execute, if_neg fun e => hid e.2, add_zero]
      exact h.count
    minor := h.minor
    le_paid := h.le_paid
    given := by
      have hgiven := h.given
      simp only [Prod.fst_add, NNRat.coe_add, hc.value_coe] at hgiven
      have hle := Stripe.refunded_execute_le (s := s.stripe)
        (r := PrepaymentRefund.request currency c) rfl
        (hc.value_minor.toMinorUnits_pos hc.value_pos) prepaidIntent
      rw [if_pos (show (PrepaymentRefund.request currency c).intentId = _ from hc.intent),
        ← @fromMinorUnits_le _ _ currency, fromMinorUnits_add, hc.value_minor] at hle
      linarith
    sales := h.sales }

/-- A claim on the prepayment is settled without a refund, and the row is as it was. -/
theorem dropPrepayment (hc : c.Valid currency prepaidIntent paid)
    (h : SpentOnce currency depositIntent prepaidIntent appointmentId paid s
      ((c.value.toNNRat, 0) + m) a) :
    SpentOnce currency depositIntent prepaidIntent appointmentId paid s m a := by
  have hgiven := h.given
  simp only [Prod.fst_add, NNRat.coe_add, hc.value_coe] at hgiven
  have := hc.value_pos
  exact {
    h with
    one_claim := by simpa using h.one_claim
    claimed := fun hm => h.claimed (by simpa using hm)
    executed := fun hex => by simpa using h.executed hex
    given := by linarith }

/-- The claim on the prepayment is taken back, if it is still on top. -/
theorem undoPrepayment (hc : c.Valid currency prepaidIntent paid)
    (h : SpentOnce currency depositIntent prepaidIntent appointmentId paid s
      ((c.value.toNNRat, 0) + m) a) :
    ∃ b, SpentOnce currency depositIntent prepaidIntent appointmentId paid
      { s with db := PrepaymentRefund.undo appointmentId c s.db } m b := by
  obtain ⟨hget, hsales⟩ := Db.updateAppointmentWhere_getD
    (p := fun a => a.prepaidRefundedAmount == some c.after)
    (f := fun a => { a with prepaidRefundedAmount := c.before, prepaidRefundedAt := none }) h.row
  have hdrop := h.dropPrepayment hc
  split at hget
  · next htop =>
    have htop : a.refunded = c.after := by
      rw [Appointment.refunded, beq_iff_eq.1 htop, Option.getD_some]
    refine ⟨_, {
      row := hget
      deposit_intent := h.deposit_intent
      prepaid_intent := h.prepaid_intent
      amount := h.amount
      one_claim := hdrop.one_claim
      claimed := hdrop.claimed
      paid_kept := h.paid_kept
      executed := hdrop.executed
      count := h.count
      minor := hc.before_minor
      le_paid := hc.before_lt.le.trans hc.after_le
      given := ?_
      sales := ?_ }⟩
    · have hgiven := h.given
      simp only [Prod.fst_add, NNRat.coe_add, hc.value_coe, htop, hc.after_eq] at hgiven
      simp only [Appointment.refunded]
      linarith
    · intro j sale hj hsale
      have htaken := h.sales j sale (by simpa [PrepaymentRefund.undo, hsales] using hj) hsale
      refine ⟨htaken.deposit, ?_⟩
      have hle := htaken.prepaid
      have := hc.before_lt
      rw [htop] at hle
      simp only [Appointment.refunded]
      linarith
  · exact ⟨a, {
      hdrop with
      row := hget
      sales := fun j sale hj hsale =>
        h.sales j sale (by simpa [PrepaymentRefund.undo, hsales] using hj) hsale }⟩

/-- A sale commits on what is paid: what it takes off was neither given back nor claimed. -/
theorem commitSale (h : SpentOnce currency depositIntent prepaidIntent appointmentId paid s m a)
    {cat : Catalog} {ctx : Caller} {plan : SalePlan} {seen db : Db} (hfrom : plan.From seen)
    (hstill : StillPaid appointmentId seen s.db)
    (hcommit : Barbershop.commitSale cat ctx plan s.db = .ok db) :
    ∃ b, SpentOnce currency depositIntent prepaidIntent appointmentId paid { s with db := db } m b := by
  obtain ⟨hsales, happts, -⟩ := commitSale_frame hcommit
  have hnew : plan.data.appointmentId = some appointmentId → TakenOff paid a (plan.sale ctx) := by
    intro hid
    obtain ⟨a₀, ha₀, hdeposit, hprepaid⟩ := hfrom.covered _ hid
    obtain ⟨hdeposit', hprepaid'⟩ := hstill a₀ ha₀ a h.row
    constructor
    · intro hsome
      have hpos : 0 < plan.charge.depositApplied := by
        by_contra hle
        simp [SalePlan.sale, hle] at hsome
      apply h.paid_kept
      by_contra hunpaid
      have hzero : a.deposit = 0 := by simp [Appointment.deposit, hunpaid]
      linarith
    · have hle := h.le_paid
      by_cases hpos : 0 < plan.charge.prepaidApplied
      · have hpaid := Appointment.prepaid_of_pos (hpos.trans_le (hprepaid.trans hprepaid'))
        rw [h.amount] at hpaid
        simp only [SalePlan.sale, hpos, if_true, Option.getD_some]
        linarith
      · simpa [SalePlan.sale, hpos] using hle
  have hold : ∀ b : Appointment, (b.depositRefundedAt = a.depositRefundedAt ∧
      b.refunded = a.refunded) → ∀ j sale, db.sales.get? j = some sale →
        sale.appointmentId = some appointmentId → TakenOff paid b sale := by
    rintro b ⟨hrefunded, hback⟩ j sale hj hsale
    have htaken : TakenOff paid a sale := by
      rw [hsales, Table.get?_insert] at hj
      split at hj
      · obtain rfl := Option.some.inj hj
        exact hnew hsale
      · exact h.sales j sale hj hsale
    exact ⟨fun hd => hrefunded.trans (htaken.deposit hd), hback ▸ htaken.prepaid⟩
  rcases plan.completeAppointment_get? ctx.now s.db.appointments appointmentId with
    hsame | ⟨a', ha', hdone, -, -⟩
  · exact ⟨a, {
      h with
      row := (congrArg (·.get? appointmentId) happts).trans (hsame.trans h.row)
      sales := hold a ⟨rfl, rfl⟩ }⟩
  · obtain rfl : a' = a := Option.some.inj (ha'.symm.trans h.row)
    exact ⟨{ a' with status := .completed }, {
      row := (congrArg (·.get? appointmentId) happts).trans hdone
      deposit_intent := h.deposit_intent
      prepaid_intent := h.prepaid_intent
      amount := h.amount
      one_claim := h.one_claim
      claimed := h.claimed
      paid_kept := h.paid_kept
      executed := h.executed
      count := h.count
      minor := h.minor
      le_paid := h.le_paid
      given := h.given
      sales := hold _ ⟨rfl, rfl⟩ }⟩

end SpentOnce

theorem once_keeps (hne : depositIntent ≠ prepaidIntent) (hminor : IsMinor currency paid)
    {c : PaymentCall} {out : Payments × Option PaymentCall} (htimely : c.Timely appointmentId s)
    (h : c.step currency appointmentId k s = some out) :
    (onceInv currency depositIntent prepaidIntent appointmentId paid).Keeps s (some c) out := by
  rintro m ⟨a, ha⟩ hc
  have hmine := hc c rfl
  cases c with
  | deposit c =>
    obtain ⟨⟨s', p⟩, hstep, rfl⟩ := Option.map_eq_some_iff.1 h
    cases c with
    | reading =>
      simp only [DepositRefund.step] at hstep
      split at hstep
      · cases hstep
        exact onceInv_kept ⟨a, ha⟩ (by rintro _ ⟨⟩)
      · next id hread =>
        cases hstep
        refine onceInv_kept ⟨a, ha⟩ ?_
        rintro _ ⟨⟩
        simp only [DepositRefund.read, Option.bind_eq_bind, Option.bind_eq_some_iff,
          Option.ite_none_right_eq_some, Option.some.injEq] at hread
        obtain ⟨b, hb, id', hid, -, rfl⟩ := hread
        obtain rfl : b = a := Option.some.inj (hb.symm.trans ha.row)
        exact ha.deposit_intent _ hid
    | claiming id =>
      simp only [DepositRefund.step] at hstep
      split at hstep
      · cases hstep
        exact onceInv_kept ⟨a, ha⟩ (by rintro _ ⟨⟩)
      · next db hclaim =>
        cases hstep
        simp only [onceInv, CallInv.weigh_some, PaymentCall.claims, zero_add] at ha
        refine onceInv_kept ⟨_, ha.claimDeposit htimely hclaim⟩ ?_
        rintro _ ⟨⟩
        exact hmine
    | calling id claimedAt =>
      simp only [DepositRefund.step, Option.map_eq_some_iff] at hstep
      obtain ⟨t, hanswer, hout⟩ := hstep
      cases hout
      obtain rfl : id = depositIntent := hmine
      rcases Stripe.createRefund_ok hanswer with ⟨hk, rfl⟩ | ⟨hk, -, rfl⟩ | ⟨hk, rfl⟩
      · rw [hk]
        exact onceInv_kept ⟨a, by simpa using ha.refundDeposit hne⟩ (by rintro _ ⟨⟩)
      · rw [hk]
        exact onceInv_kept ⟨a, by simpa using ha.dropDeposit⟩ (by rintro _ ⟨⟩)
      · rw [hk]
        refine onceInv_kept ⟨a, ha⟩ ?_
        rintro _ ⟨⟩
        exact rfl
    | undoing id claimedAt =>
      cases hstep
      obtain ⟨b, hb⟩ := ha.undoDeposit
      exact onceInv_kept ⟨b, by simpa using hb⟩ (by rintro _ ⟨⟩)
  | prepayment c =>
    obtain ⟨⟨s', p⟩, hstep, rfl⟩ := Option.map_eq_some_iff.1 h
    cases c with
    | reading amount =>
      simp only [PrepaymentRefund.step] at hstep
      split at hstep
      · cases hstep
        exact onceInv_kept ⟨a, ha⟩ (by rintro _ ⟨⟩)
      · cases hstep
        exact onceInv_kept ⟨a, ha⟩ (by rintro _ ⟨⟩)
      · next c hread =>
        cases hstep
        refine onceInv_kept ⟨a, ha⟩ ?_
        rintro _ ⟨⟩
        obtain ⟨b, id, hb, hid, -, -, -, hplan⟩ := PrepaymentRefund.read_ok hread
        obtain rfl : b = a := Option.some.inj (hb.symm.trans ha.row)
        obtain rfl : id = prepaidIntent := ha.prepaid_intent _ hid
        exact (PrepaymentRefund.plan_valid hplan hmine ha.amount hminor ha.minor).1
    | claiming c =>
      simp only [PrepaymentRefund.step] at hstep
      split at hstep
      · cases hstep
        exact onceInv_kept ⟨a, ha⟩ (by rintro _ ⟨⟩)
      · next db hclaim =>
        cases hstep
        simp only [onceInv, CallInv.weigh_some, PaymentCall.claims, zero_add] at ha
        obtain ⟨b, hb⟩ := ha.claimPrepayment hmine htimely hclaim
        refine onceInv_kept ⟨b, hb⟩ ?_
        rintro _ ⟨⟩
        exact hmine
    | calling c =>
      simp only [PrepaymentRefund.step, Option.map_eq_some_iff] at hstep
      obtain ⟨t, hanswer, hout⟩ := hstep
      cases hout
      rcases Stripe.createRefund_ok hanswer with ⟨hk, rfl⟩ | ⟨hk, -, rfl⟩ | ⟨hk, rfl⟩
      · rw [hk]
        exact onceInv_kept ⟨a, by simpa using ha.refundPrepayment hne hmine⟩ (by rintro _ ⟨⟩)
      · rw [hk]
        exact onceInv_kept ⟨a, by simpa using ha.dropPrepayment hmine⟩ (by rintro _ ⟨⟩)
      · rw [hk]
        refine onceInv_kept ⟨a, ha⟩ ?_
        rintro _ ⟨⟩
        exact hmine
    | undoing c =>
      cases hstep
      obtain ⟨b, hb⟩ := ha.undoPrepayment hmine
      exact onceInv_kept ⟨b, by simpa using hb⟩ (by rintro _ ⟨⟩)
  | billing c =>
    cases h
    cases c with
    | reading c =>
      simp only [Billing.step]
      split
      all_goals
        refine onceInv_kept ⟨a, ha⟩ ?_
        rintro _ ⟨⟩
        trivial
    | canceling c seen id =>
      refine onceInv_kept ⟨a, ?_⟩ ?_
      · exact ha.of_refunds Stripe.refunds_cancelPaymentIntent
      · rintro _ ⟨⟩
        trivial
    | checking c seen =>
      simp only [Billing.step]
      split
      · exact onceInv_kept ⟨a, ha⟩ (by rintro _ ⟨⟩)
      · next plan hplan =>
        refine onceInv_kept ⟨a, ha⟩ ?_
        rintro _ ⟨⟩
        exact prepareSale_from hplan
    | committing c seen plan =>
      simp only [Billing.step]
      split
      · exact onceInv_kept ⟨a, ha⟩ (by rintro _ ⟨⟩)
      · next db hcommit =>
        obtain ⟨b, hb⟩ := ha.commitSale hmine htimely hcommit
        exact onceInv_kept ⟨b, hb⟩ (by rintro _ ⟨⟩)

end Steps

theorem UnspentVisit.spentOnce {currency depositIntent prepaidIntent : String} {appointmentId : ℕ}
    {paid : ℚ} {s : Payments} {a : Appointment}
    (h : UnspentVisit currency depositIntent prepaidIntent appointmentId paid s a) :
    SpentOnce currency depositIntent prepaidIntent appointmentId paid s 0 a := by
  have hzero : a.refunded = 0 := by simp [Appointment.refunded, h.prepaid_kept]
  exact {
    row := h.row
    deposit_intent := h.deposit_intent
    prepaid_intent := h.prepaid_intent
    amount := h.amount
    one_claim := zero_le_one
    claimed := fun hm => absurd rfl hm
    paid_kept := fun _ => h.deposit_kept
    executed := by simp [Stripe.executed, h.refunds]
    count := by simp [Stripe.refundCount, h.refunds]
    minor := hzero ▸ isMinor_zero currency
    le_paid := hzero ▸ h.nonneg
    given := by simp [Stripe.refunded, h.refunds, hzero]
    sales := fun j sale hj hsale => sales_of_unbilled h.unbilled j sale hj hsale }

/-- In every run whose refunds are claimed on an appointment without a sale and whose sales commit
on what is paid, in every state: a sale that takes off the deposit has a deposit that was not
refunded, what a sale takes off of the prepayment and what was given back of it do not exceed it,
and the deposit was refunded at most once. -/
theorem payments_spent_once {currency depositIntent prepaidIntent : String} {appointmentId : ℕ}
    {paid : ℚ} {s : Payments} {a : Appointment}
    (hvisit : UnspentVisit currency depositIntent prepaidIntent appointmentId paid s a)
    {moves : List (Move PaymentRequest Chance)} {x : Calls Payments PaymentCall}
    (hmeets : (paymentCalls currency appointmentId).machine.Meets
      (CallSystem.When (fun r _ => r.Whole currency) fun _ c s => c.Timely appointmentId s)
      (.idle s) moves)
    (hrun : (paymentCalls currency appointmentId).machine.run (.idle s) moves = some x) :
    (∀ k sale, x.shared.db.sales.get? k = some sale → sale.appointmentId = some appointmentId →
      (sale.depositApplied.isSome = true → x.shared.stripe.refunded depositIntent = 0) ∧
      sale.prepaidApplied.getD 0 +
        fromMinorUnits (x.shared.stripe.refunded prepaidIntent) currency ≤ paid) ∧
    x.shared.stripe.refundCount depositIntent ≤ 1 := by
  have hinv := CallInv.Holds.run
    (I := onceInv currency depositIntent prepaidIntent appointmentId paid)
    (fun {r s out} hwhole h => ?_) (fun htimely h => once_keeps hvisit.ne hvisit.minor htimely h)
    (CallInv.holds_idle ⟨a, hvisit.spentOnce⟩) hmeets hrun
  · obtain ⟨b, hb⟩ := hinv.whole
    constructor
    · intro j sale hj hsale
      have htaken := hb.sales j sale hj hsale
      have hgiven := hb.given
      constructor
      · intro hsome
        have hnew : x.shared.stripe.executed (.deposit depositIntent) = false := by
          rw [Bool.eq_false_iff]
          intro hex
          simpa [htaken.deposit hsome] using (hb.executed hex).1
        refine Stripe.refunded_eq_zero (Nat.le_zero.1 ?_)
        simpa [hnew] using hb.count
      · have hle := htaken.prepaid
        have hpending := NNRat.coe_nonneg (x.inFlight.sum fun _ => PaymentCall.claims).1
        simp only [onceInv] at hgiven
        linarith
    · have hcount := hb.count
      split at hcount
      · exact hcount
      · exact hcount.trans zero_le_one
  · cases h
    rintro m ⟨a, ha⟩ -
    cases r with
    | refundOnlineDeposit | createSale c =>
      refine onceInv_kept ⟨a, ha⟩ ?_
      rintro _ ⟨⟩
      trivial
    | refundPrepayment amount =>
      refine onceInv_kept ⟨a, ha⟩ ?_
      rintro _ ⟨⟩
      exact hwhole

/-- The visit with a deposit of thirty paid online. -/
def depositVisit : Payments :=
  .ofVisit { visit with
    depositAmount := some 30
    depositPaid := true
    depositPaidAt := some 0
    depositPaymentIntentId := some "pi_1" } "pi_1" 3000

theorem depositVisit_unspent :
    UnspentVisit "BRL" "pi_1" "pi_2" 1 0 depositVisit { visit with
      depositAmount := some 30
      depositPaid := true
      depositPaidAt := some 0
      depositPaymentIntentId := some "pi_1" } where
  row := rfl
  ne := by decide
  deposit_intent := by simp
  prepaid_intent := by simp [visit]
  amount := rfl
  nonneg := le_rfl
  minor := isMinor_zero _
  deposit_kept := rfl
  prepaid_kept := rfl
  refunds := rfl
  unbilled := by decide +kernel

/-- The visit is billed with a haircut of a hundred. -/
def billVisit : SaleCall where
  cat := oneProduct
  ctx := owner 3000
  data := { haircutSale none 100 with appointmentId := some 1 }
  reads _ := depositVisit.db

/-- The sale comes first, and a refund that begins after it does nothing. -/
def billedThenRefused : List (Move PaymentRequest Chance) :=
  [.event (.createSale billVisit), .step 1 (chance 1 .accepted), .step 1 (chance 1 .accepted),
    .step 1 (chance 1 .accepted), .event .refundOnlineDeposit, .step 2 (chance 2 .accepted)]

theorem billedThenRefused_spent_once : ∃ x,
    (paymentCalls "BRL" 1).machine.run (.idle depositVisit) billedThenRefused = some x ∧
      ∃ sale, x.shared.db.sales.get? 1 = some sale ∧ sale.depositApplied = some 30 ∧
        x.shared.stripe.refunded "pi_1" = 0 := by
  have hmeets : (paymentCalls "BRL" 1).machine.Meets
      (CallSystem.When (fun r _ => r.Whole "BRL") fun _ c s => c.Timely 1 s) (.idle depositVisit)
      billedThenRefused := by
    decide +kernel
  have hsome : ((paymentCalls "BRL" 1).machine.run (.idle depositVisit) billedThenRefused).any
      (fun x => (x.shared.db.sales.get? 1).any fun sale =>
        sale.depositApplied == some 30 && sale.appointmentId == some 1) = true := by
    decide +kernel
  obtain ⟨x, hx, hsale⟩ := (Option.any_eq_true _ _).1 hsome
  obtain ⟨sale, hk, hout⟩ := (Option.any_eq_true _ _).1 hsale
  simp only [Bool.and_eq_true, beq_iff_eq] at hout
  have hspent := (payments_spent_once depositVisit_unspent hmeets hx).1 1 sale hk hout.2
  exact ⟨x, hx, sale, hk, hout.1, hspent.1 (by rw [hout.1]; rfl)⟩

/-- The refund finds no sale, the sale finds the deposit paid, and then the refund is claimed. -/
def refundedWhileBilled : List (Move PaymentRequest Chance) :=
  [.event .refundOnlineDeposit, .step 1 (chance 1 .accepted),
    .event (.createSale billVisit), .step 2 (chance 2 .accepted), .step 2 (chance 2 .accepted),
    .step 2 (chance 2 .accepted), .step 1 (chance 3 .accepted), .step 1 (chance 4 .accepted)]

theorem refundedWhileBilled_spent_twice : ∃ x,
    (paymentCalls "BRL" 1).machine.run (.idle depositVisit) refundedWhileBilled = some x ∧
      x.quiet = true ∧ ∃ sale, x.shared.db.sales.get? 1 = some sale ∧
        sale.appointmentId = some 1 ∧ sale.depositApplied = some 30 ∧
        x.shared.stripe.refunded "pi_1" = 3000 := by
  have hrun : ((paymentCalls "BRL" 1).machine.run (.idle depositVisit) refundedWhileBilled).any
      (fun x => x.quiet && (x.shared.db.sales.get? 1).any (fun sale =>
        sale.appointmentId == some 1 && sale.depositApplied == some 30) &&
          x.shared.stripe.refunded "pi_1" == 3000) = true := by
    decide +kernel
  obtain ⟨x, hx, hout⟩ := (Option.any_eq_true _ _).1 hrun
  simp only [Bool.and_eq_true, beq_iff_eq, Option.any_eq_true] at hout
  obtain ⟨⟨hq, sale, hk, hid, happlied⟩, hback⟩ := hout
  exact ⟨x, hx, hq, sale, hk, hid, happlied, hback⟩

end Barbershop
