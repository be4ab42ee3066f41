import Barbershop.Core.Money
import Barbershop.Core.Timezone

/-!
# What the platform owes a unit

Deposits and club payments that clients made through the platform are the unit's, less the platform's
fee. The report of a period adds up the payments taken in it; what is owed is a balance over all that
was taken and paid out until its end (`payout_balance`).
-/

namespace Barbershop

/-! ## The report -/

/-- A payment the platform received for the unit. -/
structure PayoutCharge where
  amount : ℚ
  /-- What went back to the client. -/
  refunded : ℚ
  /-- The fee when it was charged; `none`: today's. -/
  feePercent : Option ℚ
  /-- It fell on the unit's Connect account. -/
  viaConnect : Bool
  deriving DecidableEq

namespace PayoutCharge

variable (currentFee : ℚ) (currency : String) (c : PayoutCharge)

def net : ℚ := c.amount - c.refunded

def chargeFee : ℚ := roundMoney (c.net * c.feePercent.getD currentFee / 100) currency

end PayoutCharge

structure PayoutTotals where
  gross : ℚ
  fee : ℚ
  automatic : ℚ
  refunded : ℚ

/-- One turn of the loop of `totals`. -/
def PayoutTotals.add (currentFee : ℚ) (currency : String) (t : PayoutTotals) (c : PayoutCharge) :
    PayoutTotals :=
  { gross := t.gross + c.net
    fee := t.fee + c.chargeFee currentFee currency
    automatic :=
      if c.viaConnect then t.automatic + (c.net - c.chargeFee currentFee currency) else t.automatic
    refunded := t.refunded + c.refunded }

def totals (charges : List PayoutCharge) (currentFee : ℚ) (currency : String) : PayoutTotals :=
  let t := charges.foldl (PayoutTotals.add currentFee currency) ⟨0, 0, 0, 0⟩
  { gross := roundMoney t.gross currency
    fee := roundMoney t.fee currency
    automatic := roundMoney t.automatic currency
    refunded := roundMoney t.refunded currency }

structure PayoutInput where
  inPeriod : List PayoutCharge
  untilPeriodEnd : List PayoutCharge
  payoutsInPeriod : List ℚ
  payoutsUntilPeriodEnd : List ℚ
  currentFee : ℚ
  currency : Option String

structure PayoutReport where
  paymentsCount : ℕ
  grossAmount : ℚ
  refundedAmount : ℚ
  platformFeePercentage : ℚ
  platformFeeAmount : ℚ
  paidOutAutomatically : ℚ
  paidOutManually : ℚ
  netOwedToBarbershop : ℚ

def payoutReport (input : PayoutInput) : PayoutReport :=
  let currency := input.currency.getD ""
  let period := totals input.inPeriod input.currentFee currency
  let all := totals input.untilPeriodEnd input.currentFee currency
  { paymentsCount := input.inPeriod.length
    grossAmount := period.gross
    refundedAmount := period.refunded
    platformFeePercentage :=
      if 0 < period.gross then roundHalfUp (period.fee / period.gross * 10000) / 100
      else input.currentFee
    platformFeeAmount := period.fee
    paidOutAutomatically := period.automatic
    paidOutManually := roundMoney input.payoutsInPeriod.sum currency
    netOwedToBarbershop := roundMoney (all.gross - all.fee - all.automatic -
      roundMoney input.payoutsUntilPeriodEnd.sum currency) currency }

/-! ## The rows it is made of -/

/-- The payments taken for a unit and the payouts made to it, with their instants, in the order the
database gives them. -/
structure PayoutBooks where
  charges : List (ℤ × PayoutCharge)
  payouts : List (ℤ × ℚ)
  currentFee : ℚ
  currency : Option String

/-- The rows of the instants asked for. -/
def rowsWhen {α : Type} (asked : ℤ → Bool) (rows : List (ℤ × α)) : List α :=
  (rows.filter fun row => asked row.1).map (·.2)

def ReportPeriod.asks (period : ReportPeriod) (t : ℤ) : Bool := decide (period.contains t)

/-- `untilEnd`: all the time until a period's end. -/
def ReportPeriod.untilEnd (period : ReportPeriod) : ReportPeriod := { period with gte := none }

/-- The time after the end of one period until that of a later one. -/
def ReportPeriod.sinceEnd (period later : ReportPeriod) (t : ℤ) : Bool :=
  later.untilEnd.asks t && !period.untilEnd.asks t

def PayoutBooks.report (books : PayoutBooks) (period : ReportPeriod) : PayoutReport :=
  payoutReport
    { inPeriod := rowsWhen period.asks books.charges
      untilPeriodEnd := rowsWhen period.untilEnd.asks books.charges
      payoutsInPeriod := rowsWhen period.asks books.payouts
      payoutsUntilPeriodEnd := rowsWhen period.untilEnd.asks books.payouts
      currentFee := books.currentFee
      currency := books.currency }

/-- Amounts in whole minor units of a currency. -/
def PayoutCharge.Whole (currency : String) (c : PayoutCharge) : Prop :=
  IsMinor currency c.amount ∧ IsMinor currency c.refunded

instance PayoutCharge.decidableWhole (currency : String) (c : PayoutCharge) :
    Decidable (c.Whole currency) :=
  inferInstanceAs (Decidable (_ ∧ _))

def PayoutBooks.Whole (books : PayoutBooks) : Prop :=
  (∀ row ∈ books.charges, row.2.Whole (books.currency.getD "")) ∧
    ∀ row ∈ books.payouts, IsMinor (books.currency.getD "") row.2

instance PayoutBooks.decidableWhole (books : PayoutBooks) : Decidable books.Whole := inferInstanceAs (Decidable (_ ∧ _))

/-! ## Sums of rows -/

section Rows

variable {α : Type} {asked asked₁ asked₂ : ℤ → Bool} {rows : List (ℤ × α)} (f : α → ℚ)

theorem mem_rowsWhen {x : α} : x ∈ rowsWhen asked rows → ∃ row ∈ rows, row.2 = x := by
  intro h
  obtain ⟨row, hrow, rfl⟩ := List.mem_map.1 h
  exact ⟨row, List.mem_of_mem_filter hrow, rfl⟩

/-- Instants asked for in two parts are summed in two parts. -/
theorem sum_rowsWhen_split (hsplit : ∀ t, asked t = (asked₁ t || asked₂ t))
    (hapart : ∀ t, (asked₁ t && asked₂ t) = false) (rows : List (ℤ × α)) :
    ((rowsWhen asked rows).map f).sum =
      ((rowsWhen asked₁ rows).map f).sum + ((rowsWhen asked₂ rows).map f).sum := by
  unfold rowsWhen
  induction rows with
  | nil => simp
  | cons row rows ih =>
    have hrow := hsplit row.1
    have hone := hapart row.1
    simp only [List.filter_cons, hrow]
    cases h₁ : asked₁ row.1 with
    | true =>
      rw [h₁, Bool.true_and] at hone
      simp only [hone, Bool.or_false, if_true, Bool.false_eq_true, if_false, List.map_cons,
        List.sum_cons, ih]
      ring
    | false =>
      cases h₂ : asked₂ row.1 with
      | true =>
        simp only [Bool.or_true, if_true, Bool.false_eq_true, if_false, List.map_cons,
          List.sum_cons, ih]
        ring
      | false => simpa using ih

/-- A row that counts for nothing can be left out. -/
theorem sum_rowsWhen_drop {t : ℤ} {x : α} (hx : f x = 0) (before after : List (ℤ × α)) :
    ((rowsWhen asked (before ++ (t, x) :: after)).map f).sum =
      ((rowsWhen asked (before ++ after)).map f).sum := by
  unfold rowsWhen
  simp only [List.filter_append, List.filter_cons, List.map_append, List.sum_append]
  split
  · rw [List.map_cons, List.map_cons, List.sum_cons, hx, zero_add]
  · rfl

end Rows

/-! ## What the report adds up to -/

namespace PayoutCharge

variable {currentFee : ℚ} {currency : String} {c : PayoutCharge}

/-- What the platform has to pass on by hand. -/
def owed (currentFee : ℚ) (currency : String) (c : PayoutCharge) : ℚ :=
  if c.viaConnect then 0 else c.net - c.chargeFee currentFee currency

/-- What has been passed on by Connect. -/
def passedOn (currentFee : ℚ) (currency : String) (c : PayoutCharge) : ℚ :=
  if c.viaConnect then c.net - c.chargeFee currentFee currency else 0

theorem isMinor_chargeFee : IsMinor currency (c.chargeFee currentFee currency) :=
  isMinor_roundMoney ..

theorem owed_eq : c.owed currentFee currency =
    c.net - c.chargeFee currentFee currency - c.passedOn currentFee currency := by
  unfold owed passedOn
  split <;> ring

theorem Whole.net (h : c.Whole currency) : IsMinor currency c.net := h.1.sub h.2

theorem Whole.passedOn (h : c.Whole currency) : IsMinor currency (c.passedOn currentFee currency) := by
  unfold PayoutCharge.passedOn
  split
  · exact h.net.sub isMinor_chargeFee
  · exact isMinor_zero currency

theorem Whole.owed (h : c.Whole currency) : IsMinor currency (c.owed currentFee currency) := by
  rw [owed_eq]
  exact (h.net.sub isMinor_chargeFee).sub h.passedOn

end PayoutCharge

section Totals

variable {currentFee : ℚ} {currency : String} {charges : List PayoutCharge}

theorem foldl_add (t : PayoutTotals) : charges.foldl (PayoutTotals.add currentFee currency) t =
    { gross := t.gross + (charges.map (·.net)).sum
      fee := t.fee + (charges.map (·.chargeFee currentFee currency)).sum
      automatic := t.automatic + (charges.map (·.passedOn currentFee currency)).sum
      refunded := t.refunded + (charges.map (·.refunded)).sum } := by
  induction charges generalizing t with
  | nil => simp
  | cons c charges ih =>
    rw [List.foldl_cons, ih]
    simp only [PayoutTotals.add, PayoutCharge.passedOn, List.map_cons, List.sum_cons]
    split <;> simp only [add_assoc, zero_add]

/-- With whole minor units the roundings of the sums do nothing. -/
theorem totals_eq (h : ∀ c ∈ charges, c.Whole currency) : totals charges currentFee currency =
    { gross := (charges.map (·.net)).sum
      fee := (charges.map (·.chargeFee currentFee currency)).sum
      automatic := (charges.map (·.passedOn currentFee currency)).sum
      refunded := (charges.map (·.refunded)).sum } := by
  have hsum : ∀ f : PayoutCharge → ℚ, (∀ c ∈ charges, IsMinor currency (f c)) →
      roundMoney (0 + (charges.map f).sum) currency = (charges.map f).sum := by
    intro f hf
    rw [zero_add]
    exact (IsMinor.sum (by simpa using hf)).roundMoney_eq
  unfold totals
  rw [foldl_add]
  dsimp only
  rw [hsum _ fun c hc => (h c hc).net, hsum _ fun _ _ => PayoutCharge.isMinor_chargeFee,
    hsum _ fun c hc => (h c hc).passedOn, hsum _ fun c hc => (h c hc).2]

theorem sum_owed : (charges.map (·.net)).sum - (charges.map (·.chargeFee currentFee currency)).sum -
    (charges.map (·.passedOn currentFee currency)).sum =
      (charges.map (·.owed currentFee currency)).sum := by
  induction charges with
  | nil => simp
  | cons c charges ih =>
    rw [List.map_cons, List.map_cons, List.map_cons, List.map_cons, List.sum_cons, List.sum_cons,
      List.sum_cons, List.sum_cons, ← ih, PayoutCharge.owed_eq]
    ring

/-- Only what did not go by Connect is owed. -/
theorem sum_owed_filter (charges : List PayoutCharge) : (charges.map (·.owed currentFee currency)).sum =
    ((charges.filter (!·.viaConnect)).map fun c => c.net - c.chargeFee currentFee currency).sum := by
  induction charges with
  | nil => simp
  | cons c charges ih =>
    cases h : c.viaConnect <;> simp [PayoutCharge.owed, h, ← ih]

end Totals

namespace PayoutBooks.Whole

variable {books : PayoutBooks} (h : books.Whole)
include h

theorem rows (asked : ℤ → Bool) :
    ∀ c ∈ rowsWhen asked books.charges, c.Whole (books.currency.getD "") := by
  intro c hc
  obtain ⟨row, hrow, rfl⟩ := mem_rowsWhen hc
  exact h.1 row hrow

theorem payouts (asked : ℤ → Bool) :
    IsMinor (books.currency.getD "") (rowsWhen asked books.payouts).sum := by
  refine IsMinor.sum fun v hv => ?_
  obtain ⟨row, hrow, rfl⟩ := mem_rowsWhen hv
  exact h.2 row hrow

/-- The balance is what is owed for the charges less what was paid out. -/
theorem netOwed (period : ReportPeriod) : (books.report period).netOwedToBarbershop =
    ((rowsWhen period.untilEnd.asks books.charges).map
      (·.owed books.currentFee (books.currency.getD ""))).sum -
        (rowsWhen period.untilEnd.asks books.payouts).sum := by
  have hpaid := h.payouts period.untilEnd.asks
  have hsum := h.rows period.untilEnd.asks
  unfold PayoutBooks.report payoutReport
  dsimp only
  rw [totals_eq hsum, hpaid.roundMoney_eq]
  dsimp only
  rw [sum_owed]
  refine IsMinor.roundMoney_eq (IsMinor.sub (IsMinor.sum ?_) hpaid)
  simp only [List.forall_mem_map]
  exact fun c hc => (hsum c hc).owed

end PayoutBooks.Whole

theorem payout_balance (books : PayoutBooks) (hwhole : books.Whole) :
    (∀ period later : ReportPeriod, (∀ t, period.untilEnd.contains t → later.untilEnd.contains t) →
      (books.report later).netOwedToBarbershop = (books.report period).netOwedToBarbershop +
        (((rowsWhen (period.sinceEnd later) books.charges).filter (!·.viaConnect)).map fun c =>
          c.net - c.chargeFee books.currentFee (books.currency.getD "")).sum -
        (rowsWhen (period.sinceEnd later) books.payouts).sum) ∧
    (∀ period before t c after, books.charges = before ++ (t, c) :: after → c.viaConnect = true →
      (books.report period).netOwedToBarbershop =
        (PayoutBooks.report { books with charges := before ++ after } period).netOwedToBarbershop) ∧
    ∀ period first second : ReportPeriod,
      (∀ t, period.contains t ↔ first.contains t ∨ second.contains t) →
      (∀ t, ¬ (first.contains t ∧ second.contains t)) →
      (books.report period).grossAmount =
        (books.report first).grossAmount + (books.report second).grossAmount ∧
      (books.report period).refundedAmount =
        (books.report first).refundedAmount + (books.report second).refundedAmount ∧
      (books.report period).platformFeeAmount =
        (books.report first).platformFeeAmount + (books.report second).platformFeeAmount ∧
      (books.report period).paidOutAutomatically =
        (books.report first).paidOutAutomatically + (books.report second).paidOutAutomatically := by
  refine ⟨?_, ?_, ?_⟩
  · intro period later hlater
    have hsplit : ∀ t, later.untilEnd.asks t =
        (period.untilEnd.asks t || period.sinceEnd later t) := by
      intro t
      have hin : period.untilEnd.asks t = true → later.untilEnd.asks t = true := by
        simpa [ReportPeriod.asks] using hlater t
      unfold ReportPeriod.sinceEnd
      cases hbefore : period.untilEnd.asks t with
      | true => simp [hin hbefore]
      | false => simp
    have hapart : ∀ t, (period.untilEnd.asks t && period.sinceEnd later t) = false := by
      intro t
      unfold ReportPeriod.sinceEnd
      cases period.untilEnd.asks t <;> simp
    have hpayouts := sum_rowsWhen_split id hsplit hapart books.payouts
    simp only [List.map_id] at hpayouts
    rw [hwhole.netOwed, hwhole.netOwed, sum_rowsWhen_split _ hsplit hapart, hpayouts,
      sum_owed_filter (rowsWhen (period.sinceEnd later) books.charges)]
    ring
  · intro period before t c after hcharges hconnect
    have hrest : PayoutBooks.Whole { books with charges := before ++ after } := by
      refine ⟨fun row hrow => hwhole.1 row ?_, hwhole.2⟩
      rw [hcharges]
      simp only [List.mem_append, List.mem_cons] at hrow ⊢
      tauto
    rw [hwhole.netOwed, hrest.netOwed, hcharges, sum_rowsWhen_drop]
    exact if_pos hconnect
  · intro period first second hsplit hapart
    have hsplit : ∀ t, period.asks t = (first.asks t || second.asks t) := by
      intro t
      simp [ReportPeriod.asks, hsplit]
    have hapart : ∀ t, (first.asks t && second.asks t) = false := by
      intro t
      have := hapart t
      simp only [ReportPeriod.asks, Bool.and_eq_false_iff, decide_eq_false_iff_not]
      tauto
    simp only [PayoutBooks.report, payoutReport, totals_eq (hwhole.rows _)]
    exact ⟨sum_rowsWhen_split _ hsplit hapart _, sum_rowsWhen_split _ hsplit hapart _,
      sum_rowsWhen_split _ hsplit hapart _, sum_rowsWhen_split _ hsplit hapart _⟩

/-- Two charges of October and one by Connect in November, with the payout of October made then. -/
def octoberAndNovember : PayoutBooks where
  charges := [(1, ⟨100, 0, some 10, false⟩), (2, ⟨50, 0, none, false⟩), (32, ⟨80, 20, some 15, true⟩)]
  payouts := [(35, 135)]
  currentFee := 10
  currency := some "BRL"

theorem octoberAndNovember_balance :
    (octoberAndNovember.report ⟨some 31, some 60⟩).netOwedToBarbershop =
      (octoberAndNovember.report ⟨some 0, some 30⟩).netOwedToBarbershop + 0 - 135 := by
  have hwhole : octoberAndNovember.Whole := by decide +kernel
  have hlater := (payout_balance octoberAndNovember hwhole).1 ⟨some 0, some 30⟩
    ⟨some 31, some 60⟩ (by simp [ReportPeriod.untilEnd, ReportPeriod.contains]; omega)
  have hcharges : (rowsWhen (ReportPeriod.sinceEnd ⟨some 0, some 30⟩ ⟨some 31, some 60⟩)
      octoberAndNovember.charges).filter (!·.viaConnect) = [] := by decide +kernel
  have hpayouts : rowsWhen (ReportPeriod.sinceEnd ⟨some 0, some 30⟩ ⟨some 31, some 60⟩)
      octoberAndNovember.payouts = [135] := by decide +kernel
  rw [hlater, hcharges, hpayouts, List.map_nil, List.sum_nil, List.sum_singleton]

end Barbershop
