import Barbershop.Payroll.PaidOnce

/-!
# What the payouts of a professional add up to

The commission stored in the payouts up to an instant and the adjustments about them, against the
commission of the sales that are paid now. `CommissionKept` says that they are near for each payout;
here the payouts are added up. Every sale lies in one payout at most, and every adjustment is about
one payout, or about one that was undone and is made up for by the others about it.
-/

namespace Barbershop

open Lib

namespace Staff

variable (t : CommissionTerms) (shop : ℕ) (s : Staff) (barberId : ℕ) (upTo : ℤ)

/-- The payouts of the periods that end by then. -/
def payoutsUpTo : List (ℕ × BarberPayout) :=
  (s.payrolls barberId).payouts.filter fun _ p => decide (p.periodEnd ≤ upTo)

/-- The commission that the payouts store. -/
def paidCommission : ℚ := ((s.payoutsUpTo barberId upTo).map (·.2.commission)).sum

/-- The adjustments but for those about later payouts. -/
def adjustmentsUpTo : List CommissionAdjustment :=
  s.adjustments.filter fun a => a.barberId == barberId &&
    !((s.payrolls barberId).payouts.get? a.payoutId).any fun p => decide (upTo < p.periodEnd)

/-- The entries that the adjustments wrote. -/
def adjustmentIds : List ℕ := (s.adjustmentsUpTo barberId upTo).map (·.entryId)

/-- What the adjustments add to the payouts that they are in. -/
def adjustmentsPaid : ℚ :=
  (s.payrolls barberId).entries.sum fun id e =>
    if id ∈ s.adjustmentIds barberId upTo then if e.payoutId.isSome then e.signed else 0 else 0

/-- The commission of the paid sales by then. -/
def commissionDue : ℚ :=
  s.db.sales.sum fun id sale =>
    if sale.commissionDate ≤ upTo then t.due shop barberId id sale else 0

/-- The payouts cover the days up to an instant, and the adjustments are in payouts. -/
structure CoveredUpTo : Prop where
  sales : ∀ {id sale}, s.db.sales.get? id = some sale → sale.paidTo shop barberId = true →
    sale.commissionDate ≤ upTo → ∃ i p, (s.payrolls barberId).payouts.get? i = some p ∧
      p.periodEnd ≤ upTo ∧ p.covers sale.commissionDate = true
  adjustments : ∀ {id e}, id ∈ s.adjustmentIds barberId upTo →
    (s.payrolls barberId).entries.get? id = some e → e.payoutId.isSome = true

/-- `CoveredUpTo`, computed. -/
def isCoveredUpTo : Bool :=
  (s.db.sales.rows.all fun r => !(r.2.paidTo shop barberId && decide (r.2.commissionDate ≤ upTo)) ||
    (s.payrolls barberId).payouts.any fun _ p =>
      decide (p.periodEnd ≤ upTo) && p.covers r.2.commissionDate) &&
  (s.payrolls barberId).entries.rows.all fun r =>
    !(s.adjustmentIds barberId upTo).contains r.1 || r.2.payoutId.isSome

/-- To the cent for each payout and each adjustment, what was paid is what is due. -/
def CommissionPaidOnce : Prop :=
  |s.paidCommission barberId upTo + s.adjustmentsPaid barberId upTo -
      s.commissionDue t shop barberId upTo| ≤
    ((s.payoutsUpTo barberId upTo).length + (s.adjustmentsUpTo barberId upTo).length) / 100

variable {shop s barberId upTo}

theorem CoveredUpTo.of_isCoveredUpTo (h : s.isCoveredUpTo shop barberId upTo = true) :
    s.CoveredUpTo shop barberId upTo := by
  rw [isCoveredUpTo, Bool.and_eq_true, List.all_eq_true, List.all_eq_true] at h
  refine ⟨fun hget hpaid hle => ?_, fun {id e} hid hget => ?_⟩
  · have hrow := h.1 _ (Table.mem_iff.2 hget)
    simp only [hpaid, hle, decide_true, Bool.and_self, Bool.not_true, Bool.false_or] at hrow
    obtain ⟨i, p, hi, hp⟩ := Table.any_eq_true.1 hrow
    rw [Bool.and_eq_true, decide_eq_true_eq] at hp
    exact ⟨i, p, hi, hp⟩
  · have hrow := h.2 _ (Table.mem_iff.2 hget)
    rw [List.contains_iff_mem.2 hid] at hrow
    exact hrow

end Staff

/-! ## The sums -/

namespace CommissionBooks

variable {t : CommissionTerms} {shop : ℕ} {owed : ℕ → ℕ → ℚ} {s : Staff} {b : ℕ} {upTo : ℤ}

/-- What is due in the payouts is what is due up to their end: each sale lies in one of them. -/
theorem sum_periodDue (h : CommissionBooks t shop owed s) (hcovered : s.CoveredUpTo shop b upTo) :
    ((s.payrolls b).payouts.sum fun _ p =>
      if p.periodEnd ≤ upTo then s.periodDue t shop b p else 0) = s.commissionDue t shop b upTo := by
  have hswap : ((s.payrolls b).payouts.sum fun _ p =>
      if p.periodEnd ≤ upTo then s.periodDue t shop b p else 0) =
        s.db.sales.sum fun id sale => (s.payrolls b).payouts.sum fun _ p =>
          if (decide (p.periodEnd ≤ upTo) && p.covers sale.commissionDate) = true then
            t.due shop b id sale else 0 := by
    refine (Table.sum_congr fun i p _ => ?_).trans (Table.sum_list_comm (s.payrolls b).payouts
      s.db.sales.rows fun _ p row =>
        if (decide (p.periodEnd ≤ upTo) && p.covers row.2.commissionDate) = true then
          t.due shop b row.1 row.2 else 0)
    by_cases hend : p.periodEnd ≤ upTo
    · simp [hend, Staff.periodDue, Table.sum]
    · simp [hend]
  rw [hswap]
  refine Table.sum_congr fun id sale hsale => ?_
  rw [Table.sum_unique]
  · by_cases hdue : t.due shop b id sale = 0
    · simp [hdue]
    · have hpaid : sale.paidTo shop b = true := by
        by_contra hnot
        exact hdue (if_neg hnot)
      refine if_congr ⟨fun hany => ?_, fun hle => ?_⟩ rfl rfl
      · obtain ⟨i, p, -, hp⟩ := Table.any_eq_true.1 hany
        rw [Bool.and_eq_true, decide_eq_true_eq, BarberPayout.covers_iff] at hp
        exact hp.2.2.trans hp.1
      · obtain ⟨i, p, hi, hend, hcovers⟩ := hcovered.sales hsale hpaid hle
        exact Table.any_eq_true.2 ⟨i, p, hi, by simp [hend, hcovers]⟩
  · intro i j p q hi hj hp hq
    rw [Bool.and_eq_true] at hp hq
    exact (h.ledger b).covers_unique hi hj hp.2 hq.2

/-- The adjustments, payout by payout; `w` weighs one. -/
theorem sum_adjustmentsUpTo (h : CommissionBooks t shop owed s) (w : CommissionAdjustment → ℚ) :
    ((s.adjustmentsUpTo b upTo).map w).sum =
      ((List.range (s.payrolls b).payouts.next).map fun i =>
        if ((s.payrolls b).payouts.get? i).any (fun p => decide (upTo < p.periodEnd)) = true then 0
        else ((s.adjustmentsOf b i).map w).sum).sum := by
  have hlt : ∀ a ∈ s.adjustmentsUpTo b upTo, a.payoutId < (s.payrolls b).payouts.next := by
    intro a ha
    obtain ⟨ha, hof⟩ := List.mem_filter.1 ha
    rw [Bool.and_eq_true, beq_iff_eq] at hof
    exact hof.1 ▸ (h.written a ha).1
  rw [Lib.sum_eq_sum_groups w hlt]
  refine congrArg List.sum (List.map_congr_left fun i _ => ?_)
  rw [Staff.adjustmentsUpTo, List.filter_filter, Staff.adjustmentsOf]
  split
  · next hlater =>
    have hnil : (s.adjustments.filter fun a => a.payoutId == i && (a.barberId == b &&
        !((s.payrolls b).payouts.get? a.payoutId).any fun p => decide (upTo < p.periodEnd))) = [] := by
      rw [List.filter_eq_nil_iff]
      intro a _ ha
      simp only [Bool.and_eq_true, beq_iff_eq] at ha
      obtain ⟨rfl, -, hnot⟩ := ha
      rw [hlater] at hnot
      cases hnot
    rw [hnil]
    rfl
  · next hnot =>
    refine congrArg (fun l => (List.map w l).sum) (List.filter_congr fun a _ => ?_)
    rw [Bool.not_eq_true] at hnot
    by_cases hi : a.payoutId = i
    · simp [hi, hnot]
    · have hne : (a.payoutId == i) = false := beq_false_of_ne hi
      rw [hne, Bool.false_and, Bool.and_false]

/-- Of the payouts, up to then, that are still there. -/
theorem sum_payouts (w : ℕ → ℚ) :
    ((s.payrolls b).payouts.sum fun i p => if p.periodEnd ≤ upTo then w i else 0) =
      ((List.range (s.payrolls b).payouts.next).map fun i =>
        ((s.payrolls b).payouts.get? i).elim 0 fun p =>
          if p.periodEnd ≤ upTo then w i else 0).sum := by
  have hkeys := Table.sum_keys (s.payrolls b).payouts
    (fun i p => if p.periodEnd ≤ upTo then w i else 0)
    (List.nodup_range (n := (s.payrolls b).payouts.next))
  refine (Table.sum_congr fun i p hi => ?_).trans hkeys
  rw [if_pos (List.mem_range.2 (Table.lt_next_of_get? hi))]

/-- What the adjustments about payouts that are gone add up to is nothing. -/
theorem sum_adjusted (h : CommissionBooks t shop owed s) :
    ((s.payrolls b).payouts.sum fun i p => if p.periodEnd ≤ upTo then s.adjusted b i else 0) =
      ((s.adjustmentsUpTo b upTo).map (·.amount)).sum := by
  rw [sum_payouts, h.sum_adjustmentsUpTo]
  refine congrArg List.sum (List.map_congr_left fun i _ => ?_)
  cases hi : (s.payrolls b).payouts.get? i with
  | none => exact (h.undone hi).symm
  | some p =>
    by_cases hend : p.periodEnd ≤ upTo
    · simp [hend, not_lt.2 hend, Staff.adjusted]
    · simp [hend, not_le.1 hend]

theorem sum_length_adjustmentsOf (h : CommissionBooks t shop owed s) :
    ((s.payrolls b).payouts.sum fun i p =>
      if p.periodEnd ≤ upTo then ((s.adjustmentsOf b i).length : ℚ) else 0) ≤
        (s.adjustmentsUpTo b upTo).length := by
  have hone : ∀ l : List CommissionAdjustment, (l.map fun _ => (1 : ℚ)).sum = l.length := by
    intro l
    simp
  rw [sum_payouts, ← hone (s.adjustmentsUpTo b upTo), h.sum_adjustmentsUpTo]
  refine List.sum_le_sum fun i _ => ?_
  rw [hone]
  cases hi : (s.payrolls b).payouts.get? i with
  | none => simp
  | some p =>
    by_cases hend : p.periodEnd ≤ upTo
    · simp [hend, not_lt.2 hend]
    · simp [hend, not_le.1 hend]

/-- Adjustments that are in payouts are paid. -/
theorem adjustmentsPaid_eq (h : CommissionBooks t shop owed s)
    (hcovered : s.CoveredUpTo shop b upTo) :
    s.adjustmentsPaid b upTo = ((s.adjustmentsUpTo b upTo).map (·.amount)).sum := by
  have hof : ∀ a ∈ s.adjustmentsUpTo b upTo, a ∈ s.adjustments ∧ a.barberId = b := by
    intro a ha
    obtain ⟨ha, hfilter⟩ := List.mem_filter.1 ha
    rw [Bool.and_eq_true, beq_iff_eq] at hfilter
    exact ⟨ha, hfilter.1⟩
  have hnodup : (s.adjustmentIds b upTo).Nodup := by
    have hpairs : ((s.adjustmentsUpTo b upTo).map fun a => (a.barberId, a.entryId)).Nodup :=
      h.distinct.sublist (List.filter_sublist.map _)
    have hmap : ((s.adjustmentsUpTo b upTo).map fun a => (a.barberId, a.entryId)) =
        (s.adjustmentIds b upTo).map (b, ·) := by
      rw [Staff.adjustmentIds, List.map_map]
      exact List.map_congr_left fun a ha => by rw [(hof a ha).2]; rfl
    exact (hmap ▸ hpairs).of_map
  have hpaid : s.adjustmentsPaid b upTo = (s.payrolls b).entries.sum fun id e =>
      if id ∈ s.adjustmentIds b upTo then e.signed else 0 := by
    refine Table.sum_congr fun id e hget => ?_
    split
    · next hid => rw [if_pos (hcovered.adjustments hid hget)]
    · rfl
  rw [hpaid, Table.sum_keys (s.payrolls b).entries (fun _ e => e.signed) hnodup, Staff.adjustmentIds, List.map_map]
  refine congrArg List.sum (List.map_congr_left fun a ha => ?_)
  obtain ⟨hmem, rfl⟩ := hof a ha
  obtain ⟨-, e, he, -, hsigned⟩ := h.written a hmem
  rw [Function.comp_apply, he, Option.elim_some, hsigned]

end CommissionBooks

section Totals

variable {t : CommissionTerms} {shop : ℕ} {s : Staff} {b : ℕ} {upTo : ℤ}

theorem Staff.paidCommission_eq : s.paidCommission b upTo =
    (s.payrolls b).payouts.sum fun _ p => if p.periodEnd ≤ upTo then p.commission else 0 := by
  refine (Table.sum_filter (s.payrolls b).payouts _ fun _ p => p.commission).trans ?_
  exact Table.sum_congr fun i p _ => if_congr (decide_eq_true_iff) rfl rfl

theorem Staff.length_payoutsUpTo : ((s.payoutsUpTo b upTo).length : ℚ) =
    (s.payrolls b).payouts.sum fun _ p => if p.periodEnd ≤ upTo then 1 else 0 := by
  refine (Table.length_filter (s.payrolls b).payouts _).trans ?_
  exact Table.sum_congr fun i p _ => if_congr (decide_eq_true_iff) rfl rfl

/-- Books that nothing is owed in are settled. -/
theorem CommissionKept.paidOnce (h : CommissionKept t shop s)
    (hcovered : s.CoveredUpTo shop b upTo) : s.CommissionPaidOnce t shop b upTo := by
  have hpayout : ∀ i p, (s.payrolls b).payouts.get? i = some p →
      |if p.periodEnd ≤ upTo then p.commission + s.adjusted b i - s.periodDue t shop b p else 0| ≤
        1 / 100 * ((if p.periodEnd ≤ upTo then 1 else 0) +
          if p.periodEnd ≤ upTo then ((s.adjustmentsOf b i).length : ℚ) else 0) := by
    intro i p hi
    have hclose := h.close hi
    rw [sub_zero] at hclose
    split
    · linarith
    · simp
  have hupper := Table.sum_le_sum fun i p hi => (abs_le.1 (hpayout i p hi)).2
  have hlower := Table.sum_nonneg fun i p hi => neg_le_iff_add_nonneg'.1 (abs_le.1 (hpayout i p hi)).1
  have hbound : ((s.payrolls b).payouts.sum fun i p => 1 / 100 *
      ((if p.periodEnd ≤ upTo then 1 else 0) +
        if p.periodEnd ≤ upTo then ((s.adjustmentsOf b i).length : ℚ) else 0)) ≤
          ((s.payoutsUpTo b upTo).length + (s.adjustmentsUpTo b upTo).length) / 100 := by
    have hlengths : _ ≤ ((s.adjustmentsUpTo b upTo).length : ℚ) := h.sum_length_adjustmentsOf
    rw [Table.sum_mul_left, Table.sum_add, ← Staff.length_payoutsUpTo]
    linarith
  have htotal : ((s.payrolls b).payouts.sum fun i p => if p.periodEnd ≤ upTo then
      p.commission + s.adjusted b i - s.periodDue t shop b p else 0) =
        s.paidCommission b upTo + s.adjustmentsPaid b upTo - s.commissionDue t shop b upTo := by
    rw [h.adjustmentsPaid_eq hcovered, ← h.sum_adjusted, ← h.sum_periodDue hcovered,
      Staff.paidCommission_eq, ← Table.sum_add, ← Table.sum_sub]
    refine Table.sum_congr fun i p _ => ?_
    by_cases hend : p.periodEnd ≤ upTo <;> simp [hend]
  rw [htotal] at hupper
  rw [Table.sum_add, htotal] at hlower
  rw [Staff.CommissionPaidOnce, abs_le]
  constructor <;> linarith

end Totals

/-! ## Runs -/

/-- A staff without entries and payouts yet. -/
def Staff.initial (db : Db) (configs : ℕ → Option BarberPayConfig) : Staff where
  db := db
  payrolls b := .initial (configs b) db.cashSessions
  adjustments := []

section Runs

variable {cat : Catalog} {t : CommissionTerms} {cal : ShopCalendar} {shop : ℕ}

theorem commissionKept_initial (db : Db) (configs : ℕ → Option BarberPayConfig) :
    CommissionKept t shop (.initial db configs) where
  ledger _ := LedgerBooks.empty
  written _ ha := by cases ha
  distinct := List.nodup_nil
  undone _ := rfl
  close hi := by cases hi

theorem StaffRequest.exec_commission {r : StaffRequest} {ctx : Caller} {s s' : Staff}
    (h : CommissionKept t ctx.shop.id s) (hkeeps : r.keepsCommission t ctx s = true)
    (hexec : r.exec cat t cal ctx s = .ok s') : CommissionKept t ctx.shop.id s' := by
  cases r with
  | createSale data => exact createSale_commission h hkeeps hexec
  | updateSale saleId data => exact updateSale_commission h hkeeps hexec
  | deleteSale saleId => exact deleteSale_commission h hkeeps hexec
  | pay barberId data => exact pay_commission h hexec
  | undoPayout barberId payoutId => exact undoPayout_commission h hkeeps hexec

theorem staffService_keeps {s s' : Staff} {r : Caller × StaffRequest} (h : CommissionKept t shop s)
    (hkeeps : r.2.keepsCommission t r.1 s = true)
    (hstep : (staffService cat t cal shop).step s r = some s') : CommissionKept t shop s' := by
  obtain ⟨rfl, hexec⟩ := Option.ite_none_right_eq_some.1 hstep
  exact StaffRequest.exec_commission h hkeeps (toOption_eq_some.1 hexec)

end Runs

/-! ## Two runs -/

/-- Half of every item, and nothing for sessions. -/
def halfOfItems : CommissionTerms where
  rules := [⟨none, none, 50⟩]
  session _ _ := 0

/-- A catalog with one professional. -/
def oneBarber : Catalog where
  services _ := none
  products _ := none
  serviceHistories _ := none
  barbers := Table.empty.insert {
    barbershopId := 1
    userId := none
    professionalId := none
    bookable := true
    isActive := true
    accessStartsAt := none
    accessEndsAt := none }

/-- A paid haircut by that professional. -/
def barberSale (price : ℚ) : SaleInput :=
  { haircutSale none price with
    barberId := some 1
    paymentMethod := some .pix }

/-- A sale of a paid period is edited, and the next period takes the deduction. -/
def editedAfterPay : List (Caller × StaffRequest) :=
  [(owner (5 * DAY_MS), .createSale (barberSale 100)),
    (owner (10 * DAY_MS), .pay 1 ⟨some 0, some 9, .pix⟩),
    (owner (11 * DAY_MS), .updateSale 1 { SalePatch.none with
      items := some [haircut 80]
      subtotal := some 80
      total := some 80 }),
    (owner (12 * DAY_MS), .createSale (barberSale 40)),
    (owner (20 * DAY_MS), .pay 1 ⟨some 10, some 19, .pix⟩)]

/-- A period that ends today is paid, and then a sale of the same day comes in. -/
def soldAfterPay : List (Caller × StaffRequest) :=
  [(owner (5 * DAY_MS + 10), .createSale (barberSale 100)),
    (owner (5 * DAY_MS + 20), .pay 1 ⟨some 0, some 5, .pix⟩),
    (owner (5 * DAY_MS + 30), .createSale (barberSale 100)),
    (owner (7 * DAY_MS), .pay 1 ⟨some 6, some 6, .pix⟩)]

end Barbershop
