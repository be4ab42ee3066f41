import Barbershop.Payroll.Commission
import Barbershop.Payroll.Ledger

/-!
# Commission is paid once

The requests of a unit one after the other. `StaffRequest.keepsCommission` is what a request has to
meet: no sale is paid at a moment in a period that its professional was already paid for, no payout
is undone while the adjustments about it add up to something, and no adjustment is lost to the
rounding. Then what payouts and adjustments pay for the days they cover is the commission of the
paid sales of those days, to the cent for each payout and each adjustment.
-/

namespace Barbershop

open Lib

/-! ## What a sale gives -/

namespace CommissionTerms

variable (t : CommissionTerms)

/-- The commission of items sold with a discount. -/
def worth (barberId saleId : ℕ) (items : List SaleItem) (discount : ℚ) : ℚ :=
  (t.addItems barberId saleId items discount .zero).totalCommission

/-- The commission of a sale for a professional; 0 if it is not paid or not his. -/
def due (shop barberId saleId : ℕ) (sale : Sale) : ℚ :=
  if sale.paidTo shop barberId = true then t.worth barberId saleId sale.items sale.discountAmount
  else 0

variable {t} {shop barberId saleId : ℕ}

theorem totalCommission_addItem (factor : ℚ) (acc : CommissionTotals) (item : SaleItem) :
    (t.addItem barberId saleId factor acc item).totalCommission =
      acc.totalCommission + (t.addItem barberId saleId factor .zero item).totalCommission := by
  unfold addItem CommissionTotals.totalCommission CommissionTotals.zero
  by_cases hcovered : 0 < t.covered saleId item
  · simp only [hcovered, if_true]
    ring
  · by_cases hproduct : item.itemType = .product
    · simp only [hcovered, hproduct, if_true, if_false]
      ring
    · simp only [hcovered, hproduct, if_false]
      ring

theorem totalCommission_addItems (items : List SaleItem) (discount : ℚ) (acc : CommissionTotals) :
    (t.addItems barberId saleId items discount acc).totalCommission =
      acc.totalCommission + t.worth barberId saleId items discount := by
  unfold worth addItems
  generalize commissionFactor items discount = factor
  induction items generalizing acc with
  | nil => simp [CommissionTotals.totalCommission, CommissionTotals.zero]
  | cons item items ih =>
    rw [List.foldl_cons, List.foldl_cons, ih, ih (t.addItem barberId saleId factor .zero item),
      totalCommission_addItem]
    ring

theorem totalCommission_addSale (acc : CommissionTotals) (row : ℕ × Sale) :
    (t.addSale barberId acc row).totalCommission =
      acc.totalCommission + t.worth barberId row.1 row.2.items row.2.discountAmount := by
  unfold addSale
  rw [totalCommission_addItems]
  split <;> rfl

theorem totalCommission_rowOf (sales : List (ℕ × Sale)) :
    (t.rowOf barberId sales).elim 0 (·.totalCommission) =
      (sales.map fun row => t.worth barberId row.1 row.2.items row.2.discountAmount).sum := by
  have hfold : ∀ (sales : List (ℕ × Sale)) (acc : CommissionTotals),
      (sales.foldl (t.addSale barberId) acc).totalCommission = acc.totalCommission +
        (sales.map fun row => t.worth barberId row.1 row.2.items row.2.discountAmount).sum := by
    intro sales
    induction sales with
    | nil => exact fun _ => (add_zero _).symm
    | cons row sales ih =>
      intro acc
      rw [List.foldl_cons, ih, totalCommission_addSale, List.map_cons, List.sum_cons, add_assoc]
  cases sales with
  | nil => rfl
  | cons row sales =>
    refine (hfold (row :: sales) .zero).trans ?_
    simp [CommissionTotals.totalCommission, CommissionTotals.zero]

/-- What a payout stores as commission, before it is rounded. -/
theorem computeCommissions_total (start stop : ℤ) (sales : Table Sale) :
    (t.computeCommissions shop barberId start stop sales).elim 0 (·.totalCommission) =
      sales.sum fun id sale => if start ≤ sale.commissionDate ∧ sale.commissionDate ≤ stop then
        t.due shop barberId id sale else 0 := by
  rw [computeCommissions, totalCommission_rowOf,
    Table.sum_filter sales _ fun id sale => t.worth barberId id sale.items sale.discountAmount]
  refine Table.sum_congr fun id sale _ => ?_
  by_cases hpaid : sale.paidTo shop barberId = true <;> simp [due, hpaid]

theorem saleCommission_eq (sales : Table Sale) :
    t.saleCommission shop saleId barberId sales =
      round2 ((sales.get? saleId).elim 0 (t.due shop barberId saleId)) := by
  rw [saleCommission, totalCommission_rowOf,
    Table.sum_filter sales _ fun id sale => t.worth barberId id sale.items sale.discountAmount]
  have hrow : ∀ id sale, (if (sale.paidTo shop barberId && id == saleId) = true then
      t.worth barberId id sale.items sale.discountAmount else 0) =
        if id = saleId then t.due shop barberId saleId sale else 0 := by
    intro id sale
    by_cases hid : id = saleId
    · subst hid
      simp [due]
    · simp [hid]
  simp only [hrow]
  rw [Table.sum_single sales saleId fun _ sale => t.due shop barberId saleId sale]

end CommissionTerms

/-! ## What a request has to meet -/

namespace Staff

variable (t : CommissionTerms) (shop : ℕ) (s : Staff)

/-- The adjustments about a payout. -/
def adjustmentsOf (barberId payoutId : ℕ) : List CommissionAdjustment :=
  s.adjustments.filter fun a => a.barberId == barberId && a.payoutId == payoutId

def adjusted (barberId payoutId : ℕ) : ℚ :=
  ((s.adjustmentsOf barberId payoutId).map (·.amount)).sum

/-- A difference of commissions that is none once they are rounded is none at all. -/
def noneLost (before after : ℚ) : Bool :=
  decide (round2 after = round2 before → after = before)

/-- An edit that takes a sale from `before` to `after`. -/
def keepsEdit (saleId : ℕ) (before after : Sale) : Bool :=
  ((s.paidCommissionPayout before).all fun l =>
    noneLost (t.due shop l.1 saleId before) (t.due shop l.1 saleId after)) &&
  (s.paidCommissionPayout after).all fun l =>
    if after.barberId = before.barberId then
      before.paymentStatus == .paid || t.due shop l.1 saleId after == 0
    else noneLost 0 (t.due shop l.1 saleId after)

end Staff

/-- What an edit makes of the columns that commissions go by. -/
def Sale.edited (sale : Sale) (data : SalePatch) (now : ℤ) : Sale :=
  { sale with
    barberId := data.barberId.or sale.barberId
    discountAmount := data.discountAmount.getD sale.discountAmount
    paymentStatus := data.paymentStatus.getD sale.paymentStatus
    paidAt := if data.paymentStatus = some .paid ∧ sale.paymentStatus ≠ .paid then some now
      else sale.paidAt
    items := data.items.getD sale.items }

def StaffRequest.keepsCommission (t : CommissionTerms) (ctx : Caller) (s : Staff) :
    StaffRequest → Bool
  | createSale data => !data.paid || (ctx.ownBarberId <|> data.barberId).all fun b =>
      !((s.payrolls b).payouts.any fun _ p => p.covers ctx.now) ||
        t.worth b s.db.sales.next data.items (data.discountAmount.getD 0) == 0
  | updateSale saleId data => (s.saleOf ctx saleId).all fun sale =>
      s.keepsEdit t ctx.shop.id saleId sale (sale.edited data ctx.now)
  | deleteSale saleId => (s.saleOf ctx saleId).all fun sale =>
      (s.paidCommissionPayout sale).all fun l =>
        Staff.noneLost (t.due ctx.shop.id l.1 saleId sale) 0
  | pay _ _ => true
  | undoPayout barberId payoutId => s.adjusted barberId payoutId == 0

/-! ## The books -/

namespace Staff

variable (t : CommissionTerms) (shop : ℕ) (s : Staff)

/-- The commission of the paid sales of a payout's period, as they are now. -/
def periodDue (barberId : ℕ) (p : BarberPayout) : ℚ :=
  s.db.sales.sum fun id sale =>
    if p.covers sale.commissionDate = true then t.due shop barberId id sale else 0

end Staff

/-- `owed`: what an edit has changed of the commission of a paid period that no adjustment accounts
for yet. -/
structure CommissionBooks (t : CommissionTerms) (shop : ℕ) (owed : ℕ → ℕ → ℚ) (s : Staff) :
    Prop where
  ledger : ∀ b, LedgerBooks (s.payrolls b).entries (s.payrolls b).payouts
  written : ∀ a ∈ s.adjustments, a.payoutId < (s.payrolls a.barberId).payouts.next ∧
    ∃ e, (s.payrolls a.barberId).entries.get? a.entryId = some e ∧ e.isCarryOver = false ∧
      e.signed = a.amount
  distinct : (s.adjustments.map fun a => (a.barberId, a.entryId)).Nodup
  undone : ∀ {b i}, (s.payrolls b).payouts.get? i = none → s.adjusted b i = 0
  close : ∀ {b i p}, (s.payrolls b).payouts.get? i = some p →
    |p.commission + s.adjusted b i - (s.periodDue t shop b p - owed b i)| ≤
      1 / 200 + (s.adjustmentsOf b i).length / 100

/-! ### Dates and payouts -/

theorem BarberPayout.covers_iff {p : BarberPayout} {date : ℤ} :
    p.covers date = true ↔ p.periodStart ≤ date ∧ date ≤ p.periodEnd := by
  simp [BarberPayout.covers]

/-- Two payouts that cover a date are one. -/
theorem LedgerBooks.covers_unique {entries : Table BarberPayEntry} {payouts : Table BarberPayout}
    (h : LedgerBooks entries payouts) {i j : ℕ} {p q : BarberPayout} {date : ℤ}
    (hi : payouts.get? i = some p) (hj : payouts.get? j = some q) (hp : p.covers date = true)
    (hq : q.covers date = true) : i = j := by
  by_contra hne
  have hapart := h.apart hne hi hj
  rw [BarberPayout.covers_iff] at hp hq
  have hoverlap : p.overlaps q.periodStart q.periodEnd = true := by
    simp only [BarberPayout.overlaps, Bool.and_eq_true, decide_eq_true_eq]
    omega
  simp [hapart] at hoverlap

namespace Staff

variable {t : CommissionTerms} {shop : ℕ} {s : Staff} {sale : Sale} {b i : ℕ} {p : BarberPayout}

theorem paidCommissionPayout_some (h : s.paidCommissionPayout sale = some (b, i)) :
    sale.barberId = some b ∧ sale.paymentStatus = .paid ∧
      ∃ p, (s.payrolls b).payouts.get? i = some p ∧ p.covers sale.commissionDate = true := by
  unfold paidCommissionPayout at h
  split at h
  · cases h
  · next barberId hbarber =>
    split at h
    · cases h
    · next hpaid =>
      obtain ⟨⟨j, p⟩, hfind, heq⟩ := Option.map_eq_some_iff.1 h
      obtain ⟨rfl, rfl⟩ := Prod.mk.inj heq
      exact ⟨hbarber, not_not.1 hpaid, p, Table.find?_some hfind⟩

/-- The payout that covers a paid sale of its professional is found. -/
theorem paidCommissionPayout_of_covers
    (h : LedgerBooks (s.payrolls b).entries (s.payrolls b).payouts)
    (hi : (s.payrolls b).payouts.get? i = some p) (hcovers : p.covers sale.commissionDate = true)
    (hbarber : sale.barberId = some b) (hpaid : sale.paymentStatus = .paid) :
    s.paidCommissionPayout sale = some (b, i) := by
  simp only [paidCommissionPayout, hbarber, hpaid, ne_eq, not_true_eq_false, if_false]
  cases hfind : (s.payrolls b).payouts.find? fun _ p => p.covers sale.commissionDate with
  | none => simp [Table.find?_none.1 hfind i p hi] at hcovers
  | some row =>
    obtain ⟨hj, hcovers'⟩ := Table.find?_some (k := row.1) (a := row.2) hfind
    rw [Option.map_some, h.covers_unique hj hi hcovers' hcovers]

theorem paid_of_due_ne_zero {saleId : ℕ} (h : t.due shop b saleId sale ≠ 0) :
    sale.barberId = some b ∧ sale.paymentStatus = .paid := by
  unfold CommissionTerms.due at h
  split at h
  · next hpaid =>
    simp only [Sale.paidTo, Bool.and_eq_true, beq_iff_eq] at hpaid
    exact ⟨hpaid.2, hpaid.1.2⟩
  · exact absurd rfl h

/-- What a sale gives in the period of a payout, it gives to the payout that is found for it. -/
theorem share_eq (h : LedgerBooks (s.payrolls b).entries (s.payrolls b).payouts)
    (hi : (s.payrolls b).payouts.get? i = some p) (saleId : ℕ) :
    (if p.covers sale.commissionDate = true then t.due shop b saleId sale else 0) =
      if s.paidCommissionPayout sale = some (b, i) then t.due shop b saleId sale else 0 := by
  by_cases hdue : t.due shop b saleId sale = 0
  · simp [hdue]
  · obtain ⟨hbarber, hpaid⟩ := paid_of_due_ne_zero hdue
    refine if_congr ⟨fun hcovers => ?_, fun hfound => ?_⟩ rfl rfl
    · exact paidCommissionPayout_of_covers h hi hcovers hbarber hpaid
    · obtain ⟨-, -, q, hq, hcovers⟩ := paidCommissionPayout_some hfound
      obtain rfl := Option.some.inj (hi.symm.trans hq)
      exact hcovers

end Staff

/-! ### Adjustments -/

theorem IsCents.abs {v : ℚ} (hv : IsCents v) : IsCents |v| := by
  rcases abs_choice v with h | h
  · rwa [h]
  · rw [h]
    exact hv.neg

section Adjustments

variable {delta : ℚ} (now : ℤ)

theorem adjustmentEntry_signed (h : IsCents delta) : (adjustmentEntry delta now).signed = delta := by
  unfold BarberPayEntry.signed adjustmentEntry
  by_cases hpos : 0 < delta
  · simp only [hpos, if_true]
    rw [h.abs.round2_eq, abs_of_pos hpos]
  · simp only [hpos, if_false]
    rw [h.abs.round2_eq, abs_of_nonpos (not_lt.1 hpos), neg_neg]

theorem adjustmentEntry_isCarryOver : (adjustmentEntry delta now).isCarryOver = false := by
  unfold BarberPayEntry.isCarryOver adjustmentEntry
  by_cases hpos : 0 < delta <;> simp [hpos]

/-- An amount of no cent is no difference. -/
theorem eq_zero_of_adjustmentEntry (h : IsCents delta)
    (hsmall : (adjustmentEntry delta now).amount < 1 / 100) : delta = 0 := by
  rw [adjustmentEntry, h.abs.round2_eq] at hsmall
  exact abs_nonpos_iff.1 (h.abs.nonpos_of_lt hsmall)

end Adjustments

/-- The difference of the roundings is near the difference. -/
theorem abs_round2_sub_le (v w : ℚ) : |round2 v - round2 w - (v - w)| ≤ 1 / 100 := by
  have := round2_sub_le v
  have := round2_sub_le w
  have := lt_round2_sub v
  have := lt_round2_sub w
  rw [abs_le]
  constructor <;> linarith

namespace CommissionBooks

variable {t : CommissionTerms} {shop : ℕ} {owed owed' : ℕ → ℕ → ℚ} {s : Staff}

/-- Sales change, and what they change of a paid period is owed. -/
theorem of_sales (h : CommissionBooks t shop owed s) (db : Db)
    (hdue : ∀ {b i p}, (s.payrolls b).payouts.get? i = some p →
      ({ s with db := db } : Staff).periodDue t shop b p - owed' b i =
        s.periodDue t shop b p - owed b i) :
    CommissionBooks t shop owed' { s with db := db } where
  ledger := h.ledger
  written := h.written
  distinct := h.distinct
  undone := h.undone
  close hi := by
    rw [hdue hi]
    exact h.close hi

theorem congr (h : CommissionBooks t shop owed s)
    (howed : ∀ {b i p}, (s.payrolls b).payouts.get? i = some p → owed' b i = owed b i) :
    CommissionBooks t shop owed' s :=
  h.of_sales s.db fun hi => by rw [howed hi]

/-- An adjustment pays what is owed, to the cent. -/
theorem adjust (h : CommissionBooks t shop owed s) {l : ℕ × ℕ} {p : BarberPayout}
    (hl : (s.payrolls l.1).payouts.get? l.2 = some p) {before after : ℚ}
    (hlost : Staff.noneLost before after = true) (now : ℤ) :
    CommissionBooks t shop (fun b i => owed b i - if (b, i) = l then after - before else 0)
      (s.commissionAdjustment l (round2 after - round2 before) now) := by
  have hcents : IsCents (round2 after - round2 before) :=
    (isCents_round2 after).sub (isCents_round2 before)
  unfold Staff.commissionAdjustment
  dsimp only
  split
  · next hsmall =>
    have hsame : after = before :=
      of_decide_eq_true hlost (sub_eq_zero.1 (eq_zero_of_adjustmentEntry now hcents hsmall))
    refine h.congr fun _ => ?_
    simp [hsame]
  · have hpayrolls : ∀ b, (Function.update s.payrolls l.1 { s.payrolls l.1 with
        entries := (s.payrolls l.1).entries.insert
          (adjustmentEntry (round2 after - round2 before) now) } b).payouts =
        (s.payrolls b).payouts := by
      intro b
      by_cases hb : b = l.1
      · subst hb
        rw [Function.update_self]
      · rw [Function.update_of_ne hb]
    refine {
      ledger := fun b => ?_
      written := ?_
      distinct := ?_
      undone := ?_
      close := ?_ }
    · by_cases hb : b = l.1
      · subst hb
        simp only [Function.update_self]
        exact (h.ledger l.1).insert rfl (adjustmentEntry_isCarryOver now) (isCents_round2 _)
      · simp only [Function.update_of_ne hb]
        exact h.ledger b
    · intro a ha
      dsimp only
      rw [hpayrolls]
      rcases List.mem_cons.1 ha with rfl | ha
      · refine ⟨Table.lt_next_of_get? hl, adjustmentEntry (round2 after - round2 before) now, ?_,
          adjustmentEntry_isCarryOver now, rfl⟩
        rw [Function.update_self]
        exact Table.get?_insert_self _ _
      · obtain ⟨hlt, e, he, hfacts⟩ := h.written a ha
        refine ⟨hlt, e, ?_, hfacts⟩
        by_cases hb : a.barberId = l.1
        · rw [hb, Function.update_self]
          exact Table.get?_insert_of_some _ (hb ▸ he)
        · rw [Function.update_of_ne hb]
          exact he
    · rw [List.map_cons, List.nodup_cons]
      refine ⟨fun hmem => ?_, h.distinct⟩
      obtain ⟨a, ha, heq⟩ := List.mem_map.1 hmem
      obtain ⟨hbarber, hentry⟩ := Prod.mk.inj heq
      obtain ⟨-, e, he, -⟩ := h.written a ha
      rw [hbarber, hentry, Table.get?_next] at he
      cases he
    · intro b i hi
      rw [hpayrolls] at hi
      have hne : ¬ (l.1 = b ∧ l.2 = i) := by
        rintro ⟨rfl, rfl⟩
        simp [hl] at hi
      have hundone := h.undone hi
      simpa [Staff.adjusted, Staff.adjustmentsOf, List.filter_cons, hne] using hundone
    · intro b i q hi
      rw [hpayrolls] at hi
      have hclose := h.close hi
      by_cases hbi : (b, i) = l
      · subst hbi
        have hnear := abs_round2_sub_le after before
        have hsigned := adjustmentEntry_signed now hcents
        simp only [Staff.adjusted, Staff.adjustmentsOf, List.filter_cons, beq_self_eq_true,
          Bool.and_self, if_true, List.map_cons, List.sum_cons, List.length_cons, hsigned]
        rw [Nat.cast_add, Nat.cast_one]
        simp only [Staff.adjusted, Staff.adjustmentsOf] at hclose
        rw [abs_le] at hclose hnear ⊢
        constructor <;> simp only [Staff.periodDue] at hclose ⊢ <;> linarith
      · have hne : ¬ (l.1 = b ∧ l.2 = i) := by
          rintro ⟨rfl, rfl⟩
          exact hbi rfl
        simpa [Staff.adjusted, Staff.adjustmentsOf, Staff.periodDue, List.filter_cons, hne, hbi]
          using hclose

/-- The payroll of one professional changes: no entry but carry-overs goes, no adjustment is about a
payout that goes, and what each payout stores is near what is due. -/
theorem setPayroll (h : CommissionBooks t shop owed s) {b₀ : ℕ} {p₀ : Payroll}
    (hledger : LedgerBooks p₀.entries p₀.payouts)
    (hentries : ∀ {id e}, (s.payrolls b₀).entries.get? id = some e → e.isCarryOver = false →
      ∃ e', p₀.entries.get? id = some e' ∧ e.Same e')
    (hnext : (s.payrolls b₀).payouts.next ≤ p₀.payouts.next)
    (hundone : ∀ {i}, p₀.payouts.get? i = none → s.adjusted b₀ i = 0)
    (hclose : ∀ {i p}, p₀.payouts.get? i = some p →
      |p.commission + s.adjusted b₀ i - (s.periodDue t shop b₀ p - owed b₀ i)| ≤
        1 / 200 + (s.adjustmentsOf b₀ i).length / 100) :
    CommissionBooks t shop owed (s.setPayroll b₀ p₀) where
  ledger b := by
    by_cases hb : b = b₀
    · subst hb
      simpa [Staff.setPayroll] using hledger
    · simpa [Staff.setPayroll, hb] using h.ledger b
  written a ha := by
    obtain ⟨hlt, e, he, hcarry, hsigned⟩ := h.written a ha
    by_cases hb : a.barberId = b₀
    · rw [hb] at hlt he
      obtain ⟨e', he', hsame⟩ := hentries he hcarry
      have hsigned' : e'.signed = a.amount := by
        rw [← hsigned, ← hsame]
        rfl
      refine ⟨?_, e', ?_, hsame.isCarryOver.trans hcarry, hsigned'⟩
      · simpa [Staff.setPayroll, hb] using hlt.trans_le hnext
      · simpa [Staff.setPayroll, hb] using he'
    · exact ⟨by simpa [Staff.setPayroll, hb] using hlt, e,
        by simpa [Staff.setPayroll, hb] using he, hcarry, hsigned⟩
  distinct := h.distinct
  undone {b i} hi := by
    by_cases hb : b = b₀
    · subst hb
      exact hundone (by simpa [Staff.setPayroll] using hi)
    · exact h.undone (by simpa [Staff.setPayroll, hb] using hi)
  close {b i p} hi := by
    by_cases hb : b = b₀
    · subst hb
      exact hclose (by simpa [Staff.setPayroll] using hi)
    · exact h.close (by simpa [Staff.setPayroll, hb] using hi)

/-- The adjustment of the professional and payout that were found, if they were. -/
theorem adjustLocked (h : CommissionBooks t shop owed s) {locked : Option (ℕ × ℕ)}
    (hl : ∀ l ∈ locked, ∃ p, (s.payrolls l.1).payouts.get? l.2 = some p) (before after : ℕ → ℚ)
    (hlost : (locked.all fun l => Staff.noneLost (before l.1) (after l.1)) = true)
    (delta : ℕ × ℕ → ℚ) (hdelta : ∀ l ∈ locked, delta l = round2 (after l.1) - round2 (before l.1))
    (now : ℤ) :
    CommissionBooks t shop
      (fun b i => owed b i - if locked = some (b, i) then after b - before b else 0)
      (locked.elim s fun l => s.commissionAdjustment l (delta l) now) := by
  cases locked with
  | none => exact h.congr fun _ => by simp
  | some l =>
    obtain ⟨p, hp⟩ := hl l rfl
    rw [Option.elim_some, hdelta l rfl]
    refine (h.adjust hp hlost now).congr fun {b i p} _ => ?_
    by_cases hbi : (b, i) = l
    · subst hbi
      simp
    · have hne : ¬ some l = some (b, i) := fun heq => hbi (Option.some.inj heq).symm
      simp [hbi, hne]

end CommissionBooks

/-! ## The steps -/

/-- Nothing is owed. -/
def CommissionKept (t : CommissionTerms) (shop : ℕ) (s : Staff) : Prop :=
  CommissionBooks t shop (fun _ _ => 0) s

section Steps

variable {cat : Catalog} {t : CommissionTerms} {cal : ShopCalendar} {ctx : Caller} {s s' : Staff}

theorem prepareSale_data {data : SaleInput} {reads : SaleRead → Db} {plan : SalePlan}
    (h : prepareSale cat ctx data reads = .ok plan) :
    plan.data = data ∧ plan.barberId = (ctx.ownBarberId <|> data.barberId) := by
  simp only [prepareSale, bind_eq_ok, exists_punit, pure_eq_ok] at h
  obtain ⟨-, -, -, -, -, -, -, -, -, -, -, -, -, -, -, -, -, -, -, -, -, -, -, -, rfl⟩ := h
  exact ⟨rfl, rfl⟩

theorem createSale_commission {data : SaleInput} (h : CommissionKept t ctx.shop.id s)
    (hkeeps : (StaffRequest.createSale data).keepsCommission t ctx s = true)
    (hexec : s.createSale cat ctx data = .ok s') : CommissionKept t ctx.shop.id s' := by
  simp only [Staff.createSale, Barbershop.createSale, bind_eq_ok, pure_eq_ok] at hexec
  obtain ⟨db, ⟨plan, hplan, hcommit⟩, rfl⟩ := hexec
  obtain ⟨hdata, hbarber⟩ := prepareSale_data hplan
  obtain ⟨_, _, _, _, -, -, -, -, rfl⟩ := commitSale_ok hcommit
  refine h.of_sales _ fun {b i p} hi => ?_
  have hnew : (if p.covers (plan.sale ctx).commissionDate = true then
      t.due ctx.shop.id b s.db.sales.next (plan.sale ctx) else 0) = 0 := by
    rw [Staff.share_eq (h.ledger b) hi]
    split
    · next hfound =>
      obtain ⟨hb, hpaid, q, hq, hcovers⟩ := Staff.paidCommissionPayout_some hfound
      have hstatus : data.paid = true := by
        simp only [SalePlan.sale, hdata] at hpaid
        unfold SaleInput.paid
        cases hs : data.paymentStatus with
        | none => simp [hs] at hpaid
        | some status => simpa [hs] using hpaid
      have hdate : (plan.sale ctx).commissionDate = ctx.now := by
        simp [Sale.commissionDate, SalePlan.sale, hdata, hstatus]
      have hof : (ctx.ownBarberId <|> data.barberId) = some b := hbarber.symm.trans hb
      have hany : ((s.payrolls b).payouts.any fun _ p => p.covers ctx.now) = true :=
        Table.any_eq_true.2 ⟨i, q, hq, hdate ▸ hcovers⟩
      simp only [StaffRequest.keepsCommission, hstatus, hof, Option.all_some, hany, Bool.not_true,
        Bool.false_or, beq_iff_eq] at hkeeps
      unfold CommissionTerms.due
      split
      · simpa [SalePlan.sale, hdata] using hkeeps
      · rfl
    · rfl
  simp only [Staff.periodDue, Table.sum_insert]
  rw [hnew, add_zero]

theorem deleteSale_commission {saleId : ℕ} (h : CommissionKept t ctx.shop.id s)
    (hkeeps : (StaffRequest.deleteSale saleId).keepsCommission t ctx s = true)
    (hexec : s.deleteSale t ctx saleId = .ok s') : CommissionKept t ctx.shop.id s' := by
  simp only [Staff.deleteSale, bind_eq_ok, pure_eq_ok] at hexec
  obtain ⟨db, hdelete, rfl⟩ := hexec
  obtain ⟨sale, _, _, _, hcheck, -, -, -, hdb⟩ := deleteSale_ok hdelete
  obtain ⟨hsale, hshop, -, -⟩ := checkDelete_ok hcheck
  have hof : s.saleOf ctx saleId = some sale := by
    simp [Staff.saleOf, hsale, hshop]
  have hsales : db.sales = s.db.sales.erase saleId := by
    rw [hdb]
  -- what the sale gave to the payout that was found for it is owed
  have howed : CommissionBooks t ctx.shop.id (fun b i =>
      if s.paidCommissionPayout sale = some (b, i) then -t.due ctx.shop.id b saleId sale else 0)
      { s with db := db } := by
    refine h.of_sales db fun {b i p} hi => ?_
    have hsplit := Table.sum_eq_add_erase (fun id sale =>
      if p.covers sale.commissionDate = true then t.due ctx.shop.id b id sale else 0) hsale
    rw [Staff.share_eq (h.ledger b) hi] at hsplit
    simp only [Staff.periodDue, hsales]
    rw [hsplit]
    split <;> ring
  simp only [StaffRequest.keepsCommission, hof, Option.all_some] at hkeeps
  rw [hof, Option.bind_some]
  cases hlocked : s.paidCommissionPayout sale with
  | none => exact howed.congr fun _ => by simp [hlocked]
  | some l =>
    obtain ⟨b₀, i₀⟩ := l
    obtain ⟨-, -, p₀, hp₀, -⟩ := Staff.paidCommissionPayout_some hlocked
    rw [hlocked, Option.all_some] at hkeeps
    dsimp only at hkeeps
    have hcommission : s.commissionOf t ctx saleId b₀ =
        round2 (t.due ctx.shop.id b₀ saleId sale) := by
      rw [Staff.commissionOf, CommissionTerms.saleCommission_eq, hsale, Option.elim_some]
    simp only [Option.elim_some, hcommission]
    split
    · next hzero =>
      have hnone : (0 : ℚ) = t.due ctx.shop.id b₀ saleId sale :=
        of_decide_eq_true hkeeps (by rw [hzero, round2_zero])
      refine howed.congr fun {b i p} _ => ?_
      split
      · next heq =>
        rw [hlocked] at heq
        obtain ⟨rfl, rfl⟩ := Prod.mk.inj (Option.some.inj heq)
        rw [← hnone, neg_zero]
      · rfl
    · have hadjust := howed.adjust (l := (b₀, i₀)) hp₀ hkeeps ctx.now
      rw [round2_zero, zero_sub (round2 _)] at hadjust
      refine hadjust.congr fun {b i p} _ => ?_
      rw [hlocked]
      by_cases hbi : (b, i) = (b₀, i₀)
      · obtain ⟨rfl, rfl⟩ := Prod.mk.inj hbi
        simp
      · have hne : ¬ some (b₀, i₀) = some (b, i) := fun heq => hbi (Option.some.inj heq).symm
        simp [hbi, hne]

theorem Staff.db_commissionAdjustment (l : ℕ × ℕ) (delta : ℚ) (now : ℤ) :
    (s.commissionAdjustment l delta now).db = s.db := by
  unfold Staff.commissionAdjustment
  dsimp only
  split <;> rfl

/-- An adjustment leaves the payouts alone. -/
theorem Staff.paidCommissionPayout_commissionAdjustment (l : ℕ × ℕ) (delta : ℚ) (now : ℤ)
    (sale : Sale) :
    (s.commissionAdjustment l delta now).paidCommissionPayout sale = s.paidCommissionPayout sale := by
  unfold Staff.commissionAdjustment
  dsimp only
  split
  · rfl
  · unfold Staff.paidCommissionPayout
    cases hbarber : sale.barberId with
    | none => rfl
    | some b =>
      by_cases hb : b = l.1
      · subst hb
        simp only [Function.update_self]
      · simp only [Function.update_of_ne hb]

/-- So do the adjustments of a payout that may have been found. -/
theorem Staff.elim_commissionAdjustment (locked : Option (ℕ × ℕ)) (delta : ℕ × ℕ → ℚ) (now : ℤ) :
    (locked.elim s fun l => s.commissionAdjustment l (delta l) now).db = s.db ∧
      ∀ sale, (locked.elim s fun l => s.commissionAdjustment l (delta l) now).paidCommissionPayout
        sale = s.paidCommissionPayout sale := by
  cases locked with
  | none => exact ⟨rfl, fun _ => rfl⟩
  | some l => exact ⟨db_commissionAdjustment .., fun _ =>
      paidCommissionPayout_commissionAdjustment ..⟩

section Edit

variable {saleId : ℕ} {before after : Sale}

/-- What an edit leaves for the professional who takes over the sale. -/
theorem owed_after_lock (h : CommissionKept t ctx.shop.id s)
    (hdate : before.paymentStatus = .paid → after.commissionDate = before.commissionDate)
    (hkeeps : s.keepsEdit t ctx.shop.id saleId before after = true) (b i : ℕ) :
    ((if s.paidCommissionPayout after = some (b, i) then t.due ctx.shop.id b saleId after else 0) -
        (if s.paidCommissionPayout before = some (b, i) then t.due ctx.shop.id b saleId before
          else 0)) -
        (if s.paidCommissionPayout before = some (b, i) then
          t.due ctx.shop.id b saleId after - t.due ctx.shop.id b saleId before else 0) =
      if s.paidCommissionPayout after = some (b, i) ∧ after.barberId ≠ before.barberId then
        t.due ctx.shop.id b saleId after else 0 := by
  by_cases hlocked : s.paidCommissionPayout before = some (b, i)
  · obtain ⟨hbarber, hpaid, q, hq, hcovers⟩ := Staff.paidCommissionPayout_some hlocked
    by_cases hfound : s.paidCommissionPayout after = some (b, i)
    · have hsame : after.barberId = before.barberId :=
        (Staff.paidCommissionPayout_some hfound).1.trans hbarber.symm
      simp only [hlocked, hfound, hsame, if_true, ne_eq, not_true_eq_false, and_false, if_false]
      ring
    · have hzero : t.due ctx.shop.id b saleId after = 0 := by
        by_contra hne
        obtain ⟨hbarber', hpaid'⟩ := Staff.paid_of_due_ne_zero hne
        exact hfound (Staff.paidCommissionPayout_of_covers (h.ledger b) hq (hdate hpaid ▸ hcovers)
          hbarber' hpaid')
      simp [hlocked, hzero]
  · rw [if_neg hlocked, if_neg hlocked, sub_zero, sub_zero]
    by_cases hfound : s.paidCommissionPayout after = some (b, i)
    · obtain ⟨hbarber, hpaid, q, hq, hcovers⟩ := Staff.paidCommissionPayout_some hfound
      by_cases hsame : after.barberId = before.barberId
      · rw [Staff.keepsEdit, Bool.and_eq_true, hfound, Option.all_some, if_pos hsame,
          Bool.or_eq_true, beq_iff_eq, beq_iff_eq] at hkeeps
        have hzero : t.due ctx.shop.id b saleId after = 0 := by
          rcases hkeeps.2 with hpaid' | hzero
          · exact absurd (Staff.paidCommissionPayout_of_covers (h.ledger b) hq
              (hdate hpaid' ▸ hcovers) (hsame ▸ hbarber) hpaid') hlocked
          · exact hzero
        simp [hzero]
      · simp [hfound, hsame]
    · simp [hfound]

theorem adjustEdit_commission (h : CommissionKept t ctx.shop.id s) {db : Db} {f : Sale → Sale}
    (hget : s.db.sales.get? saleId = some before)
    (hsales : db.sales = s.db.sales.modify saleId f) (hafter : f before = after)
    (hdate : before.paymentStatus = .paid → after.commissionDate = before.commissionDate)
    (hkeeps : s.keepsEdit t ctx.shop.id saleId before after = true) :
    CommissionKept t ctx.shop.id (Staff.adjustEdit t ctx { s with db := db } saleId (some before)
      (s.paidCommissionPayout before)
      ((s.paidCommissionPayout before).elim 0 fun l => s.commissionOf t ctx saleId l.1)) := by
  have hget' : db.sales.get? saleId = some after := by
    rw [hsales, Table.get?_modify_self, hget, Option.map_some, hafter]
  have howed : CommissionBooks t ctx.shop.id (fun b i =>
      (if s.paidCommissionPayout after = some (b, i) then t.due ctx.shop.id b saleId after else 0) -
        if s.paidCommissionPayout before = some (b, i) then t.due ctx.shop.id b saleId before else 0)
      { s with db := db } := by
    refine h.of_sales db fun {b i p} hi => ?_
    have hmodify := Table.sum_modify f (fun id sale =>
      if p.covers sale.commissionDate = true then t.due ctx.shop.id b id sale else 0) hget
    rw [hafter, Staff.share_eq (h.ledger b) hi, Staff.share_eq (h.ledger b) hi] at hmodify
    simp only [Staff.periodDue, hsales]
    linarith
  have hkept := hkeeps
  rw [Staff.keepsEdit, Bool.and_eq_true] at hkept
  have hcommission : ∀ b, ({ s with db := db } : Staff).commissionOf t ctx saleId b =
      round2 (t.due ctx.shop.id b saleId after) := by
    intro b
    rw [Staff.commissionOf, CommissionTerms.saleCommission_eq, hget', Option.elim_some]
  have hbefore : ∀ b, s.commissionOf t ctx saleId b =
      round2 (t.due ctx.shop.id b saleId before) := by
    intro b
    rw [Staff.commissionOf, CommissionTerms.saleCommission_eq, hget, Option.elim_some]
  -- the professional who was paid for the sale gets the difference
  have hfirst := howed.adjustLocked
    (fun l hl => (Staff.paidCommissionPayout_some hl).2.2.imp fun _ hp => hp.1)
    (fun b => t.due ctx.shop.id b saleId before) (fun b => t.due ctx.shop.id b saleId after) hkept.1
    (fun l => ({ s with db := db } : Staff).commissionOf t ctx saleId l.1 -
      (s.paidCommissionPayout before).elim 0 fun l => s.commissionOf t ctx saleId l.1)
    (fun l hl => by rw [hcommission, Option.mem_def.1 hl, Option.elim_some, hbefore]) ctx.now
  obtain ⟨hdb, hpayout⟩ := Staff.elim_commissionAdjustment (s := { s with db := db })
    (s.paidCommissionPayout before) (fun l => ({ s with db := db } : Staff).commissionOf t ctx
      saleId l.1 - (s.paidCommissionPayout before).elim 0 fun l => s.commissionOf t ctx saleId l.1)
    ctx.now
  unfold Staff.adjustEdit
  generalize Option.elim (s.paidCommissionPayout before) ({ s with db := db } : Staff) _ = s₁
    at hfirst hdb hpayout ⊢
  have hfound : s₁.paidCommissionPayout after = s.paidCommissionPayout after := hpayout after
  have howed₁ := hfirst.congr fun {b i p} _ => (owed_after_lock h hdate hkeeps b i).symm
  dsimp only
  rw [hdb, hget']
  dsimp only
  split
  · next hsame =>
    refine howed₁.congr fun _ => ?_
    have hsame' : after.barberId = before.barberId := hsame
    simp [hsame']
  · next hother =>
    -- and the professional who takes it over gets its commission
    have hother' : after.barberId ≠ before.barberId := hother
    have hlost : ((s₁.paidCommissionPayout after).all fun l =>
        Staff.noneLost 0 (t.due ctx.shop.id l.1 saleId after)) = true := by
      simpa only [hfound, if_neg hother'] using hkept.2
    have hsecond := howed₁.adjustLocked
      (fun l hl => (Staff.paidCommissionPayout_some hl).2.2.imp fun _ hp => hp.1)
      (fun _ => 0) (fun b => t.due ctx.shop.id b saleId after) hlost
      (fun l => s₁.commissionOf t ctx saleId l.1) (fun l _ => by
        rw [Staff.commissionOf, hdb, CommissionTerms.saleCommission_eq, hget', Option.elim_some,
          round2_zero, sub_zero]) ctx.now
    refine hsecond.congr fun {b i p} _ => ?_
    rw [hfound]
    by_cases hbi : s.paidCommissionPayout after = some (b, i) <;> simp [hbi, hother']

end Edit

theorem updateSale_commission {saleId : ℕ} {data : SalePatch} (h : CommissionKept t ctx.shop.id s)
    (hkeeps : (StaffRequest.updateSale saleId data).keepsCommission t ctx s = true)
    (hexec : s.updateSale cat t ctx saleId data = .ok s') : CommissionKept t ctx.shop.id s' := by
  simp only [Staff.updateSale, bind_eq_ok, pure_eq_ok] at hexec
  obtain ⟨db, hupdate, rfl⟩ := hexec
  obtain ⟨e, rfl, hchecked, hcommit⟩ := updateSale_ok hupdate
  obtain ⟨sale, hsale, hdb⟩ := commitEdit_ok hcommit
  obtain rfl : e.existing = sale := Option.some.inj (hchecked.existing.symm.trans hsale)
  have hof : s.saleOf ctx saleId = some e.existing := by
    simp [Staff.saleOf, hsale, hchecked.ofShop]
  have hdate : (e.row ctx e.existing).commissionDate =
      (e.existing.edited e.data ctx.now).commissionDate := by
    simp [Sale.commissionDate, SaleEdit.row, Sale.edited, SaleEdit.becomesPaid]
  have hpayout : s.paidCommissionPayout (e.row ctx e.existing) =
      s.paidCommissionPayout (e.existing.edited e.data ctx.now) := by
    unfold Staff.paidCommissionPayout
    rw [hdate]
    rfl
  have hkept : s.keepsEdit t ctx.shop.id saleId e.existing (e.row ctx e.existing) = true := by
    simp only [StaffRequest.keepsCommission, hof, Option.all_some] at hkeeps
    unfold Staff.keepsEdit at hkeeps ⊢
    rw [hpayout]
    exact hkeeps
  rw [hof, Option.bind_some]
  refine adjustEdit_commission h hsale (by rw [hdb]) rfl (fun hpaid => ?_) hkept
  have hstays : ¬ e.becomesPaid := fun hbecomes => hbecomes.2 hpaid
  simp [Sale.commissionDate, SaleEdit.row, hstays]

theorem Payroll.dropPayout_kept {p : Payroll} {id : ℕ} {payout : BarberPayout}
    (h : LedgerBooks p.entries p.payouts) (hid : p.payouts.get? id = some payout) {c : ℕ}
    {e : BarberPayEntry} (hget : p.entries.get? c = some e) (hcarry : e.isCarryOver = false) :
    ∃ e', (p.dropPayout id payout).entries.get? c = some e' ∧ e.Same e' := by
  refine ⟨e.detach id, ?_, BarberPayEntry.same_detach id e⟩
  have hother : payout.carryOverEntryId ≠ some c := by
    intro heq
    obtain ⟨e', he', hcarry', -⟩ := h.carried hid heq
    obtain rfl := Option.some.inj (hget.symm.trans he')
    simp [hcarry] at hcarry'
  have hwithout := LedgerBooks.get?_without.2 ⟨hget, hother⟩
  simp only [Payroll.dropPayout]
  rw [Table.get?_modifyAll]
  exact (congrArg (Option.map _) hwithout).trans rfl

theorem undoPayout_commission {barberId payoutId : ℕ} (h : CommissionKept t ctx.shop.id s)
    (hkeeps : (StaffRequest.undoPayout barberId payoutId).keepsCommission t ctx s = true)
    (hexec : s.undoPayout cat ctx barberId payoutId = .ok s') :
    CommissionKept t ctx.shop.id s' := by
  simp only [Staff.undoPayout, bind_eq_ok, exists_punit, orRefuse_eq_ok, pure_eq_ok] at hexec
  obtain ⟨-, payout, hpayout, barber, -, -, -, hopen, rfl⟩ := hexec
  simp only [Payroll.ensureCarryOverOpen, refuseIf_eq_ok] at hopen
  have hall : (payout.carryOverEntryId.bind (s.payroll barberId).entries.get?).all
      (·.payoutId.isNone) = true := by
    cases hc : payout.carryOverEntryId.bind (s.payroll barberId).entries.get? with
    | none => rfl
    | some e =>
      rw [hc, Option.any_some] at hopen
      simpa using hopen
  have hbooks : LedgerBooks (s.payroll barberId).entries (s.payroll barberId).payouts :=
    h.ledger barberId
  have hgone : ∀ {i p}, ((s.payroll barberId).dropPayout payoutId payout).payouts.get? i = some p →
      (s.payrolls barberId).payouts.get? i = some p := by
    intro i p hi
    simp only [Payroll.dropPayout, Table.get?_erase] at hi
    split at hi
    · cases hi
    · exact hi
  refine h.setPayroll (Payroll.dropPayout_goes hpayout hall hbooks).books
    (fun hget hcarry => Payroll.dropPayout_kept hbooks hpayout hget hcarry) le_rfl
    (fun {i} hi => ?_) fun hi => h.close (hgone hi)
  by_cases heq : i = payoutId
  · subst heq
    simpa [StaffRequest.keepsCommission] using hkeeps
  · simp only [Payroll.dropPayout, Table.get?_erase, if_neg heq] at hi
    exact h.undone hi

theorem pay_commission {barberId : ℕ} {data : PayInput} (h : CommissionKept t ctx.shop.id s)
    (hexec : s.pay cat t cal ctx barberId data = .ok s') : CommissionKept t ctx.shop.id s' := by
  simp only [Staff.pay, bind_eq_ok, exists_punit] at hexec
  obtain ⟨-, barber, -, period, -, hexec⟩ := hexec
  split at hexec
  · cases hexec
  · next hnone =>
    obtain rfl := (pure_eq_ok.1 hexec).symm
    generalize ho : (s.payroll barberId).payoutOrder ctx data period = o at hnone ⊢
    have hbooks : LedgerBooks (s.payroll barberId).entries (s.payroll barberId).payouts :=
      h.ledger barberId
    have hfree : (s.payroll barberId).Free o.start o.stop :=
      fun hi => Table.find?_none.1 hnone _ _ hi
    have htotal : (t.computeCommissions ctx.shop.id barberId o.start o.stop s.db.sales).elim 0
        (·.totalCommission) = s.db.sales.sum fun id sale =>
          if o.start ≤ sale.commissionDate ∧ sale.commissionDate ≤ o.stop then
            t.due ctx.shop.id barberId id sale else 0 :=
      CommissionTerms.computeCommissions_total ..
    generalize t.computeCommissions ctx.shop.id barberId o.start o.stop s.db.sales = row
      at htotal ⊢
    obtain ⟨hadds, hmem⟩ := Payroll.openEntries_adds hbooks row o.start o.stop
    have hafter := o.books hfree hadds hmem hbooks
    have hcommission : (compute (s.payroll barberId).config row
        ((s.payroll barberId).openEntries o.stop) o.start o.stop).commission =
          round2 (row.elim 0 (·.totalCommission)) := rfl
    generalize compute (s.payroll barberId).config row _ o.start o.stop = r
      at hadds hmem hafter hcommission ⊢
    obtain ⟨expenses, expenseId, heq⟩ := o.commit_eq r (s.payroll barberId)
    rw [heq] at hafter ⊢
    refine h.setPayroll hafter (fun {id e} hget _ =>
      ⟨_, afterPayout_of_get? hget, BarberPayEntry.same_attach ..⟩) (Nat.le_succ _) (fun {i} hi => ?_)
      fun {i p} hi => ?_
    · refine h.undone ?_
      dsimp only at hi
      rw [Table.get?_insert] at hi
      split at hi
      · cases hi
      · exact hi
    · dsimp only at hi
      rw [Table.get?_insert] at hi
      split at hi
      · next hnew =>
        obtain rfl := Option.some.inj hi
        have hnone : s.adjustmentsOf barberId i = [] := by
          rw [Staff.adjustmentsOf, List.filter_eq_nil_iff]
          intro a ha
          have hlt := (h.written a ha).1
          rw [Bool.and_eq_true, beq_iff_eq, beq_iff_eq]
          rintro ⟨rfl, rfl⟩
          exact absurd hlt (hnew ▸ Nat.lt_irrefl _)
        have hdue : ∀ c, s.periodDue t ctx.shop.id barberId (o.payout r expenseId c) =
            row.elim 0 (·.totalCommission) := by
          intro c
          rw [htotal]
          exact Table.sum_congr fun id sale _ => if_congr BarberPayout.covers_iff rfl rfl
        rw [hdue, Staff.adjusted, hnone]
        have hle := round2_sub_le (row.elim 0 (·.totalCommission))
        have hlt := lt_round2_sub (row.elim 0 (·.totalCommission))
        simp only [PayoutOrder.payout, hcommission, List.map_nil, List.sum_nil, List.length_nil,
          Nat.cast_zero]
        rw [abs_le]
        constructor <;> linarith
      · exact h.close hi

end Steps

end Barbershop
