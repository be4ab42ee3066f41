import Mathlib.Data.List.Sort
import Barbershop.Core.Timezone
import Barbershop.Lib.Tally
import Barbershop.Payroll.Tips

/-!
# The financial summary of a period

Seven kinds of income make up the revenue of a unit: sales, deposits and app payments kept without a
sale, the club by Connect and by payouts, chair rent by payouts, and tips. The summary adds them up
three times, as a total, by payment method and by day, and the three agree (`summary_adds_up`).
-/

namespace Barbershop

open Lib LocalTime

/-! ## Rows -/

/-- A payment of the club, with its membership's unit. -/
structure ClubPayment where
  barbershopId : ℕ
  createdAt : ℤ
  amount : ℚ
  refundedAmount : Option ℚ
  /-- `none`: from before the column. -/
  platformFeePercent : Option ℚ
  settledViaConnect : Bool
  succeeded : Bool

/-- What the platform passed on to a unit by hand, for the club or for chair rent. -/
structure ManualPayout where
  barbershopId : ℕ
  paidAt : ℤ
  amount : ℚ

structure ReceivedTip where
  barbershopId : ℕ
  createdAt : ℤ
  destination : TipDestination
  receivedByUnit : Bool
  /-- `method = 'STRIPE'` -/
  byApp : Bool
  amount : ℚ
  platformFeePercent : Option ℚ
  refundedAt : Option ℤ

structure BookedExpense where
  barbershopId : ℕ
  expenseDate : ℤ
  category : String
  amount : ℚ

/-- A payment of chair rent, with the unit that hosts. -/
structure HostedRent where
  hostBarbershopId : ℕ
  paidAt : Option ℤ
  byCard : Bool
  succeeded : Bool
  amount : ℚ

structure FinanceDb where
  sales : Table Sale
  appointments : Table Appointment
  clubPayments : List ClubPayment
  clubPayouts : List ManualPayout
  chairPayouts : List ManualPayout
  tips : List ReceivedTip
  expenses : List BookedExpense
  chairRent : List HostedRent

/-- `{ gte: from, lte: to }` -/
structure QueryRange where
  gte : ℤ
  lte : ℤ

def QueryRange.has (range : QueryRange) (t : ℤ) : Bool :=
  decide (range.gte ≤ t) && decide (t ≤ range.lte)

/-! ## Sales -/

/-- `paidInRange` -/
def Sale.paidInRange (range : QueryRange) (s : Sale) : Bool := range.has (s.paidAt.getD s.createdAt)

/-- `saleRevenue`: what was charged at the till and what had been paid before. -/
def saleRevenue (s : Sale) : ℚ := s.total + s.depositApplied.getD 0 + s.prepaidApplied.getD 0

/-- The name of a payment method. -/
def PaymentMethod.text : PaymentMethod → String
  | .cash => "CASH"
  | .card => "CARD"
  | .creditCard => "CREDIT_CARD"
  | .debitCard => "DEBIT_CARD"
  | .pix => "PIX"
  | .transfer => "TRANSFER"
  | .other => "OTHER"
  | .unknown name => name

/-! ## Deposits and app payments without a sale -/

/-- `depositKept` -/
def depositKept (a : Appointment) : Bool :=
  a.depositPaid && (a.depositPaidAt.isSome || a.depositReceivedAt.isSome) &&
    a.depositRefundedAt.isNone

structure Retained where
  date : ℤ
  deposit : ℚ
  prepaid : ℚ

def retained (a : Appointment) : Retained where
  date := a.startAt
  deposit := if depositKept a then a.depositAmount.getD 0 else 0
  prepaid :=
    if a.prepaidAt.isSome && a.prepaidRefundedAt.isNone then
      max 0 (a.prepaidAmount.getD 0 - a.prepaidRefundedAmount.getD 0)
    else 0

def retainedPrepayments (db : FinanceDb) (barbershopId : ℕ) (range : QueryRange) : List Retained :=
  let appts := db.appointments.filter fun id a =>
    a.barbershopId == barbershopId && (a.status == .noShow || a.status == .cancelled) &&
      !(db.sales.any fun _ s => s.appointmentId == some id) && range.has a.startAt &&
      ((a.depositPaid && a.depositPaidAt.isSome && a.depositRefundedAt.isNone) ||
        (a.depositPaid && a.depositReceivedAt.isSome && a.depositRefundedAt.isNone) ||
        (a.prepaidAt.isSome && a.prepaidRefundedAt.isNone))
  appts.map fun row => retained row.2

/-! ## The summary -/

/-- What the unit has of a club payment that went to its account. -/
def ClubPayment.share (feeNow : ℚ) (p : ClubPayment) : ℚ :=
  let net := p.amount - p.refundedAmount.getD 0
  let percent := p.platformFeePercent.getD feeNow
  round2 (net - round2 (net * percent / 100))

/-- By the app a tip comes less the platform's fee. -/
def ReceivedTip.value (feeNow : ℚ) (t : ReceivedTip) : ℚ :=
  let fee := if t.byApp then round2 (t.amount * t.platformFeePercent.getD feeNow / 100) else 0
  round2 (t.amount - fee)

/-- The income of a period, as the queries read it. -/
structure Income where
  sales : List Sale
  kept : List Retained
  clubPayments : List ClubPayment
  clubPayouts : List ManualPayout
  chairPayouts : List ManualPayout
  tips : List ReceivedTip

def FinanceDb.income (db : FinanceDb) (barbershopId : ℕ) (range : QueryRange) : Income where
  sales := (db.sales.filter fun _ s =>
    s.barbershopId == barbershopId && s.paymentStatus == .paid && s.paidInRange range).map (·.2)
  kept := retainedPrepayments db barbershopId range
  clubPayments := db.clubPayments.filter fun p =>
    p.succeeded && p.settledViaConnect && range.has p.createdAt && p.barbershopId == barbershopId
  clubPayouts := db.clubPayouts.filter fun p => p.barbershopId == barbershopId && range.has p.paidAt
  chairPayouts := db.chairPayouts.filter fun p => p.barbershopId == barbershopId && range.has p.paidAt
  tips := db.tips.filter fun t => t.barbershopId == barbershopId && t.refundedAt.isNone &&
    range.has t.createdAt && (t.destination == .unit || t.receivedByUnit)

namespace Income

variable (i : Income) (feeNow : ℚ)

def clubFromConnect : ℚ := (i.clubPayments.map (·.share feeNow)).sum

def clubIncome : ℚ := round2 (i.clubFromConnect feeNow + (i.clubPayouts.map (·.amount)).sum)

def chairCardIncome : ℚ := round2 (i.chairPayouts.map (·.amount)).sum

def tipIncome : ℚ := round2 (i.tips.map (·.value feeNow)).sum

def totalRevenue : ℚ :=
  (i.sales.map saleRevenue).sum + (i.kept.map fun k => k.deposit + k.prepaid).sum +
    i.clubIncome feeNow + i.chairCardIncome + i.tipIncome feeNow

/-- The calls of `addTo`, in their order. -/
def methodEntries : List (String × ℚ) :=
  (i.sales.flatMap fun s => [((s.paymentMethod.map (·.text)).getD "UNKNOWN", s.total),
    ("DEPOSIT", s.depositApplied.getD 0), ("APP", s.prepaidApplied.getD 0)]) ++
  (i.kept.flatMap fun k => [("DEPOSIT", k.deposit), ("APP", k.prepaid)]) ++
  [("CLUB", i.clubIncome feeNow), ("CHAIR_RENT", i.chairCardIncome), ("TIP", i.tipIncome feeNow)]

/-- What the loops over `byDay` add, in their order, with the instant of each. -/
def dayEntries : List (ℤ × ℚ) :=
  (i.sales.map fun s => (s.paidAt.getD s.createdAt, saleRevenue s)) ++
  (i.kept.map fun k => (k.date, k.deposit + k.prepaid)) ++
  (i.clubPayments.map fun p => (p.createdAt, p.share feeNow)) ++
  ((i.clubPayouts ++ i.chairPayouts).map fun p => (p.paidAt, p.amount)) ++
  (i.tips.map fun t => (t.createdAt, t.value feeNow))

end Income

/-- `map.set(key, round2((map.get(key) ?? 0) + value))` -/
def addRounded (m : Tally String ℚ) (entry : String × ℚ) : Tally String ℚ :=
  m.set entry.1 (round2 (m.get entry.1 + entry.2))

/-- `addTo`: nothing is written for nothing. -/
def addTo (m : Tally String ℚ) (entry : String × ℚ) : Tally String ℚ :=
  if entry.2 = 0 then m else addRounded m entry

/-- The key of a day: its date as a text. -/
def dayKey (timeZone : Zone) (t : ℤ) : String := (toZonedParts t timeZone).dateStr.text

structure FinancialSummary where
  totalRevenue : ℚ
  totalExpenses : ℚ
  chairRentIncome : ℚ
  netProfit : ℚ
  revenueByPaymentMethod : List (String × ℚ)
  expensesByCategory : List (String × ℚ)
  /-- `revenueByDay.labels` -/
  labels : List String
  /-- `revenueByDay.data` -/
  data : List ℚ

/-- `getFinancialSummary` for one who may see it. -/
def getFinancialSummary (barbershopId : ℕ) (range : QueryRange) (timeZone : Zone) (feeNow : ℚ)
    (db : FinanceDb) : FinancialSummary :=
  let income := db.income barbershopId range
  let expenses := db.expenses.filter fun e =>
    e.barbershopId == barbershopId && range.has e.expenseDate
  let totalRevenue := income.totalRevenue feeNow
  let totalExpenses := (expenses.map (·.amount)).sum
  let chairRentIncome := ((db.chairRent.filter fun p => p.hostBarbershopId == barbershopId &&
    p.succeeded && !p.byCard && p.paidAt.any range.has).map (·.amount)).sum
  let byMethod := (income.methodEntries feeNow).foldl addTo .empty
  let byCategory := expenses.foldl
    (fun m e => m.set e.category (m.get e.category + e.amount)) (.empty : Tally String ℚ)
  let byDay := ((income.dayEntries feeNow).map fun entry => (dayKey timeZone entry.1, entry.2)).foldl
    addRounded .empty
  let sortedDays := byDay.keys.mergeSort
  { totalRevenue := totalRevenue
    totalExpenses := totalExpenses
    chairRentIncome := chairRentIncome
    netProfit := totalRevenue + chairRentIncome - totalExpenses
    revenueByPaymentMethod := byMethod.rows
    expensesByCategory := byCategory.rows
    labels := sortedDays
    data := sortedDays.map byDay.get }

/-! ## Whole cents -/

def FinanceDb.Cents (db : FinanceDb) : Prop :=
  (∀ row ∈ db.sales.rows, IsCents row.2.total ∧ IsCents (row.2.depositApplied.getD 0) ∧
    IsCents (row.2.prepaidApplied.getD 0)) ∧
  (∀ row ∈ db.appointments.rows, IsCents (row.2.depositAmount.getD 0) ∧
    IsCents (row.2.prepaidAmount.getD 0) ∧ IsCents (row.2.prepaidRefundedAmount.getD 0)) ∧
  (∀ p ∈ db.clubPayouts, IsCents p.amount) ∧ ∀ p ∈ db.chairPayouts, IsCents p.amount

instance (db : FinanceDb) : Decidable db.Cents := inferInstanceAs (Decidable (_ ∧ _))

/-- The amounts of the income that are not rounded one by one are whole cents. -/
structure Income.Cents (i : Income) : Prop where
  sales : ∀ s ∈ i.sales, IsCents s.total ∧ IsCents (s.depositApplied.getD 0) ∧
    IsCents (s.prepaidApplied.getD 0)
  kept : ∀ k ∈ i.kept, IsCents k.deposit ∧ IsCents k.prepaid
  clubPayouts : ∀ p ∈ i.clubPayouts, IsCents p.amount
  chairPayouts : ∀ p ∈ i.chairPayouts, IsCents p.amount

theorem retained_cents {a : Appointment} (hdeposit : IsCents (a.depositAmount.getD 0))
    (hprepaid : IsCents (a.prepaidAmount.getD 0))
    (hrefunded : IsCents (a.prepaidRefundedAmount.getD 0)) :
    IsCents (retained a).deposit ∧ IsCents (retained a).prepaid := by
  unfold retained
  dsimp only
  constructor
  · split
    · exact hdeposit
    · exact isCents_zero
  · split
    · rcases max_choice 0 (a.prepaidAmount.getD 0 - a.prepaidRefundedAmount.getD 0) with h | h
      · rw [h]
        exact isCents_zero
      · rw [h]
        exact hprepaid.sub hrefunded
    · exact isCents_zero

theorem FinanceDb.Cents.income {db : FinanceDb} (h : db.Cents) (barbershopId : ℕ)
    (range : QueryRange) : (db.income barbershopId range).Cents := by
  obtain ⟨hsales, happointments, hclub, hchair⟩ := h
  refine ⟨?_, ?_, ?_, ?_⟩
  · intro s hs
    obtain ⟨row, hrow, rfl⟩ := List.mem_map.1 hs
    exact hsales row (List.mem_of_mem_filter hrow)
  · intro k hk
    obtain ⟨row, hrow, rfl⟩ := List.mem_map.1 hk
    obtain ⟨hdeposit, hprepaid, hrefunded⟩ := happointments row (List.mem_of_mem_filter hrow)
    exact retained_cents hdeposit hprepaid hrefunded
  · intro p hp
    exact hclub p (List.mem_of_mem_filter hp)
  · intro p hp
    exact hchair p (List.mem_of_mem_filter hp)

/-! ## The maps -/

/-- All amounts of a map are whole cents. -/
def CentsTally (m : Tally String ℚ) : Prop := ∀ row ∈ m.rows, IsCents row.2

theorem centsTally_empty : CentsTally .empty := by
  intro row hrow
  cases hrow

/-- Adding whole cents to whole cents, the rounding does nothing. -/
theorem addRounded_total {m : Tally String ℚ} {entry : String × ℚ} (hm : CentsTally m)
    (hentry : IsCents entry.2) :
    CentsTally (addRounded m entry) ∧ (addRounded m entry).total = m.total + entry.2 := by
  have hget : IsCents (m.get entry.1) := Tally.rowsGet_mem isCents_zero hm entry.1
  unfold addRounded
  rw [Tally.total_set, (hget.add hentry).round2_eq]
  refine ⟨Tally.mem_rowsSet _ _ hm (hget.add hentry), ?_⟩
  ring

theorem addTo_total {m : Tally String ℚ} {entry : String × ℚ} (hm : CentsTally m)
    (hentry : IsCents entry.2) :
    CentsTally (addTo m entry) ∧ (addTo m entry).total = m.total + entry.2 := by
  unfold addTo
  split
  · next hzero => exact ⟨hm, by rw [hzero, add_zero]⟩
  · exact addRounded_total hm hentry

/-- A loop that adds to the total of the map what it is given adds all of it. -/
theorem foldl_total {add : Tally String ℚ → String × ℚ → Tally String ℚ}
    (hadd : ∀ {m entry}, CentsTally m → IsCents entry.2 →
      CentsTally (add m entry) ∧ (add m entry).total = m.total + entry.2)
    {entries : List (String × ℚ)} (hentries : ∀ entry ∈ entries, IsCents entry.2)
    {m : Tally String ℚ} (hm : CentsTally m) :
    (entries.foldl add m).total = m.total + (entries.map (·.2)).sum := by
  induction entries generalizing m with
  | nil => simp
  | cons entry entries ih =>
    obtain ⟨hcents, htotal⟩ := hadd hm (hentries entry (by simp))
    rw [List.foldl_cons, ih (fun e he => hentries e (by simp [he])) hcents, htotal, List.map_cons,
      List.sum_cons, add_assoc]

/-! ## The sums -/

namespace Income

variable {i : Income} (h : i.Cents) (feeNow : ℚ)

include h

theorem clubIncome_eq : i.clubIncome feeNow =
    (i.clubPayments.map (·.share feeNow)).sum + (i.clubPayouts.map (·.amount)).sum := by
  refine IsCents.round2_eq (IsCents.add (IsCents.sum ?_) (IsCents.sum ?_))
  · simp only [List.forall_mem_map]
    exact fun _ _ => isCents_round2 _
  · simpa using h.clubPayouts

theorem chairCardIncome_eq : i.chairCardIncome = (i.chairPayouts.map (·.amount)).sum :=
  IsCents.round2_eq (IsCents.sum (by simpa using h.chairPayouts))

omit h in
theorem tipIncome_eq : i.tipIncome feeNow = (i.tips.map (·.value feeNow)).sum := by
  refine IsCents.round2_eq (IsCents.sum ?_)
  simp only [List.forall_mem_map]
  exact fun _ _ => isCents_round2 _

omit h in
theorem methodEntries_sum :
    ((i.methodEntries feeNow).map (·.2)).sum = i.totalRevenue feeNow := by
  have hsales : ∀ l : List Sale, ((l.flatMap fun s => [((s.paymentMethod.map (·.text)).getD
      "UNKNOWN", s.total), ("DEPOSIT", s.depositApplied.getD 0),
      ("APP", s.prepaidApplied.getD 0)]).map (·.2)).sum = (l.map saleRevenue).sum := by
    intro l
    induction l with
    | nil => rfl
    | cons s l ih =>
      simp only [List.flatMap_cons, List.map_append, List.sum_append, ih, List.map_cons,
        List.sum_cons, List.map_nil, List.sum_nil, saleRevenue]
      ring
  have hkept : ∀ l : List Retained, ((l.flatMap fun k => [("DEPOSIT", k.deposit),
      ("APP", k.prepaid)]).map (·.2)).sum = (l.map fun k => k.deposit + k.prepaid).sum := by
    intro l
    induction l with
    | nil => rfl
    | cons k l ih =>
      simp only [List.flatMap_cons, List.map_append, List.sum_append, ih, List.map_cons,
        List.sum_cons, List.map_nil, List.sum_nil]
      ring
  unfold methodEntries totalRevenue
  rw [List.map_append, List.map_append, List.sum_append, List.sum_append, hsales, hkept]
  simp only [List.map_cons, List.sum_cons, List.map_nil, List.sum_nil]
  ring

theorem dayEntries_sum : ((i.dayEntries feeNow).map (·.2)).sum = i.totalRevenue feeNow := by
  unfold dayEntries totalRevenue
  simp only [List.map_append, List.map_map, List.sum_append, Function.comp_def,
    clubIncome_eq h, chairCardIncome_eq h, tipIncome_eq]
  ring

theorem methodEntries_cents : ∀ entry ∈ i.methodEntries feeNow, IsCents entry.2 := by
  intro entry hentry
  simp only [methodEntries, List.mem_append, List.mem_flatMap, List.mem_cons, List.not_mem_nil,
    or_false] at hentry
  rcases hentry with (⟨s, hs, rfl | rfl | rfl⟩ | ⟨k, hk, rfl | rfl⟩) | rfl | rfl | rfl
  · exact (h.sales s hs).1
  · exact (h.sales s hs).2.1
  · exact (h.sales s hs).2.2
  · exact (h.kept k hk).1
  · exact (h.kept k hk).2
  · exact isCents_round2 _
  · exact isCents_round2 _
  · exact isCents_round2 _

theorem dayEntries_cents : ∀ entry ∈ i.dayEntries feeNow, IsCents entry.2 := by
  intro entry hentry
  simp only [dayEntries, List.mem_append, List.mem_map] at hentry
  rcases hentry with (((⟨s, hs, rfl⟩ | ⟨k, hk, rfl⟩) | ⟨p, hp, rfl⟩) | ⟨p, hp | hp, rfl⟩) | ⟨t, ht, rfl⟩
  · obtain ⟨htotal, hdeposit, hprepaid⟩ := h.sales s hs
    exact (htotal.add hdeposit).add hprepaid
  · exact (h.kept k hk).1.add (h.kept k hk).2
  · exact isCents_round2 _
  · exact h.clubPayouts p hp
  · exact h.chairPayouts p hp
  · exact isCents_round2 _

end Income

theorem summary_adds_up (barbershopId : ℕ) (range : QueryRange) (timeZone : Zone) (feeNow : ℚ)
    (db : FinanceDb) (hcents : db.Cents) :
    ((getFinancialSummary barbershopId range timeZone feeNow db).revenueByPaymentMethod.map
        (·.2)).sum = (getFinancialSummary barbershopId range timeZone feeNow db).totalRevenue ∧
      (getFinancialSummary barbershopId range timeZone feeNow db).data.sum =
        (getFinancialSummary barbershopId range timeZone feeNow db).totalRevenue := by
  have hincome := hcents.income barbershopId range
  generalize hi : db.income barbershopId range = i at hincome
  unfold getFinancialSummary
  dsimp only
  rw [hi]
  constructor
  · have hmethods := foldl_total addTo_total (Income.methodEntries_cents hincome feeNow) centsTally_empty
    rw [Income.methodEntries_sum, Tally.total_empty, zero_add] at hmethods
    exact hmethods
  · have hentries : ∀ entry ∈ (i.dayEntries feeNow).map fun entry =>
        (dayKey timeZone entry.1, entry.2), IsCents entry.2 := by
      simp only [List.forall_mem_map]
      exact Income.dayEntries_cents hincome feeNow
    have hdays := foldl_total addRounded_total hentries centsTally_empty
    rw [List.map_map, Tally.total_empty, zero_add] at hdays
    rw [((List.mergeSort_perm _ _).map _).sum_eq, Tally.sum_get, hdays]
    exact Income.dayEntries_sum hincome feeNow

/-- A month with each kind of income. -/
def oneOfEach : FinanceDb where
  sales := Table.empty.insert
    { createdAt := 10, barbershopId := 1, customerId := some 1, barberId := some 1
      appointmentId := none, cashSessionId := none, saleType := .service, subtotal := 100
      discountAmount := 0, taxAmount := 0, total := 70, paymentStatus := .paid
      paymentMethod := some .pix, paidAt := some 20, giftCardId := none
      giftCardAmountApplied := none, loyaltyPointsEarned := none, loyaltyPointsRedeemed := none
      loyaltyDiscountAmount := none, depositApplied := some 30, prepaidApplied := none
      clientSubscriptionId := none, items := [] }
  appointments := Table.empty.insert
    { barbershopId := 1, customerId := 1, barberId := 1, resourceId := none, startAt := 90000000
      endAt := 91800000, status := .noShow, source := .online, holdExpiresAt := none
      depositAmount := some 20, depositPaid := true, depositPaidAt := some 5
      depositRefundedAt := none, depositManualMethod := none, depositReceivedAt := none
      depositReceivedByUserId := none, depositCashSessionId := none
      depositPaymentIntentId := none, prepaidPaymentIntentId := none, prepaidAt := some 6
      prepaidAmount := some 50, prepaidRefundedAt := none, prepaidRefundedAmount := some 10
      linkVersion := 0 }
  clubPayments := [⟨1, 30, 100, none, some 10, true, true⟩]
  clubPayouts := [⟨1, 40, 45⟩]
  chairPayouts := [⟨1, 50, 60⟩]
  tips := [⟨1, 60, .unit, false, true, 10, none, none⟩]
  expenses := []
  chairRent := []

theorem oneOfEach_adds_up :
    ((getFinancialSummary 1 ⟨0, 100000000⟩ (.constant 0 (by decide) (by decide)) 5
        oneOfEach).revenueByPaymentMethod.map (·.2)).sum =
      (getFinancialSummary 1 ⟨0, 100000000⟩ (.constant 0 (by decide) (by decide)) 5
        oneOfEach).totalRevenue ∧
    (getFinancialSummary 1 ⟨0, 100000000⟩ (.constant 0 (by decide) (by decide)) 5
        oneOfEach).data.sum =
      (getFinancialSummary 1 ⟨0, 100000000⟩ (.constant 0 (by decide) (by decide)) 5
        oneOfEach).totalRevenue := by
  have hcents : oneOfEach.Cents := by decide +kernel
  exact summary_adds_up 1 ⟨0, 100000000⟩ (.constant 0 (by decide) (by decide)) 5 oneOfEach hcents

end Barbershop
