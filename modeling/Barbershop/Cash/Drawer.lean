import Barbershop.Cash.Session
import Barbershop.Sale.Refund

/-!
# The drawer of a cash session

What the requests do to the rows a cash count adds up. The record of a closed session is its row and
its five sums; `ClosedKept` says that a commit leaves the records of the closed sessions alone, and
`DrawersKept` that moreover it closes none. A request that attaches a row in cash keeps them when
the session it found open has not been closed since (`StillOpen`); for a request that runs alone
this is always so. An edit of a sale that is counted in a closed session keeps them when the total
it sends rounds to the one that was counted (`SalePatch.KeepsTotal`).
-/

namespace Barbershop

open Lib

/-! ## Closed sessions -/

def Db.sessionClosed (db : Db) (session : ℕ) : Bool :=
  (db.cashSessions.get? session).any (·.status == .closed)

theorem Db.sessionClosed_iff {db : Db} {session : ℕ} :
    db.sessionClosed session = true ↔
      ∃ c, db.cashSessions.get? session = some c ∧ c.status = .closed := by
  simp [Db.sessionClosed, Option.any_eq_true]

theorem Db.cashClosed_iff {db : Db} {s : Sale} :
    db.cashClosed s = true ↔ ∃ id, s.cashSessionId = some id ∧ db.sessionClosed id = true := by
  unfold Db.cashClosed Db.sessionClosed
  cases s.cashSessionId with
  | none => simp
  | some id => simp

/-- The session a request saw open has not been closed since. -/
def StillOpen (seen db : Db) (shop : ℕ) : Prop :=
  ∀ id ∈ seen.openSession shop, db.sessionClosed id = false

instance (seen db : Db) (shop : ℕ) : Decidable (StillOpen seen db shop) := by
  unfold StillOpen
  infer_instance

theorem Db.openSession_some {db : Db} {shop id : ℕ} (h : db.openSession shop = some id) :
    ∃ c, db.cashSessions.get? id = some c ∧ c.barbershopId = shop ∧ c.status = .opened := by
  unfold Db.openSession at h
  obtain ⟨⟨k, c⟩, hfound, rfl⟩ := Option.map_eq_some_iff.1 h
  obtain ⟨hrow, hp⟩ := Table.find?_some hfound
  simp only [Bool.and_eq_true, beq_iff_eq] at hp
  exact ⟨c, hrow, hp.1, hp.2⟩

theorem stillOpen_self (db : Db) (shop : ℕ) : StillOpen db db shop := by
  intro id hid
  obtain ⟨c, hc, -, hopen⟩ := Db.openSession_some hid
  simp [Db.sessionClosed, hc, hopen]

/-- The rows and the sums of the closed sessions are as they were. -/
structure ClosedKept (db db' : Db) : Prop where
  row : ∀ {id : ℕ} {c : CashSession}, db.cashSessions.get? id = some c → c.status = .closed →
    db'.cashSessions.get? id = some c
  sums : ∀ {id : ℕ}, db.sessionClosed id = true → db'.cashSums id = db.cashSums id

namespace ClosedKept

theorem refl (db : Db) : ClosedKept db db := ⟨fun h _ => h, fun _ => rfl⟩

theorem closed {db db' : Db} (h : ClosedKept db db') {id : ℕ} (hid : db.sessionClosed id = true) :
    db'.sessionClosed id = true := by
  obtain ⟨c, hc, hclosed⟩ := Db.sessionClosed_iff.1 hid
  exact Db.sessionClosed_iff.2 ⟨c, h.row hc hclosed, hclosed⟩

theorem trans {db₁ db₂ db₃ : Db} (h : ClosedKept db₁ db₂) (h' : ClosedKept db₂ db₃) :
    ClosedKept db₁ db₃ where
  row hc hclosed := h'.row (h.row hc hclosed) hclosed
  sums hid := (h'.sums (h.closed hid)).trans (h.sums hid)

end ClosedKept

/-- Moreover, no session was closed. -/
structure DrawersKept (db db' : Db) : Prop extends ClosedKept db db' where
  none_closed : ∀ {id : ℕ}, db'.sessionClosed id = true → db.sessionClosed id = true

theorem DrawersKept.refl (db : Db) : DrawersKept db db := ⟨.refl db, fun h => h⟩

/-- A commit that leaves the sessions alone is judged by the sums. -/
theorem DrawersKept.of_sums {db db' : Db} (hsessions : db'.cashSessions = db.cashSessions)
    (hsums : ∀ id, db.sessionClosed id = true → db'.cashSums id = db.cashSums id) :
    DrawersKept db db' where
  row hc _ := hsessions ▸ hc
  sums := hsums _
  none_closed h := by
    unfold Db.sessionClosed at h ⊢
    rwa [hsessions] at h

/-! ## The sales in a drawer -/

/-- What the cash count takes from a sale. -/
structure Counted where
  paymentStatus : PaymentStatus
  paymentMethod : Option PaymentMethod
  total : ℚ
  cashSessionId : Option ℕ
  deriving DecidableEq

def Sale.counted (s : Sale) : Counted where
  paymentStatus := s.paymentStatus
  paymentMethod := s.paymentMethod
  total := s.total
  cashSessionId := s.cashSessionId

/-- What a sale puts in the drawer of a session. -/
def Sale.inCash (s : Sale) (session : ℕ) : ℚ := if s.inDrawer session then s.total else 0

theorem Sale.inCash_congr {s s' : Sale} (h : s.counted = s'.counted) (session : ℕ) :
    s.inCash session = s'.inCash session := by
  simp only [Sale.counted, Counted.mk.injEq] at h
  obtain ⟨hstatus, hmethod, htotal, hsession⟩ := h
  unfold Sale.inCash Sale.inDrawer
  rw [hstatus, hmethod, htotal, hsession]

theorem Sale.inCash_eq_zero {s : Sale} {session : ℕ} (h : s.inDrawer session = false) :
    s.inCash session = 0 := by
  simp [Sale.inCash, h]

theorem Sale.inDrawer_of_ne {s : Sale} {session : ℕ} (h : s.cashSessionId ≠ some session) :
    s.inDrawer session = false := by
  simp [Sale.inDrawer, h]

theorem Sale.inDrawer_iff {s : Sale} {session : ℕ} :
    s.inDrawer session = true ↔
      s.cashSessionId = some session ∧ s.paymentMethod = some .cash ∧ s.paymentStatus = .paid := by
  simp [Sale.inDrawer, and_assoc]

section Sales

variable {db db' : Db} {session : ℕ}

theorem cashSales_insert {s : Sale} (hsales : db'.sales = db.sales.insert s) :
    cashSales db' session = cashSales db session + s.inCash session := by
  unfold cashSales
  rw [hsales, Table.sum_insert]
  rfl

theorem cashSales_modify {k : ℕ} {f : Sale → Sale} (hsales : db'.sales = db.sales.modify k f)
    (hf : ∀ s, db.sales.get? k = some s → (f s).inCash session = s.inCash session) :
    cashSales db' session = cashSales db session := by
  unfold cashSales
  rw [hsales]
  exact Table.sum_modify_eq f _ hf

theorem cashSales_erase {k : ℕ} {s : Sale} (hsales : db'.sales = db.sales.erase k)
    (hs : db.sales.get? k = some s) (hzero : s.inCash session = 0) :
    cashSales db' session = cashSales db session := by
  have hsum := Table.sum_erase (fun _ s => Sale.inCash s session) hs
  rw [hzero, add_zero] at hsum
  unfold cashSales
  rw [hsales]
  exact hsum

/-- A commit that leaves expenses, rent, tips and deposits alone is judged by its sales. -/
theorem cashSums_of_sales (hexpenses : db'.expenses = db.expenses)
    (hrent : db'.rentPayments = db.rentPayments) (htips : db'.tips = db.tips)
    (hdeposits : cashDeposits db' session = cashDeposits db session)
    (hsales : cashSales db' session = cashSales db session) :
    db'.cashSums session = db.cashSums session := by
  simp only [Db.cashSums, cashExpenses, cashRent, cashTips, hexpenses, hrent, htips, hdeposits,
    hsales]

/-- A sale that enters no closed session keeps their records. -/
theorem DrawersKept.insertSale {s : Sale} (hsessions : db'.cashSessions = db.cashSessions)
    (hexpenses : db'.expenses = db.expenses) (hrent : db'.rentPayments = db.rentPayments)
    (htips : db'.tips = db.tips) (hdeposits : ∀ id, cashDeposits db' id = cashDeposits db id)
    (hsales : db'.sales = db.sales.insert s)
    (hs : ∀ id, s.inDrawer id = true → db.sessionClosed id = false) : DrawersKept db db' := by
  refine .of_sums hsessions fun id hid => ?_
  refine cashSums_of_sales hexpenses hrent htips (hdeposits id) ?_
  have hout : s.inDrawer id = false := by
    cases hin : s.inDrawer id with
    | false => rfl
    | true => simp [hs id hin] at hid
  rw [cashSales_insert hsales, Sale.inCash_eq_zero hout, add_zero]

end Sales

/-! ## The deposits in a drawer -/

/-- What an appointment puts in the drawer of a session. -/
def Appointment.inCash (a : Appointment) (session : ℕ) : ℚ :=
  if a.inDrawer session then a.depositAmount.getD 0 else 0

theorem Appointment.inDrawer_iff {a : Appointment} {session : ℕ} :
    a.inDrawer session = true ↔ a.depositCashSessionId = some session ∧ a.depositPaid = true ∧
      a.depositManualMethod = some .cash := by
  simp [Appointment.inDrawer, and_assoc]

theorem cashDeposits_modify {db db' : Db} {session k : ℕ} {f : Appointment → Appointment}
    (hrows : db'.appointments = db.appointments.modify k f)
    (hf : ∀ a, db.appointments.get? k = some a → (f a).inCash session = a.inCash session) :
    cashDeposits db' session = cashDeposits db session := by
  unfold cashDeposits
  rw [hrows]
  exact Table.sum_modify_eq f _ hf

theorem Appointment.inCash_eq_zero {a : Appointment} {session : ℕ}
    (h : a.inDrawer session = false) : a.inCash session = 0 := by
  simp [Appointment.inCash, h]

/-- A commit that leaves sales, expenses, rent and tips alone is judged by its deposits. -/
theorem cashSums_of_deposits {db db' : Db} {session : ℕ} (hsales : db'.sales = db.sales)
    (hexpenses : db'.expenses = db.expenses) (hrent : db'.rentPayments = db.rentPayments)
    (htips : db'.tips = db.tips) (hdeposits : cashDeposits db' session = cashDeposits db session) :
    db'.cashSums session = db.cashSums session := by
  simp only [Db.cashSums, cashSales, cashExpenses, cashRent, cashTips, hsales, hexpenses, hrent,
    htips, hdeposits]

/-- Completing the appointment a sale bills moves no deposit. -/
theorem cashDeposits_completeAppointment (plan : SalePlan) (now : ℤ) {db db' : Db} (session : ℕ)
    (hrows : db'.appointments = plan.completeAppointment now db.appointments) :
    cashDeposits db' session = cashDeposits db session := by
  unfold SalePlan.completeAppointment at hrows
  split at hrows
  · unfold cashDeposits
    rw [hrows]
  · refine cashDeposits_modify hrows fun a _ => ?_
    split <;> rfl

/-! ## Edits of a counted sale -/

/-- To the cent, the total the edit sends is the one that was counted, on top of what was covered
before; a sale counted at nothing stays so for any total up to that. -/
def SalePatch.KeepsTotal (data : SalePatch) (s : Sale) : Prop :=
  ∀ t ∈ data.total, IsCents s.total ∧ 0 ≤ s.total ∧
    (s.total = 0 ∨ s.total - 1 / 200 ≤ t - s.applied) ∧ t - s.applied < s.total + 1 / 200

instance (data : SalePatch) (s : Sale) : Decidable (data.KeepsTotal s) := by
  unfold SalePatch.KeepsTotal
  infer_instance

namespace SaleEdit

variable {e : SaleEdit}

theorem netTotal_eq_iff :
    e.netTotal.getD e.existing.total = e.existing.total ↔ e.data.KeepsTotal e.existing := by
  unfold netTotal SalePatch.KeepsTotal
  cases e.data.total with
  | none => simp
  | some t => simp [round2_max_eq_iff]

/-- What the lock compares on an edit of a sale in a closed session. -/
theorem status_eq_of_unchanged (h : saleMoneyChanged e.existing e.data = false) :
    e.data.paymentStatus.getD e.existing.paymentStatus = e.existing.paymentStatus ∧
      e.data.paymentMethod.or e.existing.paymentMethod = e.existing.paymentMethod := by
  simp only [saleMoneyChanged, Bool.or_eq_false_iff] at h
  obtain ⟨⟨⟨⟨hstatus, hmethod⟩, -⟩, -⟩, -⟩ := h
  constructor
  · cases hs : e.data.paymentStatus with
    | none => rfl
    | some s => simpa [hs] using hstatus
  · cases hm : e.data.paymentMethod with
    | absent => rfl
    | null => simpa [hm, Patch.or, Patch.value?] using hmethod
    | value m => simpa [hm, Patch.or, Patch.value?] using hmethod

theorem not_becomesPaid (h : saleMoneyChanged e.existing e.data = false) : ¬e.becomesPaid := by
  rintro ⟨hpaid, hexisting⟩
  apply hexisting
  have := (status_eq_of_unchanged h).1
  rw [hpaid] at this
  exact this.symm

/-- An edit that passes the lock keeps what the count took from the sale exactly when it keeps the
total. -/
theorem counted_row_iff (ctx : Caller) (h : saleMoneyChanged e.existing e.data = false) {s : Sale}
    (hs : e.existing.counted = s.counted) :
    (e.row ctx s).counted = s.counted ↔ e.data.KeepsTotal e.existing := by
  obtain ⟨hstatus, hmethod⟩ := status_eq_of_unchanged h
  rw [← netTotal_eq_iff]
  simp only [Sale.counted, Counted.mk.injEq] at hs ⊢
  obtain ⟨hs₁, hs₂, hs₃, hs₄⟩ := hs
  simp only [row, ← hs₁, ← hs₂, ← hs₃, ← hs₄, hstatus, hmethod, if_neg (not_becomesPaid h), true_and,
    and_true]

end SaleEdit

theorem checkEdit_closed {data : SalePatch} {existing : Sale}
    (h : checkEdit data existing true = .ok ()) : saleMoneyChanged existing data = false := by
  simp only [checkEdit, bind_eq_ok, exists_punit, refuseIf_eq_ok, true_and] at h
  obtain ⟨-, -, -, hlock, -⟩ := h
  simpa using hlock

/-! ## What each request does to the closed sessions -/

theorem createSale_drawersKept {cat : Catalog} {ctx : Caller} {data : SaleInput}
    {reads : SaleRead → Db} {db db' : Db} (h : createSale cat ctx data reads db = .ok db')
    (hopen : data.paid = true → data.paymentMethod = some .cash →
      StillOpen (reads .openSession) db ctx.shop.id) : DrawersKept db db' := by
  obtain ⟨plan, hchecked, hcommit⟩ := createSale_ok h
  obtain ⟨_, _, _, _, -, -, -, -, rfl⟩ := commitSale_ok hcommit
  refine .insertSale (s := plan.sale ctx) rfl rfl rfl rfl
    (fun id => cashDeposits_completeAppointment plan ctx.now id rfl) rfl fun id hin => ?_
  obtain ⟨hsession, hcash, -⟩ := Sale.inDrawer_iff.1 hin
  have hfound : plan.openSession = some id := hsession
  rw [hchecked.openSession] at hfound
  split at hfound
  · next hpaid =>
    have hmethod : plan.data.paymentMethod = some .cash := hcash
    rw [hchecked.data_eq] at hmethod
    exact hopen hpaid hmethod id hfound
  · cases hfound

/-- The edit marks as paid in cash a sale that was read unpaid. -/
def SalePatch.EntersCash (data : SalePatch) (seen : Db) (saleId : ℕ) (s : Sale) : Prop :=
  data.paymentStatus = some .paid ∧ data.paymentMethod.or s.paymentMethod = some .cash ∧
    (seen.sales.get? saleId).any (·.paymentStatus != .paid) = true

/-- The sale is in cash before the edit or after it. -/
def SalePatch.TouchesCash (data : SalePatch) (s : Sale) : Prop :=
  s.paymentMethod = some .cash ∨ data.paymentMethod.or s.paymentMethod = some .cash

/-- The edit was checked against the sale as it is counted now, in a session that was closed, and
keeps its total. -/
def SalePatch.KeepsCount (data : SalePatch) (seen : Db) (saleId : ℕ) (s : Sale) : Prop :=
  ∃ existing, seen.sales.get? saleId = some existing ∧ existing.counted = s.counted ∧
    seen.cashClosed existing = true ∧ data.KeepsTotal existing

theorem updateSale_drawersKept {cat : Catalog} {ctx : Caller} {saleId : ℕ} {data : SalePatch}
    {reads : UpdateRead → Db} {db db' : Db}
    (h : updateSale cat ctx saleId data reads db = .ok db')
    (hopen : ∀ s, db.sales.get? saleId = some s → data.EntersCash (reads .existing) saleId s →
      StillOpen (reads .openSession) db ctx.shop.id)
    (hclosed : ∀ s, db.sales.get? saleId = some s → data.TouchesCash s → db.cashClosed s = true →
      data.KeepsCount (reads .existing) saleId s) : DrawersKept db db' := by
  obtain ⟨e, rfl, hchecked, hcommit⟩ := updateSale_ok h
  obtain ⟨s, hs, rfl⟩ := commitEdit_ok hcommit
  refine .of_sums rfl fun id hid => cashSums_of_sales rfl rfl rfl rfl ?_
  refine cashSales_modify (f := e.row ctx) (k := saleId) rfl fun s' hs' => ?_
  obtain rfl : s = s' := Option.some.inj (hs.symm.trans hs')
  by_cases hcash : e.data.TouchesCash s
  · by_cases hin : s.cashSessionId = some id
    · -- the sale is in the closed session: the lock and the total keep it
      obtain ⟨existing, hexisting, hcounted, hlocked, hkeeps⟩ :=
        hclosed s hs hcash (Db.cashClosed_iff.2 ⟨id, hin, hid⟩)
      obtain rfl : e.existing = existing :=
        Option.some.inj (hchecked.existing.symm.trans hexisting)
      have hedit := hchecked.edit
      rw [hlocked] at hedit
      exact Sale.inCash_congr
        ((SaleEdit.counted_row_iff ctx (checkEdit_closed hedit) hcounted).2 hkeeps) id
    · -- the sale is not in it, and does not enter it
      have hrow : (e.row ctx s).inDrawer id = false := by
        by_contra hrow
        obtain ⟨hsession, hmethod, -⟩ := Sale.inDrawer_iff.1 (Bool.eq_true_of_not_eq_false hrow)
        dsimp only [SaleEdit.row] at hsession hmethod
        split at hsession
        · next hpaid =>
          have henters : e.data.EntersCash (reads .existing) saleId s :=
            ⟨hpaid.1, hmethod, by simpa [hchecked.existing] using hpaid.2⟩
          have := hopen s hs henters id (hchecked.openSession ▸ hsession)
          simp [this] at hid
        · exact hin hsession
      rw [Sale.inCash_eq_zero hrow, Sale.inCash_eq_zero (Sale.inDrawer_of_ne hin)]
  · -- neither before nor after is the sale in cash
    have hout : ∀ s' : Sale, s'.paymentMethod ≠ some .cash → s'.inCash id = 0 := fun s' hs' =>
      Sale.inCash_eq_zero (by simp [Sale.inDrawer, hs'])
    rw [hout s fun hm => hcash (.inl hm), hout (e.row ctx s) fun hm => hcash (.inr hm)]

theorem createExpense_drawersKept {ctx : Caller} {today : ℤ} {data : ExpenseInput} {seen db db' : Db}
    (h : createExpense ctx today data seen db = .ok db')
    (hopen : data.day.getD today = today → data.paymentMethod = some .cash →
      StillOpen seen db ctx.shop.id) : DrawersKept db db' := by
  obtain rfl := createExpense_ok h
  refine .of_sums rfl fun id hid => ?_
  have hexpenses : (db.expenses.insert (newExpense ctx today data seen)).sum (fun _ e =>
      if e.cashSessionId = some id ∧ e.paymentMethod = some .cash then e.amount else 0) =
      cashExpenses db id := by
    rw [Table.sum_insert, if_neg, add_zero, cashExpenses]
    rintro ⟨hsession, hcash⟩
    dsimp only [newExpense] at hsession hcash
    split at hsession
    · next hday =>
      have := hopen hday hcash id hsession
      simp [this] at hid
    · cases hsession
  simp only [Db.cashSums, ← hexpenses]
  rfl

/-- A receipt names a session only in cash, and then the one found open. -/
theorem manualDepositReceipt_session {ctx : Caller} {method : Option PaymentMethod} {seen : Db}
    {r : DepositReceipt} (h : manualDepositReceipt ctx method seen = .ok r) {id : ℕ}
    (hid : r.cashSessionId = some id) :
    method = some .cash ∧ seen.openSession ctx.shop.id = some id := by
  simp only [manualDepositReceipt, bind_eq_ok, exists_punit, orRefuse_eq_ok, pure_eq_ok,
    Option.filter_eq_some_iff] at h
  obtain ⟨-, m, ⟨rfl, -⟩, rfl⟩ := h
  dsimp only at hid
  split at hid
  · next hcash => exact ⟨by rw [hcash], hid⟩
  · cases hid

theorem setAppointmentDepositPaid_drawersKept {ctx : Caller} {appointmentId : ℕ}
    {depositPaid : Bool} {method : Option PaymentMethod} {reads : DepositRead → Db} {db db' : Db}
    (h : setAppointmentDepositPaid ctx appointmentId depositPaid method reads db = .ok db')
    (hopen : depositPaid = true → method = some .cash → StillOpen (reads .session) db ctx.shop.id)
    (hclosed : ((reads .appointment).appointments.get? appointmentId).any
        (·.depositPaid != depositPaid) = true →
      ∀ a, db.appointments.get? appointmentId = some a →
        ∀ id, a.inDrawer id = true → db.sessionClosed id = false) : DrawersKept db db' := by
  -- what the appointment puts in a closed session is nothing, before and after
  have hkept : ∀ f : Appointment → Appointment,
      (∀ a, db.appointments.get? appointmentId = some a → ∀ id, a.inDrawer id = true →
        db.sessionClosed id = false) →
      (∀ a id, (f a).inDrawer id = true → db.sessionClosed id = false) →
      DrawersKept db { db with appointments := db.appointments.modify appointmentId f } := by
    intro f hbefore hafter
    refine .of_sums rfl fun id hid => cashSums_of_deposits rfl rfl rfl rfl ?_
    refine cashDeposits_modify (k := appointmentId) rfl fun a ha => ?_
    have hout : a.inDrawer id = false := by
      by_contra hin
      simp [hbefore a ha id (Bool.eq_true_of_not_eq_false hin)] at hid
    have hout' : (f a).inDrawer id = false := by
      by_contra hin
      simp [hafter a id (Bool.eq_true_of_not_eq_false hin)] at hid
    rw [Appointment.inCash_eq_zero hout, Appointment.inCash_eq_zero hout']
  rcases setAppointmentDepositPaid_ok h with
    ⟨rfl, -⟩ | ⟨seen, receipt, hseen, hunpaid, hpaid, hreceipt, rfl⟩ |
    ⟨seen, hseen, hpaid, hunpaid, -, rfl⟩
  · exact .refl _
  · refine hkept _ (hclosed (by simp [hseen, hunpaid, hpaid])) fun a id hin => ?_
    have hfound := (Appointment.inDrawer_iff.1 hin).1
    obtain ⟨hcash, hsession⟩ := manualDepositReceipt_session hreceipt hfound
    exact hopen hpaid hcash id hsession
  · refine hkept _ (hclosed (by simp [hseen, hunpaid, hpaid])) fun a id hin => ?_
    have hfound := (Appointment.inDrawer_iff.1 hin).1
    cases hfound

theorem openCashSession_drawersKept {ctx : Caller} {openingBalance : ℚ} {db db' : Db}
    (h : openCashSession ctx openingBalance db = .ok db') : DrawersKept db db' := by
  obtain ⟨-, rfl⟩ := openCashSession_ok h
  refine ⟨⟨fun hc _ => Table.get?_insert_of_some _ hc, fun _ => rfl⟩, fun {id} hid => ?_⟩
  obtain ⟨c, hc, hclosed⟩ := Db.sessionClosed_iff.1 hid
  rw [Table.get?_insert] at hc
  split at hc
  · obtain rfl := Option.some.inj hc
    cases hclosed
  · exact Db.sessionClosed_iff.2 ⟨c, hc, hclosed⟩

/-- A close writes a session that is open. -/
theorem closeCashSession_closedKept {ctx : Caller} {countedBalance : ℚ} {reads : CloseRead → Db}
    {db db' : Db} (h : closeCashSession ctx countedBalance reads db = .ok db') :
    ClosedKept db db' := by
  obtain ⟨id, session, now, -, -, -, hnow, hopen, rfl⟩ := closeCashSession_ok h
  refine ⟨fun {j c} hc hclosed => ?_, fun _ => rfl⟩
  rw [Table.get?_modify_of_ne _ _ (fun e => ?_)]
  · exact hc
  · subst e
    rw [hnow] at hc
    obtain rfl := Option.some.inj hc
    rw [hopen] at hclosed
    cases hclosed

end Barbershop
