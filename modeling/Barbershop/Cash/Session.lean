import Barbershop.Sale.Update

/-!
# Cash sessions

A cash session is opened with the change in the drawer and closed with a count. `closeCashSession`
reads the open session, then the five sums of what is attached to it, and then closes it by an
update conditional on its being open; between these steps other requests commit. Sales, expenses and
cash deposits are attached to the session that their request found open.
-/

namespace Barbershop

open Lib

/-! ## What is in the drawer -/

/-- The five sums of a session: what was received and paid out in cash. -/
structure CashSums where
  sales : ℚ
  expenses : ℚ
  rent : ℚ
  tips : ℚ
  deposits : ℚ
  deriving DecidableEq

/-- Does the sale count in the session's drawer? -/
def Sale.inDrawer (s : Sale) (session : ℕ) : Bool :=
  s.cashSessionId == some session && s.paymentMethod == some .cash && s.paymentStatus == .paid

def cashSales (db : Db) (session : ℕ) : ℚ :=
  db.sales.sum fun _ s => if s.inDrawer session then s.total else 0

def cashExpenses (db : Db) (session : ℕ) : ℚ :=
  db.expenses.sum fun _ e =>
    if e.cashSessionId = some session ∧ e.paymentMethod = some .cash then e.amount else 0

def cashRent (db : Db) (session : ℕ) : ℚ :=
  db.rentPayments.sum fun _ r =>
    if r.cashSessionId = some session ∧ r.method = .cash ∧ r.succeeded then r.amount else 0

def cashTips (db : Db) (session : ℕ) : ℚ :=
  db.tips.sum fun _ t => if t.cashSessionId = some session ∧ t.method = .cash then t.amount else 0

/-- The cash deposit of an appointment that counts in the session's drawer. -/
def Appointment.inDrawer (a : Appointment) (session : ℕ) : Bool :=
  a.depositCashSessionId == some session && a.depositPaid && a.depositManualMethod == some .cash

def cashDeposits (db : Db) (session : ℕ) : ℚ :=
  db.appointments.sum fun _ a => if a.inDrawer session then a.depositAmount.getD 0 else 0

def Db.cashSums (db : Db) (session : ℕ) : CashSums where
  sales := cashSales db session
  expenses := cashExpenses db session
  rent := cashRent db session
  tips := cashTips db session
  deposits := cashDeposits db session

/-- `expectedBalance`: the opening balance, what came in and what went out. -/
def CashSums.expected (c : CashSums) (openingBalance : ℚ) : ℚ :=
  openingBalance + (c.sales + c.rent + c.tips + c.deposits) - c.expenses

/-! ## Opening and closing -/

/-- Is some session of the unit open? -/
def Db.hasOpenSession (db : Db) (shop : ℕ) : Bool := (db.openSession shop).isSome

/-- The session `openCashSession` creates. -/
def newSession (shop : ℕ) (openingBalance : ℚ) : CashSession where
  barbershopId := shop
  openingBalance := openingBalance
  countedBalance := none
  expectedBalance := none
  difference := none
  status := .opened

/-- The checks before the transaction. -/
def checkOpening (ctx : Caller) (openingBalance : ℚ) : Result Unit := do
  ctx.ensureBarbershopAccess .reception
  ctx.ensureModuleAccess .cashFlow
  checkMoney "Troco inicial" openingBalance ctx.shop.moneyCap

/-- The check inside the transaction, under the unit's cash lock. -/
def ensureNoOpenSession (shop : ℕ) (db : Db) : Result Unit :=
  refuseIf (db.hasOpenSession shop = true)
    (.badRequest "Já existe um caixa aberto para esta unidade")

def openCashSession (ctx : Caller) (openingBalance : ℚ) (db : Db) : Result Db := do
  checkOpening ctx openingBalance
  ensureNoOpenSession ctx.shop.id db
  return { db with cashSessions := db.cashSessions.insert (newSession ctx.shop.id openingBalance) }

theorem openCashSession_ok {ctx : Caller} {openingBalance : ℚ} {db db' : Db}
    (h : openCashSession ctx openingBalance db = .ok db') :
    db.openSession ctx.shop.id = none ∧ db' = { db with
      cashSessions := db.cashSessions.insert (newSession ctx.shop.id openingBalance) } := by
  simp only [openCashSession, ensureNoOpenSession, bind_eq_ok, exists_punit, refuseIf_eq_ok,
    pure_eq_ok] at h
  obtain ⟨-, hnone, rfl⟩ := h
  exact ⟨by simpa [Db.hasOpenSession] using hnone, rfl⟩

/-- The reads of `closeCashSession`: the open session, then the five sums. -/
inductive CloseRead where
  | session | sales | expenses | rent | tips | deposits
  deriving DecidableEq, Repr

/-- The five sums, each read in its own statement. -/
def readSums (reads : CloseRead → Db) (session : ℕ) : CashSums where
  sales := cashSales (reads .sales) session
  expenses := cashExpenses (reads .expenses) session
  rent := cashRent (reads .rent) session
  tips := cashTips (reads .tips) session
  deposits := cashDeposits (reads .deposits) session

/-- The session after the close. -/
def CashSession.close (countedBalance expectedBalance : ℚ) (s : CashSession) : CashSession :=
  { s with
    countedBalance := some countedBalance
    expectedBalance := some expectedBalance
    difference := some (countedBalance - expectedBalance)
    status := .closed }

def closeCashSession (ctx : Caller) (countedBalance : ℚ) (reads : CloseRead → Db) (db : Db) :
    Result Db := do
  ctx.ensureBarbershopAccess .reception
  ctx.ensureModuleAccess .cashFlow
  checkMoney "Valor contado" countedBalance ctx.shop.moneyCap
  let (id, session) ← orRefuse ((reads .session).cashSessions.find? fun _ s =>
      s.barbershopId == ctx.shop.id && s.status == .opened)
    (.notFound "Nenhum caixa aberto para esta unidade")
  let expectedBalance := (readSums reads id).expected session.openingBalance
  let cashSessions ← orRefuse (db.cashSessions.tryModify id (·.status == .opened)
      (·.close countedBalance expectedBalance))
    (.badRequest "Este caixa já foi fechado")
  return { db with cashSessions := cashSessions }

theorem closeCashSession_ok {ctx : Caller} {countedBalance : ℚ} {reads : CloseRead → Db}
    {db db' : Db} (h : closeCashSession ctx countedBalance reads db = .ok db') :
    ∃ id session now, (reads .session).cashSessions.get? id = some session ∧
      session.barbershopId = ctx.shop.id ∧ session.status = .opened ∧
      db.cashSessions.get? id = some now ∧ now.status = .opened ∧
      db' = { db with
        cashSessions := db.cashSessions.modify id
          (CashSession.close countedBalance
            ((readSums reads id).expected session.openingBalance)) } := by
  simp only [closeCashSession, bind_eq_ok, exists_punit, orRefuse_eq_ok, pure_eq_ok] at h
  obtain ⟨-, -, -, ⟨id, session⟩, hfound, cashSessions, hclose, rfl⟩ := h
  obtain ⟨hsession, hp⟩ := Table.find?_some hfound
  obtain ⟨now, hnow, hopen, rfl⟩ := Table.tryModify_eq_some.1 hclose
  simp only [Bool.and_eq_true, beq_iff_eq] at hp
  exact ⟨id, session, now, hsession, hp.1, hp.2, hnow, by simpa using hopen, rfl⟩

/-! ## Expenses -/

structure ExpenseInput where
  amount : ℚ
  paymentMethod : Option PaymentMethod
  /-- `EXPENSE_CATEGORIES.includes(category)` -/
  categoryKnown : Bool
  /-- Neither empty nor too long. -/
  descriptionValid : Bool
  /-- The expense date as a calendar day; `none` is now. -/
  day : Option ℤ

/-- The row of an expense; only an expense of today comes out of the open session. -/
def newExpense (ctx : Caller) (today : ℤ) (data : ExpenseInput) (seen : Db) : Expense where
  barbershopId := ctx.shop.id
  cashSessionId := if data.day.getD today = today then seen.openSession ctx.shop.id else none
  amount := data.amount
  paymentMethod := data.paymentMethod

/-- `createExpense`; `today` is the day in the unit's time zone. -/
def createExpense (ctx : Caller) (today : ℤ) (data : ExpenseInput) (seen db : Db) : Result Db := do
  ctx.ensureBarbershopAccess .manager
  ctx.ensureModuleAccess .cashFlow
  refuseIf (¬0 < data.amount) (.badRequest "Valor da despesa inválido")
  checkMoney "Valor da despesa" data.amount ctx.shop.moneyCap
  refuseIf (data.categoryKnown = false) (.badRequest "Categoria da despesa inválida")
  refuseIf (∃ m ∈ data.paymentMethod, m.known = false)
    (.badRequest "Forma de pagamento inválida")
  refuseIf (data.descriptionValid = false) (.badRequest "Descreva a despesa (até 300 caracteres)")
  refuseIf (∃ d ∈ data.day, today < d) (.badRequest "Data da despesa inválida")
  return { db with expenses := db.expenses.insert (newExpense ctx today data seen) }

theorem createExpense_ok {ctx : Caller} {today : ℤ} {data : ExpenseInput} {seen db db' : Db}
    (h : createExpense ctx today data seen db = .ok db') :
    db' = { db with expenses := db.expenses.insert (newExpense ctx today data seen) } := by
  simp only [createExpense, bind_eq_ok, exists_punit, pure_eq_ok] at h
  obtain ⟨-, -, -, -, -, -, -, -, rfl⟩ := h
  rfl

/-! ## Deposits received by hand -/

/-- What `manualDepositReceipt` records. -/
structure DepositReceipt where
  method : PaymentMethod
  receivedAt : ℤ
  userId : ℕ
  cashSessionId : Option ℕ

/-- A deposit in cash enters the open session. -/
def manualDepositReceipt (ctx : Caller) (method : Option PaymentMethod) (seen : Db) :
    Result DepositReceipt := do
  refuseIf (ctx.accessLevel.rank < AccessLevel.reception.rank)
    (.forbidden "O sinal recebido à mão é marcado pela recepção para cima.")
  let method ← orRefuse (method.filter (·.known))
    (.badRequest "Informe a forma em que o sinal foi recebido.")
  return {
    method := method
    receivedAt := ctx.now
    userId := ctx.userId
    cashSessionId := if method = .cash then seen.openSession ctx.shop.id else none }

def Appointment.receiveDeposit (r : DepositReceipt) (a : Appointment) : Appointment :=
  { a with
    depositPaid := true
    depositManualMethod := some r.method
    depositReceivedAt := some r.receivedAt
    depositReceivedByUserId := some r.userId
    depositCashSessionId := r.cashSessionId }

def Appointment.clearDeposit (a : Appointment) : Appointment :=
  { a with
    depositPaid := false
    depositManualMethod := none
    depositReceivedAt := none
    depositReceivedByUserId := none
    depositCashSessionId := none }

/-- The reads of `setAppointmentDepositPaid`: the appointment, then a cash session. -/
inductive DepositRead where
  | appointment | session
  deriving DecidableEq, Repr

def setAppointmentDepositPaid (ctx : Caller) (appointmentId : ℕ) (depositPaid : Bool)
    (paymentMethod : Option PaymentMethod) (reads : DepositRead → Db) (db : Db) : Result Db := do
  let appointment ← orRefuse
    (((reads .appointment).appointments.get? appointmentId).filter (·.barbershopId == ctx.shop.id))
    (.notFound "Agendamento não encontrado")
  refuseIf (∃ own ∈ ctx.ownBarberId, appointment.barberId ≠ own)
    (.notFound "Agendamento não encontrado")
  refuseIf (appointment.depositPaidAt.isSome ∨ appointment.depositRefundedAt.isSome)
    (.badRequest "Sinal pago online: use \"Estornar sinal\" pra devolver ao cliente.")
  if depositPaid = appointment.depositPaid then return db
  else if depositPaid then do
    let receipt ← manualDepositReceipt ctx paymentMethod (reads .session)
    return { db with
      appointments := db.appointments.modify appointmentId (·.receiveDeposit receipt) }
  else do
    refuseIf (ctx.accessLevel.rank < AccessLevel.reception.rank)
      (.forbidden "O sinal recebido à mão é marcado pela recepção para cima.")
    refuseIf (∃ id ∈ appointment.depositCashSessionId,
        ((reads .session).cashSessions.get? id).map (·.status) ≠ some .opened)
      (.badRequest "Esse sinal entrou num caixa que já foi fechado e não pode mais ser desmarcado.")
    return { db with appointments := db.appointments.modify appointmentId (·.clearDeposit) }

/-- Marking a deposit writes one appointment: a receipt, its removal, or nothing. -/
theorem setAppointmentDepositPaid_ok {ctx : Caller} {appointmentId : ℕ} {depositPaid : Bool}
    {paymentMethod : Option PaymentMethod} {reads : DepositRead → Db} {db db' : Db}
    (h : setAppointmentDepositPaid ctx appointmentId depositPaid paymentMethod reads db = .ok db') :
    (db' = db ∧ ∃ a, (reads .appointment).appointments.get? appointmentId = some a ∧
      a.depositPaid = depositPaid) ∨
    (∃ a receipt, (reads .appointment).appointments.get? appointmentId = some a ∧
      a.depositPaid = false ∧ depositPaid = true ∧
      manualDepositReceipt ctx paymentMethod (reads .session) = .ok receipt ∧
      db' = { db with
        appointments := db.appointments.modify appointmentId (·.receiveDeposit receipt) }) ∨
    ∃ a, (reads .appointment).appointments.get? appointmentId = some a ∧ a.depositPaid = true ∧
      depositPaid = false ∧ (∀ id, a.depositCashSessionId = some id →
        ((reads .session).cashSessions.get? id).map (·.status) = some .opened) ∧
      db' = { db with appointments := db.appointments.modify appointmentId (·.clearDeposit) } := by
  simp only [setAppointmentDepositPaid, bind_eq_ok, exists_punit, orRefuse_eq_ok,
    Option.filter_eq_some_iff] at h
  obtain ⟨a, ⟨ha, -⟩, -, -, h⟩ := h
  split at h
  · next heq => exact .inl ⟨(pure_eq_ok.1 h).symm, a, ha, heq.symm⟩
  · next hne =>
    split at h
    · next hpaid =>
      simp only [bind_eq_ok, pure_eq_ok] at h
      obtain ⟨receipt, hr, rfl⟩ := h
      exact .inr (.inl ⟨a, receipt, ha, by simpa [hpaid] using hne, hpaid, hr, rfl⟩)
    · next hpaid =>
      simp only [bind_eq_ok, exists_punit, refuseIf_eq_ok, pure_eq_ok] at h
      obtain ⟨-, hopen, rfl⟩ := h
      push Not at hopen
      exact .inr (.inr ⟨a, ha, by simpa [hpaid] using hne, by simpa using hpaid, hopen, rfl⟩)

/-! ## No-show fees -/

/-- The sale a collected no-show fee makes: paid, without items, in the open session. -/
def noShowSale (ctx : Caller) (fee : NoShowFee) (method : PaymentMethod) (session : Option ℕ) :
    Sale where
  createdAt := ctx.now
  barbershopId := ctx.shop.id
  customerId := some fee.customerId
  barberId := none
  appointmentId := none
  cashSessionId := session
  saleType := .noShowFee
  subtotal := fee.amount
  discountAmount := 0
  taxAmount := 0
  total := fee.amount
  paymentStatus := .paid
  paymentMethod := some method
  paidAt := some ctx.now
  giftCardId := none
  giftCardAmountApplied := none
  loyaltyPointsEarned := none
  loyaltyPointsRedeemed := none
  loyaltyDiscountAmount := none
  depositApplied := none
  prepaidApplied := none
  clientSubscriptionId := none
  items := []

/-- `markNoShowFeeCollected`; the fee and the open session are read before the transaction. -/
def markNoShowFeeCollected (ctx : Caller) (feeId : ℕ) (paymentMethod : Option PaymentMethod)
    (seen db : Db) : Result Db := do
  ctx.ensureBarbershopAccess .reception
  let method ← orRefuse paymentMethod (.badRequest "Informe a forma de pagamento")
  checkSaleKinds none none none (some method) none
  let fee ← orRefuse ((seen.noShowFees.get? feeId).filter (·.barbershopId == ctx.shop.id))
    (.notFound "Taxa não encontrada")
  let fees ← orRefuse (db.noShowFees.tryModify feeId (·.status == .pending) fun f =>
      { f with status := .collected, collectedAt := some ctx.now, saleId := some db.sales.next })
    (.badRequest "Esta taxa não está pendente")
  return { db with
    noShowFees := fees
    sales := db.sales.insert (noShowSale ctx fee method (seen.openSession ctx.shop.id)) }

theorem markNoShowFeeCollected_ok {ctx : Caller} {feeId : ℕ} {paymentMethod : Option PaymentMethod}
    {seen db db' : Db} (h : markNoShowFeeCollected ctx feeId paymentMethod seen db = .ok db') :
    ∃ fee method fees, seen.noShowFees.get? feeId = some fee ∧ db' = { db with
      noShowFees := fees
      sales := db.sales.insert (noShowSale ctx fee method (seen.openSession ctx.shop.id)) } := by
  simp only [markNoShowFeeCollected, bind_eq_ok, exists_punit, orRefuse_eq_ok, pure_eq_ok,
    Option.filter_eq_some_iff] at h
  obtain ⟨-, method, -, -, fee, ⟨hfee, -⟩, fees, -, rfl⟩ := h
  exact ⟨fee, method, fees, hfee, rfl⟩

end Barbershop
