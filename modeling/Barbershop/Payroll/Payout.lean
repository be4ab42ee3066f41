import Barbershop.Model.Db
import Barbershop.Lib.Calls

/-!
# Pay of the staff

A professional is paid a base (fixed, commission, both or the greater of the two), and between
payouts the unit writes entries: tips to pass on, advances already paid, bonuses and deductions. A
payout closes the open entries up to the end of its period under the advisory lock of the
professional; when the advances exceed what is due it pays nothing and the rest becomes an advance
of the next period, its carry-over. Entries are deleted and payouts are undone without the lock, each
by rows read before.

The tables here hold the rows of one professional.
-/

namespace Barbershop

open Lib

/-! ## Rows -/

/-- `PAY_TYPES` -/
inductive PayType where
  | commission | fixed | fixedPlusCommission | greaterOf
  deriving DecidableEq

/-- `PAY_PERIODS` -/
inductive PayPeriod where
  | monthly | biweekly | weekly
  deriving DecidableEq

/-- `ENTRY_TYPES` -/
inductive EntryType where
  | tip | advance | bonus | deduction
  deriving DecidableEq

structure BarberPayConfig where
  payType : PayType
  fixedAmount : Option ℚ
  payPeriod : PayPeriod

structure BarberPayEntry where
  type : EntryType
  amount : ℚ
  method : Option PaymentMethod
  date : ℤ
  payoutId : Option ℕ
  expenseId : Option ℕ
  cashSessionId : Option ℕ
  deriving DecidableEq

structure BarberPayout where
  periodStart : ℤ
  periodEnd : ℤ
  payType : PayType
  serviceSales : ℚ
  productSales : ℚ
  salesCount : ℕ
  commission : ℚ
  fixedAmount : ℚ
  baseAmount : ℚ
  tips : ℚ
  bonuses : ℚ
  deductions : ℚ
  advances : ℚ
  total : ℚ
  currency : String
  method : PaymentMethod
  expenseId : Option ℕ
  cashSessionId : Option ℕ
  carryOverEntryId : Option ℕ
  deriving DecidableEq

/-- The pay of one professional of a unit. -/
structure Payroll where
  config : Option BarberPayConfig
  entries : Table BarberPayEntry
  payouts : Table BarberPayout
  expenses : Table Expense
  cashSessions : Table CashSession
  /-- The entries that tips of appointments point to. -/
  tipEntries : List ℕ
  /-- `pg_advisory_xact_lock(4, barberId)` is taken. -/
  locked : Bool

/-! ## Periods -/

def DAY_MS : ℤ := 86400000

/-- The number of a UTC day from its year, month from 0 and day of the month; months and days may run
over (`Date.UTC`). -/
def utcDay (year month day : ℤ) : ℤ :=
  let year := year + month / 12
  let month := month % 12
  -- years that begin in March, in eras of 400 of them
  let marchYear := if month < 2 then year - 1 else year
  let era := marchYear / 400
  let yearOfEra := marchYear % 400
  let dayOfYear := (153 * ((month + 10) % 12) + 2) / 5 + day - 1
  era * 146097 + (yearOfEra * 365 + yearOfEra / 4 - yearOfEra / 100 + dayOfYear) - 719468

/-- `getUTCFullYear` and `getUTCMonth` of a UTC day. -/
def utcMonth (day : ℤ) : ℤ × ℤ :=
  let day := day + 719468
  let era := day / 146097
  let dayOfEra := day % 146097
  let yearOfEra := (dayOfEra - dayOfEra / 1460 + dayOfEra / 36524 - dayOfEra / 146096) / 365
  let dayOfYear := dayOfEra - (365 * yearOfEra + yearOfEra / 4 - yearOfEra / 100)
  let month := ((5 * dayOfYear + 2) / 153 + 2) % 12
  (era * 400 + yearOfEra + (if month < 2 then 1 else 0), month)

/-- The share of each month that the days from `first` to `last` fill, over `n` months from the one
given. -/
def monthShares (first last : ℤ) : ℕ → ℤ → ℤ → ℚ
  | 0, _, _ => 0
  | n + 1, year, month =>
    let monthStart := utcDay year month 1
    let monthEnd := utcDay year (month + 1) 0
    let daysInMonth := monthEnd - monthStart + 1
    let start := if utcMonth first = (year, month) then first else monthStart
    let stop := min monthEnd last
    let share : ℚ := if start ≤ stop then ((stop - start + 1 : ℤ) : ℚ) / daysInMonth else 0
    if last ≤ monthEnd then share
    else if month = 11 then share + monthShares first last n (year + 1) 0
    else share + monthShares first last n year (month + 1)

/-- How many pay periods there are between `start` and `stop`. -/
def periodShare (start stop : ℤ) (period : PayPeriod) : ℚ :=
  let first := start + DAY_MS / 2
  let last := stop - DAY_MS / 2
  let days := max 1 (roundHalfUp ((last - first : ℤ) / (DAY_MS : ℚ)) + 1)
  match period with
  | .weekly => days / 7
  | .biweekly => days / 14
  | .monthly =>
    let (year, month) := utcMonth (first / DAY_MS)
    let (lastYear, lastMonth) := utcMonth (last / DAY_MS)
    -- the loop ends in the month of the last day
    let months := ((lastYear * 12 + lastMonth) - (year * 12 + month)).toNat + 1
    monthShares (first / DAY_MS) (last / DAY_MS) months year month

/-- A text given as a date: the number of the calendar day it is, if it is one. -/
abbrev DayText := Option ℤ

/-- The time zone of the unit. -/
structure ShopCalendar where
  /-- `zonedTimeToUtc(day, 0)` -/
  midnight : ℤ → ℤ
  /-- `toZonedParts(instant).dateStr` -/
  dayOf : ℤ → ℤ
  dateStr : ℤ → String

def MAX_PERIOD_DAYS : ℤ := 400

namespace ShopCalendar

variable (cal : ShopCalendar)

def range (first last : DayText) : Result (ℤ × ℤ) :=
  match first, last with
  | some first, some last =>
    if last < first then .error (.badRequest "Período inválido")
    else if MAX_PERIOD_DAYS < last - first then
      .error (.badRequest s!"O período pode ter no máximo {MAX_PERIOD_DAYS} dias")
    else .ok (cal.midnight first, cal.midnight (last + 1) - 1)
  | _, _ => .error (.badRequest "Período inválido")

def label (start stop : ℤ) : String :=
  cal.dateStr (cal.dayOf start) ++ " – " ++ cal.dateStr (cal.dayOf stop)

end ShopCalendar

/-! ## What is due -/

/-- `PAY_METHODS` -/
def PaymentMethod.paysStaff : PaymentMethod → Bool
  | .cash | .pix | .transfer | .other => true
  | .card | .creditCard | .debitCard | .unknown _ => false

/-- The row of the professional in `computeCommissions`. -/
structure CommissionRow where
  salesCount : ℕ
  totalServiceSales : ℚ
  totalProductSales : ℚ
  totalCommission : ℚ

/-- What `compute` returns. -/
structure PayComputation where
  payType : PayType
  salesCount : ℕ
  serviceSales : ℚ
  productSales : ℚ
  commission : ℚ
  fixedAmount : ℚ
  baseAmount : ℚ
  tips : ℚ
  bonuses : ℚ
  deductions : ℚ
  advances : ℚ
  total : ℚ
  entries : List (ℕ × BarberPayEntry)

/-- `configView` -/
def configView (config : Option BarberPayConfig) : BarberPayConfig :=
  config.getD ⟨.commission, none, .monthly⟩

def baseOf (payType : PayType) (fixed commission : ℚ) : ℚ :=
  match payType with
  | .fixed => fixed
  | .fixedPlusCommission => fixed + commission
  | .greaterOf => max fixed commission
  | .commission => commission

def sumOf (entries : List (ℕ × BarberPayEntry)) (type : EntryType) : ℚ :=
  round2 ((entries.filter fun e => e.2.type == type).map (·.2.amount)).sum

/-- `compute` from what it reads: the configuration, the commissions and the open entries. -/
def compute (config : Option BarberPayConfig) (row : Option CommissionRow)
    (entries : List (ℕ × BarberPayEntry)) (start stop : ℤ) : PayComputation :=
  let c := configView config
  let commission := round2 (row.elim 0 (·.totalCommission))
  let fixed :=
    if c.payType = .commission then 0 else c.fixedAmount.getD 0 * periodShare start stop c.payPeriod
  let base := baseOf c.payType fixed commission
  let tips := sumOf entries .tip
  let bonuses := sumOf entries .bonus
  let deductions := sumOf entries .deduction
  let advances := sumOf entries .advance
  { payType := c.payType
    salesCount := row.elim 0 (·.salesCount)
    serviceSales := round2 (row.elim 0 (·.totalServiceSales))
    productSales := round2 (row.elim 0 (·.totalProductSales))
    commission := commission
    fixedAmount := round2 fixed
    baseAmount := round2 base
    tips := tips
    bonuses := bonuses
    deductions := deductions
    advances := advances
    total := round2 (base + tips + bonuses - deductions - advances)
    entries := entries }

/-- The entries that `compute` takes: open, and not after the end of the period. -/
def Payroll.openEntries (s : Payroll) (stop : ℤ) : List (ℕ × BarberPayEntry) :=
  s.entries.filter fun _ e => e.payoutId.isNone && decide (e.date ≤ stop)

def BarberPayout.overlaps (p : BarberPayout) (start stop : ℤ) : Bool :=
  decide (p.periodStart ≤ stop) && decide (start ≤ p.periodEnd)

/-- `overlapping` -/
def Payroll.overlapping (s : Payroll) (start stop : ℤ) : Option (ℕ × BarberPayout) :=
  s.payouts.find? fun _ p => p.overlaps start stop

/-- The period of a payout has been paid. -/
def ShopCalendar.alreadyPaid (cal : ShopCalendar) (clash : BarberPayout) : Refusal :=
  let paid := cal.label clash.periodStart clash.periodEnd
  .badRequest s!"Esse período já foi pago ({paid})"

/-! ## Requests -/

def Caller.ensureNotOwnPay (ctx : Caller) (barberUserId : Option ℕ) : Result Unit :=
  refuseIf (barberUserId = some ctx.userId ∧ ctx.accessLevel ≠ .owner)
    (.forbidden "O seu pagamento é definido e registrado pelo dono")

def Payroll.openCashSessionId (s : Payroll) (shopId : ℕ) (method : Option PaymentMethod) :
    Option ℕ :=
  if method = some .cash then
    (s.cashSessions.find? fun _ c => c.barbershopId == shopId && c.status == .opened).map (·.1)
  else none

def Payroll.ensureCashStillOpen (s : Payroll) (cashSessionId : Option ℕ) : Result Unit :=
  refuseIf ((cashSessionId.bind s.cashSessions.get?).any (·.status == .closed) = true) (.badRequest
    "O caixa em que esse dinheiro saiu já foi fechado. Lance a correção no caixa.")

/-- An undo is refused once the carry-over has entered the next payout. -/
def Payroll.ensureCarryOverOpen (s : Payroll) (p : BarberPayout) : Result Unit :=
  refuseIf ((p.carryOverEntryId.bind s.entries.get?).any (·.payoutId.isSome) = true) (.badRequest
    "O vale que sobrou deste pagamento já entrou no pagamento seguinte. Desfaça aquele antes.")

structure EntryInput where
  /-- `none`: a text that is no type. -/
  type : Option EntryType
  amount : ℚ
  method : Option PaymentMethod
  /-- `none`: not given. -/
  date : Option DayText

/-- An entry that has passed the checks of `addEntry`. -/
structure EntryOrder where
  ctx : Caller
  type : EntryType
  amount : ℚ
  method : Option PaymentMethod
  date : ℤ

/-- The date of an entry: midnight of the day that is given, or now. -/
def EntryInput.dateIn (data : EntryInput) (cal : ShopCalendar) (now : ℤ) : Result ℤ :=
  match data.date with
  | none => .ok now
  | some day => (·.1) <$> cal.range day day

def checkEntry (cal : ShopCalendar) (barberUserId : Option ℕ) (ctx : Caller) (data : EntryInput) :
    Result EntryOrder := do
  ctx.ensureBarbershopAccess .manager
  ctx.ensureNotOwnPay barberUserId
  let type ← orRefuse data.type (.badRequest "Tipo de lançamento inválido")
  refuseIf (¬ 0 < data.amount ∨ ctx.shop.moneyCap < data.amount) (.badRequest "Valor inválido")
  refuseIf (type = .advance ∧ data.method.any (·.paysStaff) = false)
    (.badRequest "Informe como o vale foi pago")
  let date ← data.dateIn cal ctx.now
  return ⟨ctx, type, round2 data.amount, data.method, date⟩

namespace EntryOrder

variable (o : EntryOrder)

def expense (cashSessionId : Option ℕ) : Expense where
  barbershopId := o.ctx.shop.id
  cashSessionId := cashSessionId
  amount := o.amount
  paymentMethod := o.method

def entry (expenseId cashSessionId : Option ℕ) : BarberPayEntry where
  type := o.type
  amount := o.amount
  method := o.method
  date := o.date
  payoutId := none
  expenseId := expenseId
  cashSessionId := cashSessionId

/-- The transaction of `addEntry`; an advance is an expense as well. -/
def commit (cashSessionId : Option ℕ) (s : Payroll) : Payroll :=
  if o.type = .advance then
    { s with
      expenses := s.expenses.insert (o.expense cashSessionId)
      entries := s.entries.insert (o.entry (some s.expenses.next) cashSessionId) }
  else { s with entries := s.entries.insert (o.entry none none) }

end EntryOrder

structure PayInput where
  first : DayText
  last : DayText
  method : PaymentMethod

/-- A payout that has passed the checks of `pay`. -/
structure PayoutOrder where
  ctx : Caller
  start : ℤ
  stop : ℤ
  method : PaymentMethod
  cashSessionId : Option ℕ

def checkPay (cal : ShopCalendar) (barberUserId : Option ℕ) (ctx : Caller) (data : PayInput) :
    Result (ℤ × ℤ) := do
  ctx.ensureBarbershopAccess .manager
  ctx.ensureNotOwnPay barberUserId
  refuseIf (data.method.paysStaff = false) (.badRequest "Forma de pagamento inválida")
  refuseIf (data.last.any (fun day => decide (cal.dayOf ctx.now < day)) = true)
    (.badRequest "Esse período ainda não acabou. Registre o pagamento até hoje.")
  cal.range data.first data.last

/-- The order for a period, with the cash session that is open. -/
def Payroll.payoutOrder (s : Payroll) (ctx : Caller) (data : PayInput) (period : ℤ × ℤ) :
    PayoutOrder where
  ctx := ctx
  start := period.1
  stop := period.2
  method := data.method
  cashSessionId := s.openCashSessionId ctx.shop.id (some data.method)

namespace PayoutOrder

variable (o : PayoutOrder) (r : PayComputation)

/-- `toPay` -/
def toPay : ℚ := max r.total 0

def expense : Expense where
  barbershopId := o.ctx.shop.id
  cashSessionId := o.cashSessionId
  amount := toPay r
  paymentMethod := some o.method

def payout (expenseId carryOverEntryId : Option ℕ) : BarberPayout where
  periodStart := o.start
  periodEnd := o.stop
  payType := r.payType
  serviceSales := r.serviceSales
  productSales := r.productSales
  salesCount := r.salesCount
  commission := r.commission
  fixedAmount := r.fixedAmount
  baseAmount := r.baseAmount
  tips := r.tips
  bonuses := r.bonuses
  deductions := r.deductions
  advances := r.advances
  total := toPay r
  currency := o.ctx.shop.currency
  method := o.method
  expenseId := expenseId
  cashSessionId := if expenseId.isSome then o.cashSessionId else none
  carryOverEntryId := carryOverEntryId

/-- The advance that is left over. -/
def carryOver : BarberPayEntry where
  type := .advance
  amount := round2 (-r.total)
  method := none
  date := o.stop + 1
  payoutId := none
  expenseId := none
  cashSessionId := none

end PayoutOrder

/-- An entry that was read, and is still open, enters the payout. -/
def BarberPayEntry.attach (ids : List ℕ) (payoutId id : ℕ) (e : BarberPayEntry) : BarberPayEntry :=
  if id ∈ ids ∧ e.payoutId = none then { e with payoutId := some payoutId } else e

/-- The entries of a payout that is undone are open again. -/
def BarberPayEntry.detach (payoutId : ℕ) (e : BarberPayEntry) : BarberPayEntry :=
  if e.payoutId = some payoutId then { e with payoutId := none } else e

/-- What the transaction of `pay` writes; the lock ends with it. -/
def PayoutOrder.commit (o : PayoutOrder) (r : PayComputation) (s : Payroll) : Payroll :=
  let pays := decide (0 < PayoutOrder.toPay r)
  let expenseId := if pays then some s.expenses.next else none
  let attached := s.entries.modifyAll
    (BarberPayEntry.attach (r.entries.map (·.1)) s.payouts.next)
  let carryOverEntryId := if r.total < 0 then some s.entries.next else none
  { s with
    expenses := if pays then s.expenses.insert (o.expense r) else s.expenses
    payouts := s.payouts.insert (o.payout r expenseId carryOverEntryId)
    entries := if r.total < 0 then attached.insert (o.carryOver r) else attached
    locked := false }

/-- What the transaction of `deleteEntry` writes. -/
def Payroll.dropEntry (s : Payroll) (id : ℕ) (e : BarberPayEntry) : Payroll :=
  { s with
    expenses := e.expenseId.elim s.expenses s.expenses.erase
    entries := s.entries.erase id }

/-- What the transaction of `undoPayout` writes. -/
def Payroll.dropPayout (s : Payroll) (id : ℕ) (p : BarberPayout) : Payroll :=
  { s with
    expenses := p.expenseId.elim s.expenses s.expenses.erase
    entries := (p.carryOverEntryId.elim s.entries s.entries.erase).modifyAll fun _ => (·.detach id)
    payouts := s.payouts.erase id }

/-! ## The requests, step by step -/

/-- Where a request is. -/
inductive PayrollCall where
  | addEntry (ctx : Caller) (data : EntryInput)
  | findingSession (o : EntryOrder)
  | entering (o : EntryOrder) (cashSessionId : Option ℕ)
  | deleteEntry (ctx : Caller) (id : ℕ)
  | lookingForTip (id : ℕ) (e : BarberPayEntry)
  | checkingEntryCash (id : ℕ) (e : BarberPayEntry)
  | deleting (id : ℕ) (e : BarberPayEntry)
  | pay (ctx : Caller) (data : PayInput)
  | locking (o : PayoutOrder)
  | overlapping (o : PayoutOrder)
  | computing (o : PayoutOrder)
  | committing (o : PayoutOrder) (r : PayComputation)
  | undoPayout (ctx : Caller) (id : ℕ)
  | checkingPayoutCash (id : ℕ) (p : BarberPayout)
  | checkingCarryOver (id : ℕ) (p : BarberPayout)
  | undoing (id : ℕ) (p : BarberPayout)

/-- How a request ends; it fails when its transaction was to delete a row that is gone. -/
inductive PayrollEnd where
  | ok
  | refused (r : Refusal)
  | failed

namespace PayrollCall

abbrev Goes := Progress PayrollCall PayrollEnd

def refuse (r : Refusal) : Goes := .done (.refused r)

/-- The request goes on unless a check threw. -/
def goOn {α : Type} (x : Result α) (f : α → PayrollCall) : Goes :=
  match x with
  | .error r => refuse r
  | .ok a => .next (f a)

/-- `computeCommissions` for the period is what the step meets; `none`: the request waits for the
lock. -/
def step (cal : ShopCalendar) (barberUserId : Option ℕ) (row : Option CommissionRow)
    (c : PayrollCall) (s : Payroll) : Option (Payroll × Goes) :=
  match c with
  | addEntry ctx data => some (s, goOn (checkEntry cal barberUserId ctx data) fun o =>
      if o.type = .advance then findingSession o else entering o none)
  | findingSession o =>
    some (s, .next (entering o (s.openCashSessionId o.ctx.shop.id o.method)))
  | entering o cashSessionId => some (o.commit cashSessionId s, .done .ok)
  | deleteEntry ctx id =>
    some (s, goOn (do
      ctx.ensureBarbershopAccess .manager
      let e ← orRefuse (s.entries.get? id) (.notFound "Lançamento não encontrado")
      ctx.ensureNotOwnPay barberUserId
      refuseIf (e.payoutId.isSome = true) (.badRequest
        "Esse lançamento já entrou num pagamento. Desfaça o pagamento antes.")
      return e) (lookingForTip id))
  | lookingForTip id e =>
    some (s, goOn (refuseIf (id ∈ s.tipEntries) (.badRequest
        "Essa caixinha veio de um atendimento. Apague pela caixinha do atendimento."))
      fun _ => checkingEntryCash id e)
  | checkingEntryCash id e =>
    some (s, goOn (s.ensureCashStillOpen e.cashSessionId) fun _ => deleting id e)
  | deleting id e =>
    if (s.entries.get? id).isNone then some (s, .done .failed)
    else some (s.dropEntry id e, .done .ok)
  | pay ctx data =>
    some (s, goOn (checkPay cal barberUserId ctx data) fun period =>
      locking (s.payoutOrder ctx data period))
  | locking o => if s.locked then none else some ({ s with locked := true }, .next (overlapping o))
  | overlapping o =>
    match s.overlapping o.start o.stop with
    | some (_, clash) => some ({ s with locked := false }, refuse (cal.alreadyPaid clash))
    | none => some (s, .next (computing o))
  | computing o => some (s,
      .next (committing o (compute s.config row (s.openEntries o.stop) o.start o.stop)))
  | committing o r => some (o.commit r s, .done .ok)
  | undoPayout ctx id =>
    some (s, goOn (do
      ctx.ensureBarbershopAccess .manager
      let p ← orRefuse (s.payouts.get? id) (.notFound "Pagamento não encontrado")
      ctx.ensureNotOwnPay barberUserId
      return p) (checkingPayoutCash id))
  | checkingPayoutCash id p =>
    some (s, goOn (s.ensureCashStillOpen p.cashSessionId) fun _ => checkingCarryOver id p)
  | checkingCarryOver id p =>
    some (s, goOn (s.ensureCarryOverOpen p) fun _ => undoing id p)
  | undoing id p =>
    if (s.payouts.get? id).isNone then some (s, .done .failed)
    else some (s.dropPayout id p, .done .ok)

/-- A request as it arrives. -/
def starts : PayrollCall → Bool
  | addEntry _ _ | deleteEntry _ _ | pay _ _ | undoPayout _ _ => true
  | _ => false

end PayrollCall

/-- What happens beside the requests: one arrives, a tip of an appointment is recorded, the pay is
configured, cash sessions open and close. -/
inductive PayrollEvent where
  | arrive (c : PayrollCall)
  | tip (amount : ℚ) (method : PaymentMethod) (date : ℤ)
  | configure (config : BarberPayConfig)
  | cash (sessions : Table CashSession)

/-- The entry of a tip that the unit received for the professional. -/
def tipEntry (amount : ℚ) (method : PaymentMethod) (date : ℤ) : BarberPayEntry where
  type := .tip
  amount := round2 amount
  method := some method
  date := date
  payoutId := none
  expenseId := none
  cashSessionId := none

def PayrollEvent.apply (e : PayrollEvent) (s : Payroll) : Option (Payroll × Option PayrollCall) :=
  match e with
  | arrive c => if c.starts then some (s, some c) else none
  | tip amount method date => some ({ s with
      entries := s.entries.insert (tipEntry amount method date)
      tipEntries := s.entries.next :: s.tipEntries }, none)
  | configure config => some ({ s with config := some config }, none)
  | cash sessions => some ({ s with cashSessions := sessions }, none)

/-- The requests about the pay of one professional, side by side. -/
def payrollCalls (cal : ShopCalendar) (barberUserId : Option ℕ) :
    CallSystem Payroll PayrollCall PayrollEvent (Option CommissionRow) where
  event := PayrollEvent.apply
  step row c s := (c.step cal barberUserId row s).map fun r => (r.1, r.2.running)

/-- No entry and no payout yet. -/
def Payroll.initial (config : Option BarberPayConfig) (sessions : Table CashSession) : Payroll where
  config := config
  entries := .empty
  payouts := .empty
  expenses := .empty
  cashSessions := sessions
  tipEntries := []
  locked := false

end Barbershop
