import Barbershop.Payroll.Payout
import Barbershop.Sale.Delete
import Barbershop.Sale.Update

/-!
# Commissions

A professional's commission is a percentage of the items of the paid sales of a period, by the date
they were paid. A payout stores the commission of its period. When a sale in a paid period is edited
or deleted, or is handed to a professional who was paid for its date, the difference becomes a bonus
or a deduction of the open period (`commissionAdjustment`). Here the requests that move sales and
payouts run one after the other, on the sales of a unit and the pay of its staff.
-/

namespace Barbershop

open Lib

/-! ## The commission of sales -/

structure CommissionRule where
  barberId : Option ℕ
  /-- `none`: `ALL`. -/
  itemType : Option ItemType
  percentage : ℚ

/-- What commissions go by. `session` is what `coveredSessionValues` makes of an item of a sale: the
worth of the session of a package or of the club that it used, which no request here changes. -/
structure CommissionTerms where
  rules : List CommissionRule
  session : ℕ → SaleItem → ℚ

/-- The columns of `computeCommissions` for one professional. -/
structure CommissionTotals where
  salesCount : ℕ
  totalServiceSales : ℚ
  totalProductSales : ℚ
  serviceCommission : ℚ
  productCommission : ℚ

def CommissionTotals.zero : CommissionTotals := ⟨0, 0, 0, 0, 0⟩

def CommissionTotals.totalCommission (acc : CommissionTotals) : ℚ :=
  acc.serviceCommission + acc.productCommission

/-- The discount of a sale lowers each item in proportion. -/
def commissionFactor (items : List SaleItem) (discount : ℚ) : ℚ :=
  let itemsSum := (items.map (·.totalPrice)).sum
  if 0 < itemsSum then max 0 (itemsSum - discount) / itemsSum
  else if itemsSum < 0 then 1
  else 0

/-- The date a sale counts for. -/
def Sale.commissionDate (sale : Sale) : ℤ := sale.paidAt.getD sale.createdAt

namespace CommissionTerms

variable (t : CommissionTerms)

def resolvePercentage (barberId : ℕ) (itemType : ItemType) : ℚ :=
  let find (barberId : Option ℕ) (itemType : Option ItemType) : Option CommissionRule :=
    t.rules.find? fun r => r.barberId == barberId && r.itemType == itemType
  let rule := find (some barberId) (some itemType) <|> find (some barberId) none <|>
    find none (some itemType) <|> find none none
  rule.elim 0 (·.percentage)

/-- `covered`: a service with price 0 is worth the session that it used. -/
def covered (saleId : ℕ) (item : SaleItem) : ℚ :=
  if item.itemType = .service ∧ item.totalPrice = 0 ∧ item.serviceId.isSome = true then
    t.session saleId item
  else 0

def addItem (barberId saleId : ℕ) (factor : ℚ) (acc : CommissionTotals) (item : SaleItem) :
    CommissionTotals :=
  let covered := t.covered saleId item
  if 0 < covered then
    { acc with serviceCommission :=
        acc.serviceCommission + covered * t.resolvePercentage barberId .service / 100 }
  else
    let total := item.totalPrice * factor
    let commission := total * t.resolvePercentage barberId item.itemType / 100
    if item.itemType = .product then
      { acc with
        totalProductSales := acc.totalProductSales + total
        productCommission := acc.productCommission + commission }
    else
      { acc with
        totalServiceSales := acc.totalServiceSales + total
        serviceCommission := acc.serviceCommission + commission }

def addItems (barberId saleId : ℕ) (items : List SaleItem) (discount : ℚ) (acc : CommissionTotals) :
    CommissionTotals :=
  items.foldl (t.addItem barberId saleId (commissionFactor items discount)) acc

def addSale (barberId : ℕ) (acc : CommissionTotals) (row : ℕ × Sale) : CommissionTotals :=
  let acc := if row.2.saleType = .refund then acc else { acc with salesCount := acc.salesCount + 1 }
  t.addItems barberId row.1 row.2.items row.2.discountAmount acc

/-- The row of a professional for sales that are all his; there is none without sales. -/
def rowOf (barberId : ℕ) (sales : List (ℕ × Sale)) : Option CommissionRow :=
  if sales.isEmpty then none
  else
    let acc := sales.foldl (t.addSale barberId) .zero
    some {
      salesCount := acc.salesCount
      totalServiceSales := acc.totalServiceSales
      totalProductSales := acc.totalProductSales
      totalCommission := acc.totalCommission }

end CommissionTerms

/-- The paid sales of a professional among those of the unit. -/
def Sale.paidTo (shop barberId : ℕ) (sale : Sale) : Bool :=
  sale.barbershopId == shop && sale.paymentStatus == .paid && sale.barberId == some barberId

namespace CommissionTerms

variable (t : CommissionTerms)

/-- The professional's row of `computeCommissions` over a period. -/
def computeCommissions (shop barberId : ℕ) (start stop : ℤ) (sales : Table Sale) :
    Option CommissionRow :=
  t.rowOf barberId (sales.filter fun _ sale => sale.paidTo shop barberId &&
    decide (start ≤ sale.commissionDate ∧ sale.commissionDate ≤ stop))

/-- What one sale gives the professional; 0 if it is not paid or not his. -/
def saleCommission (shop saleId barberId : ℕ) (sales : Table Sale) : ℚ :=
  round2 ((t.rowOf barberId (sales.filter fun id sale => sale.paidTo shop barberId &&
    id == saleId)).elim 0 (·.totalCommission))

end CommissionTerms

/-! ## The staff of a unit -/

/-- An adjustment, with the payout that it is about and the entry that it wrote. -/
structure CommissionAdjustment where
  barberId : ℕ
  payoutId : ℕ
  entryId : ℕ
  amount : ℚ

/-- The sales of a unit and the pay of its staff. The expenses and cash sessions are those of the
database; `adjustments` is the history of the adjustments that were written. -/
structure Staff where
  db : Db
  payrolls : ℕ → Payroll
  adjustments : List CommissionAdjustment

namespace Staff

variable (s : Staff)

def payroll (barberId : ℕ) : Payroll :=
  { s.payrolls barberId with
    expenses := s.db.expenses
    cashSessions := s.db.cashSessions }

def setPayroll (barberId : ℕ) (p : Payroll) : Staff :=
  { s with
    db := { s.db with expenses := p.expenses }
    payrolls := Function.update s.payrolls barberId p }

end Staff

def BarberPayout.covers (p : BarberPayout) (date : ℤ) : Bool :=
  decide (p.periodStart ≤ date) && decide (date ≤ p.periodEnd)

/-- The payout of the sale's professional that covered its date, with the professional. -/
def Staff.paidCommissionPayout (s : Staff) (sale : Sale) : Option (ℕ × ℕ) :=
  match sale.barberId with
  | none => none
  | some barberId =>
    if sale.paymentStatus ≠ .paid then none
    else ((s.payrolls barberId).payouts.find? fun _ p => p.covers sale.commissionDate).map
      fun row => (barberId, row.1)

/-- A bonus or a deduction that `commissionAdjustment` writes. -/
def adjustmentEntry (delta : ℚ) (now : ℤ) : BarberPayEntry where
  type := if 0 < delta then .bonus else .deduction
  amount := round2 |delta|
  method := none
  date := now
  payoutId := none
  expenseId := none
  cashSessionId := none

/-- What an entry adds to what is due. -/
def BarberPayEntry.signed (e : BarberPayEntry) : ℚ :=
  match e.type with
  | .tip | .bonus => e.amount
  | .advance | .deduction => -e.amount

/-- `locked`: the professional and the payout that is left as it is. -/
def Staff.commissionAdjustment (s : Staff) (locked : ℕ × ℕ) (delta : ℚ) (now : ℤ) : Staff :=
  let e := adjustmentEntry delta now
  if e.amount < 1 / 100 then s
  else
    let p := s.payrolls locked.1
    { s with
      payrolls := Function.update s.payrolls locked.1 { p with entries := p.entries.insert e }
      adjustments :=
        { barberId := locked.1
          payoutId := locked.2
          entryId := p.entries.next
          amount := e.signed } :: s.adjustments }

/-! ## The requests -/

namespace Staff

variable (cat : Catalog) (t : CommissionTerms) (cal : ShopCalendar) (ctx : Caller) (s : Staff)

def createSale (data : SaleInput) : Result Staff := do
  let db ← Barbershop.createSale cat ctx data (fun _ => s.db) s.db
  return { s with db := db }

/-- The sale as the unit has it. -/
def saleOf (saleId : ℕ) : Option Sale :=
  (s.db.sales.get? saleId).filter (·.barbershopId == ctx.shop.id)

/-- The commission of a sale for a professional. -/
def commissionOf (saleId barberId : ℕ) : ℚ :=
  t.saleCommission ctx.shop.id saleId barberId s.db.sales

/-- What follows an edit of a sale: the professional who was paid for it gets the difference, and
another one who was paid for its date gets its commission. -/
def adjustEdit (saleId : ℕ) (before : Option Sale) (locked : Option (ℕ × ℕ))
    (commissionBefore : ℚ) : Staff :=
  let s₁ := locked.elim s fun l =>
    s.commissionAdjustment l (s.commissionOf t ctx saleId l.1 - commissionBefore) ctx.now
  match s₁.db.sales.get? saleId with
  | none => s₁
  | some updated =>
    if updated.barberId = before.bind (·.barberId) then s₁
    else (s₁.paidCommissionPayout updated).elim s₁ fun l =>
      s₁.commissionAdjustment l (s₁.commissionOf t ctx saleId l.1) ctx.now

def updateSale (saleId : ℕ) (data : SalePatch) : Result Staff := do
  let before := s.saleOf ctx saleId
  let locked := before.bind s.paidCommissionPayout
  let commissionBefore := locked.elim 0 fun l => s.commissionOf t ctx saleId l.1
  let db ← Barbershop.updateSale cat ctx saleId data (fun _ => s.db) s.db
  return adjustEdit t ctx { s with db := db } saleId before locked commissionBefore

def deleteSale (saleId : ℕ) : Result Staff := do
  let locked := (s.saleOf ctx saleId).bind s.paidCommissionPayout
  let db ← Barbershop.deleteSale ctx saleId (fun _ => s.db) s.db
  return locked.elim { s with db := db } fun l =>
    let paidCommission := s.commissionOf t ctx saleId l.1
    if paidCommission = 0 then { s with db := db }
    else ({ s with db := db } : Staff).commissionAdjustment l (-paidCommission) ctx.now

/-- `barberOf` -/
def barberOf (barberId : ℕ) : Result Barber :=
  orRefuse ((cat.barbers.get? barberId).filter (·.barbershopId == ctx.shop.id))
    (.notFound "Profissional não encontrado")

/-- `pay` without another request between its steps. -/
def pay (barberId : ℕ) (data : PayInput) : Result Staff := do
  ctx.ensureBarbershopAccess .manager
  let barber ← barberOf cat ctx barberId
  let period ← checkPay cal barber.userId ctx data
  let p := s.payroll barberId
  let o := p.payoutOrder ctx data period
  match p.overlapping o.start o.stop with
  | some (_, clash) => .error (cal.alreadyPaid clash)
  | none =>
    let row := t.computeCommissions ctx.shop.id barberId o.start o.stop s.db.sales
    let r := compute p.config row (p.openEntries o.stop) o.start o.stop
    return s.setPayroll barberId (o.commit r p)

/-- `undoPayout` without another request between its steps. -/
def undoPayout (barberId payoutId : ℕ) : Result Staff := do
  ctx.ensureBarbershopAccess .manager
  let p := s.payroll barberId
  let payout ← orRefuse (p.payouts.get? payoutId) (.notFound "Pagamento não encontrado")
  let barber ← barberOf cat ctx barberId
  ctx.ensureNotOwnPay barber.userId
  p.ensureCashStillOpen payout.cashSessionId
  p.ensureCarryOverOpen payout
  return s.setPayroll barberId (p.dropPayout payoutId payout)

end Staff

inductive StaffRequest where
  | createSale (data : SaleInput)
  | updateSale (saleId : ℕ) (data : SalePatch)
  | deleteSale (saleId : ℕ)
  | pay (barberId : ℕ) (data : PayInput)
  | undoPayout (barberId payoutId : ℕ)

def StaffRequest.exec (cat : Catalog) (t : CommissionTerms) (cal : ShopCalendar) (ctx : Caller)
    (r : StaffRequest) (s : Staff) : Result Staff :=
  match r with
  | .createSale data => s.createSale cat ctx data
  | .updateSale saleId data => s.updateSale cat t ctx saleId data
  | .deleteSale saleId => s.deleteSale t ctx saleId
  | .pay barberId data => s.pay cat t cal ctx barberId data
  | .undoPayout barberId payoutId => s.undoPayout cat ctx barberId payoutId

/-- The requests of the callers of one unit, one after the other. -/
def staffService (cat : Catalog) (t : CommissionTerms) (cal : ShopCalendar) (shop : ℕ) :
    Machine Staff (Caller × StaffRequest) where
  step s r := if r.1.shop.id = shop then (r.2.exec cat t cal r.1 s).toOption else none

end Barbershop
