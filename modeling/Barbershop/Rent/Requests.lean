import Barbershop.Rent.Payment

/-!
# Requests about the rent, step by step

Recording a payment, undoing it, an invoice event and a refund by Stripe, each a program of atomic
steps over the rows of the link. A request may stop between two steps; Stripe then delivers its event
again, which is a new call.
-/

namespace Barbershop

open Lib

/-- A refund of an invoice, with the payment and the day paid until as they were read. -/
structure RentRefund where
  id : ℕ
  payment : RentPayment
  paidUntil : Option ℤ
  /-- What goes back, within the amount. -/
  value : ℚ
  full : Bool

namespace RentPayment

/-- `refundedAmount` is null or less. -/
def refundsLess (p : RentPayment) (value : ℚ) : Bool := p.refundedAmount.all fun r => decide (r < value)

/-- `updateMany` of `recordPayment`. -/
def record (p : RentPayment) (method : PaymentMethod) (now : ℤ) (userId : ℕ)
    (cashSessionId : Option ℕ) : RentPayment :=
  { p with
    status := .succeeded
    method := method
    paidAt := some now
    recordedByUserId := some userId
    cashSessionId := cashSessionId }

/-- The update of `undoPayment`. -/
def reopen (p : RentPayment) : RentPayment :=
  { p with
    status := .due
    method := .other
    paidAt := none
    recordedByUserId := none
    cashSessionId := none
    memberExpenseId := none }

end RentPayment

namespace RentDb

variable (s : RentDb)

/-- The payment that `recordPayment` may record. -/
def payable (ctx : Caller) (id : ℕ) (method : PaymentMethod) : Result RentPayment := do
  ctx.ensureBarbershopAccess .manager
  refuseIf (method.paysRent = false) (.badRequest "Forma de pagamento inválida")
  let p ← orRefuse ((s.payments.get? id).filter fun _ => s.link.hostBarbershopId == ctx.shop.id)
    (.notFound "Mensalidade não encontrada")
  refuseIf (p.status ≠ .due) (.badRequest "Essa mensalidade já foi paga")
  return p

/-- The payment that `undoPayment` may undo. -/
def undoable (ctx : Caller) (id : ℕ) : Result RentPayment := do
  ctx.ensureBarbershopAccess .manager
  let p ← orRefuse ((s.payments.get? id).filter fun _ => s.link.hostBarbershopId == ctx.shop.id)
    (.notFound "Mensalidade não encontrada")
  refuseIf (p.status ≠ .succeeded ∨ p.method = .card ∨ p.dueDate = none)
    (.badRequest "Só dá pra desfazer pagamento registrado à mão")
  return p

def openCashSessionId (method : PaymentMethod) : Option ℕ :=
  if method = .cash then
    (s.cashSessions.find? fun _ c =>
      c.barbershopId == s.link.hostBarbershopId && c.status == .opened).map (·.1)
  else none

/-- The transaction of `undoPayment`. -/
def undo (id : ℕ) (p : RentPayment) : RentDb :=
  { s with
    expenses := p.memberExpenseId.elim s.expenses s.expenses.erase
    payments := s.payments.modify id RentPayment.reopen }

/-- The payment of a refunded invoice, if the rent was paid by card. -/
def refundable (invoiceId : ℕ) : Option (ℕ × RentPayment) :=
  (s.invoicePayment invoiceId).filter fun r => r.2.method == .card && r.2.status == .succeeded

end RentDb

inductive RentCall where
  | recordPayment (ctx : Caller) (id : ℕ) (method : PaymentMethod)
  | findingSession (ctx : Caller) (id : ℕ) (p : RentPayment) (method : PaymentMethod)
  | recording (ctx : Caller) (id : ℕ) (p : RentPayment) (method : PaymentMethod)
      (cashSessionId : Option ℕ)
  | spending (id : ℕ) (amount : ℚ) (method : PaymentMethod)
  | linking (id expenseId : ℕ)
  | undoPayment (ctx : Caller) (id : ℕ)
  | checkingCash (id : ℕ) (p : RentPayment)
  | undoing (id : ℕ) (p : RentPayment)
  | handleInvoice (i : RentInvoice) (paid : Bool)
  | syncRefund (invoiceId : ℕ) (refunded : ℚ) (full : Bool)
  | claiming (r : RentRefund)
  | lowering (r : RentRefund) (expenseId : ℕ)
  | dropping (r : RentRefund) (expenseId : ℕ)
  | rewinding (r : RentRefund)

inductive RentEnd where
  | ok
  | refused (r : Refusal)
  | stopped

/-- What a step leaves open: the clock, and whether the request stops before it. -/
structure RentChance where
  now : ℤ
  stops : Bool

namespace RentCall

abbrev Goes := Progress RentCall RentEnd

/-- The request goes on unless a check threw. -/
def goOn {α : Type} (x : Result α) (f : α → RentCall) : Goes :=
  match x with
  | .error r => .done (.refused r)
  | .ok a => .next (f a)

def run (now : ℤ) (c : RentCall) (s : RentDb) : RentDb × Goes :=
  match c with
  | recordPayment ctx id method =>
    (s, goOn (s.payable ctx id method) fun p => findingSession ctx id p method)
  | findingSession ctx id p method =>
    (s, .next (recording ctx id p method (s.openCashSessionId method)))
  | recording ctx id p method cashSessionId =>
    match s.payments.tryModify id (·.status == .due) (·.record method now ctx.userId cashSessionId) with
    | none => (s, .done (.refused (.badRequest "Essa mensalidade já foi paga")))
    | some payments => ({ s with payments := payments }, .next (spending id p.amount method))
  | spending id amount method =>
    match s.createMemberExpense amount method with
    | none => (s, .done .ok)
    | some (expenseId, s) => (s, .next (linking id expenseId))
  | linking id expenseId => (s.linkExpense id expenseId, .done .ok)
  | undoPayment ctx id => (s, goOn (s.undoable ctx id) (checkingCash id))
  | checkingCash id p =>
    (s, goOn (refuseIf ((p.cashSessionId.bind s.cashSessions.get?).any (·.status == .closed) = true)
      (.badRequest "O caixa em que esse dinheiro entrou já foi fechado. Lance a correção no caixa."))
      fun _ => undoing id p)
  | undoing id p => (s.undo id p, .done .ok)
  | handleInvoice i paid =>
    match s.recordInvoice i paid now with
    | none => (s, .done .ok)
    | some (id, s') =>
      (s', if paid then .next (spending id (i.amountFor paid s.link) .card) else .done .ok)
  | syncRefund invoiceId refunded full =>
    match s.refundable invoiceId with
    | none => (s, .done .ok)
    | some (id, p) => (s, .next (claiming {
        id := id
        payment := p
        paidUntil := s.link.rentPaidUntil
        value := roundMoney (min p.amount refunded) p.currency
        full := full }))
  | claiming r =>
    match s.payments.tryModify r.id (·.refundsLess r.value)
        (fun p => { p with refundedAmount := some r.value }) with
    | none => (s, .done .ok)
    | some payments =>
      ({ s with payments := payments }, .next (r.payment.memberExpenseId.elim (rewinding r) (lowering r)))
  | lowering r expenseId =>
    let left := roundMoney (r.payment.amount - r.value) r.payment.currency
    if 0 < left then
      ({ s with expenses := s.expenses.modify expenseId fun e => { e with amount := left } },
        .next (rewinding r))
    else
      ({ s with payments := s.payments.modify r.id fun p => { p with memberExpenseId := none } },
        .next (dropping r expenseId))
  | dropping r expenseId => ({ s with expenses := s.expenses.erase expenseId }, .next (rewinding r))
  | rewinding r =>
    if r.full = true ∧ r.payment.periodStart.isSome = true ∧ r.payment.periodEnd.isSome = true ∧
        r.paidUntil = r.payment.periodEnd ∧ s.link.rentPaidUntil = r.paidUntil then
      ({ s with link := { s.link with rentPaidUntil := r.payment.periodStart } }, .done .ok)
    else (s, .done .ok)

def step (k : RentChance) (c : RentCall) (s : RentDb) : RentDb × Goes :=
  if k.stops then (s, .done .stopped) else c.run k.now s

/-- A request as it arrives. -/
def starts : RentCall → Bool
  | recordPayment .. | undoPayment .. | handleInvoice .. | syncRefund .. => true
  | _ => false

end RentCall

/-- What happens beside the requests: one arrives, `ensureDues` makes the rent of a month due, cash
sessions open and close. -/
inductive RentEvent where
  | arrive (c : RentCall)
  | due (amount : ℚ) (dueDate periodEnd : ℤ)
  | cash (sessions : Table CashSession)

/-- A month of rent to be paid at the desk. -/
def duePayment (link : RentLink) (amount : ℚ) (dueDate periodEnd : ℤ) : RentPayment where
  stripeInvoiceId := none
  amount := amount
  currency := link.rentCurrency.getD "BRL"
  status := .due
  method := .other
  dueDate := some dueDate
  paidAt := none
  recordedByUserId := none
  cashSessionId := none
  memberExpenseId := none
  periodStart := some dueDate
  periodEnd := some periodEnd
  refundedAmount := none

def RentEvent.apply (e : RentEvent) (s : RentDb) : Option (RentDb × Option RentCall) :=
  match e with
  | arrive c => if c.starts then some (s, some c) else none
  | due amount dueDate periodEnd =>
    some ({ s with payments := s.payments.insert (duePayment s.link amount dueDate periodEnd) }, none)
  | cash sessions => some ({ s with cashSessions := sessions }, none)

/-- The requests about one link, side by side. -/
def rentCalls : CallSystem RentDb RentCall RentEvent RentChance where
  event := RentEvent.apply
  step k c s := some ((c.step k s).1, (c.step k s).2.running)

/-- No rent yet. -/
def RentDb.initial (link : RentLink) (sessions : Table CashSession) : RentDb where
  link := link
  payments := .empty
  expenses := .empty
  cashSessions := sessions

end Barbershop
