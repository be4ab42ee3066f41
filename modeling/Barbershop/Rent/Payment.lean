import Barbershop.Lib.Calls
import Barbershop.Model.Db

/-!
# Chair rent

A professional rents a chair of a space. Rent by card is a subscription whose invoices Stripe
announces, in any order and more than once; rent paid at the desk is recorded by the space, and a
wrong record is undone. Every paid rent becomes an expense of the professional's business, and a
refund by Stripe lowers it. The payment, the expense and the link from one to the other are written
one after the other, and other requests move in between.

The tables hold the rows of one link between a space and a professional.
-/

namespace Barbershop

open Lib

inductive RentPaymentStatus where
  | due | succeeded | failed
  deriving DecidableEq, Repr

inductive RentStatus where
  | none | awaitingPayment | incomplete | active | pastDue
  deriving DecidableEq, Repr

/-- A row of `ChairRentPayment`, with the columns that rent itself goes by. -/
structure RentPayment where
  /-- Given for rent by card only. -/
  stripeInvoiceId : Option ℕ
  amount : ℚ
  currency : String
  status : RentPaymentStatus
  method : PaymentMethod
  dueDate : Option ℤ
  paidAt : Option ℤ
  recordedByUserId : Option ℕ
  cashSessionId : Option ℕ
  memberExpenseId : Option ℕ
  periodStart : Option ℤ
  periodEnd : Option ℤ
  refundedAmount : Option ℚ
  deriving DecidableEq

/-- The link, with the owner of the professional's business. -/
structure RentLink where
  hostBarbershopId : ℕ
  memberBarbershopId : ℕ
  memberOwnerUserId : Option ℕ
  rentPayerUserId : Option ℕ
  rentCurrency : Option String
  rentStatus : RentStatus
  rentPaidUntil : Option ℤ

/-- An invoice of the rent's subscription, with the period of its first line. -/
structure RentInvoice where
  id : ℕ
  created : ℤ
  currency : String
  amountPaid : ℤ
  amountDue : ℤ
  periodStart : Option ℤ
  periodEnd : Option ℤ
  deriving DecidableEq

structure RentDb where
  link : RentLink
  payments : Table RentPayment
  /-- The expenses of the professional that rent made. -/
  expenses : Table Expense
  cashSessions : Table CashSession

/-- `MANUAL_RENT_METHODS` -/
def PaymentMethod.paysRent : PaymentMethod → Bool
  | .cash | .pix | .transfer | .other => true
  | .card | .creditCard | .debitCard | .unknown _ => false

/-- Whoever an expense is entered for; without one there is none. -/
def RentLink.createdBy (link : RentLink) : Option ℕ :=
  link.memberOwnerUserId <|> link.rentPayerUserId

namespace RentInvoice

variable (i : RentInvoice)

/-- `invoice.currency || link.rentCurrency || 'brl'` -/
def currencyFor (link : RentLink) : String :=
  let given := if i.currency = "" then (link.rentCurrency.filter (· != "")).getD "brl" else i.currency
  given.toUpper

def amountFor (paid : Bool) (link : RentLink) : ℚ :=
  fromMinorUnits (if paid then i.amountPaid else i.amountDue) (i.currencyFor link)

/-- The `create` of the upsert. -/
def payment (paid : Bool) (link : RentLink) (now : ℤ) : RentPayment where
  stripeInvoiceId := some i.id
  amount := i.amountFor paid link
  currency := i.currencyFor link
  status := if paid then .succeeded else .failed
  method := .card
  dueDate := none
  paidAt := if paid then some now else none
  recordedByUserId := none
  cashSessionId := none
  memberExpenseId := none
  periodStart := i.periodStart
  periodEnd := i.periodEnd
  refundedAmount := none

/-- The `update` of the upsert. -/
def update (paid : Bool) (link : RentLink) (now : ℤ) (p : RentPayment) : RentPayment :=
  { p with
    status := if paid then .succeeded else .failed
    paidAt := if paid then some now else none
    amount := i.amountFor paid link }

/-- What an invoice makes of the link. -/
def linkAfter (paid : Bool) (link : RentLink) : RentLink :=
  if paid then { link with rentStatus := .active, rentPaidUntil := i.periodEnd <|> link.rentPaidUntil }
  else { link with rentStatus := .pastDue }

end RentInvoice

namespace RentDb

variable (s : RentDb)

/-- The row of the unique key `stripeInvoiceId`. -/
def invoicePayment (invoiceId : ℕ) : Option (ℕ × RentPayment) :=
  s.payments.find? fun _ p => p.stripeInvoiceId == some invoiceId

/-- The transaction of `handleInvoice`, under the lock of the invoice: the row that it wrote, or
nothing for an event that brings no news. -/
def recordInvoice (i : RentInvoice) (paid : Bool) (now : ℤ) : Option (ℕ × RentDb) :=
  match s.invoicePayment i.id with
  | some (id, existing) =>
    -- paid does not go back to failed by a late event
    if existing.status = .succeeded ∨ paid = false then none
    else some (id, { s with
      payments := s.payments.modify id (i.update paid s.link now)
      link := i.linkAfter paid s.link })
  | none => some (s.payments.next, { s with
      payments := s.payments.insert (i.payment paid s.link now)
      link := i.linkAfter paid s.link })

/-- `createMemberExpense` -/
def createMemberExpense (amount : ℚ) (method : PaymentMethod) : Option (ℕ × RentDb) :=
  if s.link.createdBy.isNone then none
  else some (s.expenses.next, { s with
    expenses := s.expenses.insert {
      barbershopId := s.link.memberBarbershopId
      cashSessionId := none
      amount := amount
      paymentMethod := some method } })

def linkExpense (paymentId expenseId : ℕ) : RentDb :=
  { s with payments := s.payments.modify paymentId fun p => { p with memberExpenseId := some expenseId } }

/-- `handleInvoice` without another request between its steps. -/
def handleInvoice (i : RentInvoice) (paid : Bool) (now : ℤ) : RentDb :=
  match s.recordInvoice i paid now with
  | none => s
  | some (id, s) =>
    if paid then (s.createMemberExpense (i.amountFor paid s.link) .card).elim s fun r =>
      r.2.linkExpense id r.1
    else s

end RentDb

end Barbershop
