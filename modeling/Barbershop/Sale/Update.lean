import Barbershop.Sale.Create

/-!
# Editing a sale

`updateSale` checks the edit against the sale it reads inside its transaction, rewrites the row,
moves the points the sale gives from what it gave to what it gives now, opens or completes the
referral when the sale stops or starts counting as paid, and moves the difference of the stock.
-/

namespace Barbershop

open Lib

/-- The reads of `updateSale`, in order: before the transaction, the sale inside it, and the open
cash session. -/
inductive UpdateRead where
  | before | existing | openSession
  deriving DecidableEq, Repr

/-- Is the sale in a cash session that was closed? -/
def Db.cashClosed (db : Db) (s : Sale) : Bool :=
  (s.cashSessionId.bind db.cashSessions.get?).any (·.status == .closed)

/-- What the customer had covered before paying: deposit, app, gift card and points. -/
def Sale.applied (s : Sale) : ℚ :=
  round2 (s.depositApplied.getD 0 + s.prepaidApplied.getD 0 + s.giftCardAmountApplied.getD 0 +
    s.loyaltyDiscountAmount.getD 0)

/-- An edit that passed the checks, with the sale it was checked against. -/
structure SaleEdit where
  data : SalePatch
  existing : Sale
  /-- The unit's open cash session. -/
  openSession : Option ℕ

namespace SaleEdit

variable (e : SaleEdit)

/-- The screen sends the full total; the stored one is net of what was covered before. -/
def netTotal : Option ℚ := e.data.total.map fun t => round2 (max 0 (t - e.existing.applied))

def nextStatus : PaymentStatus := e.data.paymentStatus.getD e.existing.paymentStatus

def nextTotal : ℚ := e.netTotal.getD e.existing.total

def nextCustomerId : Option ℕ := e.data.customerId.or e.existing.customerId

def nextMoney : ℚ := e.existing.moneyBase e.nextTotal

def nextEarned (network : Network) : ℤ :=
  loyaltyEarnedFor network e.nextStatus e.nextMoney e.nextCustomerId

def prevEarned : ℤ := e.existing.loyaltyPointsEarned.getD 0

/-- The edit marks the sale as paid: it enters the cash session that is open now. -/
def becomesPaid : Prop := e.data.paymentStatus = some .paid ∧ e.existing.paymentStatus ≠ .paid

instance : Decidable e.becomesPaid := by unfold becomesPaid; infer_instance

def customerChanged : Prop := e.nextCustomerId ≠ e.existing.customerId

instance : Decidable e.customerChanged := by unfold customerChanged; infer_instance

/-- The row after the edit. -/
def row (ctx : Caller) (s : Sale) : Sale :=
  { s with
    customerId := e.data.customerId.or s.customerId
    barberId := e.data.barberId.or s.barberId
    saleType := e.data.saleType.getD s.saleType
    subtotal := e.data.subtotal.getD s.subtotal
    discountAmount := e.data.discountAmount.getD s.discountAmount
    taxAmount := e.data.taxAmount.getD s.taxAmount
    total := e.netTotal.getD s.total
    paymentStatus := e.data.paymentStatus.getD s.paymentStatus
    paidAt := if e.becomesPaid then some ctx.now else s.paidAt
    cashSessionId := if e.becomesPaid then e.openSession else s.cashSessionId
    paymentMethod := e.data.paymentMethod.or s.paymentMethod
    loyaltyPointsEarned :=
      if e.nextEarned ctx.shop.network = 0 then none else some (e.nextEarned ctx.shop.network)
    items := e.data.items.getD s.items }

/-- The points given before go back, and the points given now come in; for one customer, the
difference. -/
def movePoints (network : Network) (customers : Table Customer) : Table Customer :=
  let customers := match e.existing.customerId with
    | none => customers
    | some c => if e.customerChanged then addLoyaltyPoints customers c (-e.prevEarned) else customers
  match e.nextCustomerId with
  | none => customers
  | some c => addLoyaltyPoints customers c
      (if e.customerChanged then e.nextEarned network else e.nextEarned network - e.prevEarned)

/-- A sale that stops counting as paid, or changes customer, opens the referral it completed; one
that starts counting completes its customer's. -/
def moveReferral (ctx : Caller) (saleId : ℕ) (referrals : Table CustomerReferral)
    (customers : Table Customer) : Table CustomerReferral × Table Customer :=
  let t :=
    if e.existing.paymentStatus = .paid ∧ (e.nextStatus ≠ .paid ∨ e.customerChanged) then
      revertReferralOfSale saleId referrals customers
    else (referrals, customers)
  if e.nextStatus = .paid ∧ (e.existing.paymentStatus ≠ .paid ∨ e.customerChanged) then
    completeReferralIfPaid ctx.shop.network ctx.now e.nextCustomerId e.nextMoney saleId t.1 t.2
  else t

/-- An edit of the items moves the stock of the sale's row `s`. -/
def moveStock (cat : Catalog) (ctx : Caller) (saleId : ℕ) (s : Sale) (st : Stock) : Stock :=
  match e.data.items with
  | none => st
  | some items => applySaleStockDelta cat ctx.shop.id saleId s.items items st

end SaleEdit

/-- The checks before the transaction. -/
def checkUpdate (cat : Catalog) (ctx : Caller) (saleId : ℕ) (data : SalePatch) (db : Db) :
    Result Unit := do
  let shop := ctx.shop
  ctx.ensureBarbershopAccess .manager
  checkSaleAmounts data.subtotal data.discountAmount data.taxAmount data.total none
    (data.items.getD []) shop.moneyCap
  let _ ← ifGiven data.customerId.value? fun c => ensureCustomerOfNetwork shop.networkId c db
  let _ ← ifGiven data.barberId.value? fun b => ensureBarberOfBarbershop cat shop.id b false
  let items := data.items.getD []
  ensureItemsOfBarbershop cat shop.id items false
  ensureServiceHistoriesOfBarbershop cat shop.id items
  let _ ← ifGiven (data.items.bind fun _ => (db.sales.get? saleId).filter (·.barbershopId == shop.id))
    fun s => ctx.assertSoloProductSaleAllowed s.createdAt (productUnits items - productUnits s.items)
  return ()

/-- The checks of an edit against the sale `existing`. -/
def checkEdit (data : SalePatch) (existing : Sale) (cashClosed : Bool) : Result Unit := do
  refuseIf (existing.saleType = .refund) (.badRequest "Estorno não pode ser alterado nem apagado.")
  checkSaleKinds data.saleType data.items data.paymentStatus data.paymentMethod.value?
    (some (existing.saleType, existing.paymentStatus, existing.paymentMethod))
  refuseIf ((existing.saleType = .package ∨ existing.saleType = .giftCard) ∧
      issuedSaleValueChanged existing data = true) (.badRequest
    "O valor de uma venda de pacote ou cartão-presente não pode ser alterado.")
  refuseIf (cashClosed = true ∧ saleMoneyChanged existing data = true) (.badRequest
    "Essa venda é de um caixa já fechado. Lance a correção no caixa aberto.")
  let _ ← ifGiven data.total fun total => do
    checkSaleConsistency (data.items.getD existing.items) (data.subtotal.getD existing.subtotal)
      (data.discountAmount.getD existing.discountAmount) (data.taxAmount.getD existing.taxAmount)
      total
    refuseIf (total + MONEY_TOLERANCE < existing.applied) (.badRequest
      "O valor ficou menor do que já foi pago com sinal, app, cartão-presente ou pontos.")
  refuseIf (data.customerId.or existing.customerId ≠ existing.customerId ∧
      (0 < existing.loyaltyPointsRedeemed.getD 0 ∨ 0 < existing.giftCardAmountApplied.getD 0))
    (.badRequest "Esta venda usou pontos ou cartão-presente do cliente: o cliente não muda. Apague a venda e lance de novo no cliente certo.")

/-- The writes of an edit. -/
def commitEdit (cat : Catalog) (ctx : Caller) (saleId : ℕ) (e : SaleEdit) (db : Db) :
    Result Db := do
  let s ← orRefuse (db.sales.get? saleId) (.notFound "Venda não encontrada")
  let customers := e.movePoints ctx.shop.network db.customers
  let points := e.moveReferral ctx saleId db.referrals customers
  let stock := e.moveStock cat ctx saleId s db.stock
  return { db with
    sales := db.sales.modify saleId (e.row ctx)
    referrals := points.1
    customers := points.2
    inventory := stock.inventory
    movements := stock.movements }

def updateSale (cat : Catalog) (ctx : Caller) (saleId : ℕ) (data : SalePatch)
    (reads : UpdateRead → Db) (db : Db) : Result Db := do
  checkUpdate cat ctx saleId data (reads .before)
  let existing ← orRefuse
    (((reads .existing).sales.get? saleId).filter (·.barbershopId == ctx.shop.id))
    (.badRequest "Venda não encontrada")
  checkEdit data existing ((reads .existing).cashClosed existing)
  commitEdit cat ctx saleId
    { data := data
      existing := existing
      openSession := (reads .openSession).openSession ctx.shop.id } db

/-- What the checks of `updateSale` establish about an edit. -/
structure SaleEdit.Checked (cat : Catalog) (ctx : Caller) (saleId : ℕ) (reads : UpdateRead → Db)
    (e : SaleEdit) : Prop where
  existing : (reads .existing).sales.get? saleId = some e.existing
  ofShop : e.existing.barbershopId = ctx.shop.id
  openSession : e.openSession = (reads .openSession).openSession ctx.shop.id
  edit : checkEdit e.data e.existing ((reads .existing).cashClosed e.existing) = .ok ()
  products : ∀ items ∈ e.data.items, ∀ i ∈ items, ∀ p, i.productId = some p →
    ∃ c, cat.products p = some c ∧ c.barbershopId = ctx.shop.id

theorem checkUpdate_products {cat : Catalog} {ctx : Caller} {saleId : ℕ} {data : SalePatch}
    {db : Db} (h : checkUpdate cat ctx saleId data db = .ok ()) :
    ensureItemsOfBarbershop cat ctx.shop.id (data.items.getD []) false = .ok () := by
  simp only [checkUpdate, bind_eq_ok, exists_punit] at h
  obtain ⟨-, -, _, -, _, -, hitems, -⟩ := h
  exact hitems

theorem updateSale_ok {cat : Catalog} {ctx : Caller} {saleId : ℕ} {data : SalePatch}
    {reads : UpdateRead → Db} {db db' : Db}
    (h : updateSale cat ctx saleId data reads db = .ok db') :
    ∃ e : SaleEdit, e.data = data ∧ e.Checked cat ctx saleId reads ∧
      commitEdit cat ctx saleId e db = .ok db' := by
  simp only [updateSale, bind_eq_ok, exists_punit, orRefuse_eq_ok, Option.filter_eq_some_iff] at h
  obtain ⟨hcheck, existing, ⟨hexisting, hshop⟩, hedit, hcommit⟩ := h
  refine ⟨_, rfl, ?_, hcommit⟩
  exact {
    existing := hexisting
    ofShop := by simpa using hshop
    openSession := rfl
    edit := hedit
    products := by
      intro items hi i hmem p hp
      have hitems := checkUpdate_products hcheck
      rw [Option.mem_def.1 hi] at hitems
      exact ensureItemsOfBarbershop_ok hitems hmem hp }

theorem commitEdit_ok {cat : Catalog} {ctx : Caller} {saleId : ℕ} {e : SaleEdit} {db db' : Db}
    (h : commitEdit cat ctx saleId e db = .ok db') :
    ∃ s, db.sales.get? saleId = some s ∧
      db' = { db with
        sales := db.sales.modify saleId (e.row ctx)
        referrals := (e.moveReferral ctx saleId db.referrals
          (e.movePoints ctx.shop.network db.customers)).1
        customers := (e.moveReferral ctx saleId db.referrals
          (e.movePoints ctx.shop.network db.customers)).2
        inventory := (e.moveStock cat ctx saleId s db.stock).inventory
        movements := (e.moveStock cat ctx saleId s db.stock).movements } := by
  simp only [commitEdit, bind_eq_ok, orRefuse_eq_ok, pure_eq_ok] at h
  obtain ⟨s, hs, rfl⟩ := h
  exact ⟨s, hs, rfl⟩

/-- The customer of a sale that used points or a gift card does not change. -/
theorem checkEdit_customer {data : SalePatch} {existing : Sale} {closed : Bool}
    (h : checkEdit data existing closed = .ok ())
    (hc : data.customerId.or existing.customerId ≠ existing.customerId) :
    existing.loyaltyPointsRedeemed.getD 0 ≤ 0 ∧ existing.giftCardAmountApplied.getD 0 ≤ 0 := by
  simp only [checkEdit, bind_eq_ok, exists_punit, refuseIf_eq_ok] at h
  obtain ⟨-, -, -, -, _, -, hlock⟩ := h
  push Not at hlock
  exact hlock hc

end Barbershop
