import Barbershop.Sale.Checks

/-!
# Gift cards, packages and club sessions

What a sale can issue (a gift card, a client package) and what it can consume (a card's balance, a
package session, a club session). The balance of a card and the sessions of a package move only by
conditional updates: a debit states in its `where` what must still hold.
-/

namespace Barbershop

open Lib

/-- The open cash session of a unit. -/
def Db.openSession (db : Db) (shop : ℕ) : Option ℕ :=
  (db.cashSessions.find? fun _ s => s.barbershopId == shop && s.status == .opened).map (·.1)

/-! ## Standalone sales -/

/-- The sale of a package or a gift card. With a payment method it is paid and in the open cash
session, without one it is pending. -/
def standaloneSale (ctx : Caller) (openSession : Option ℕ) (customerId : Option ℕ)
    (saleType : SaleType) (itemType : ItemType) (amount : ℚ) (notes : String)
    (paymentMethod : Option PaymentMethod) : Sale where
  createdAt := ctx.now
  barbershopId := ctx.shop.id
  customerId := customerId
  barberId := none
  appointmentId := none
  cashSessionId := if paymentMethod.isSome then openSession else none
  saleType := saleType
  subtotal := round2 amount
  discountAmount := 0
  taxAmount := 0
  total := round2 amount
  paymentStatus := if paymentMethod.isSome then .paid else .pending
  paymentMethod := paymentMethod
  paidAt := if paymentMethod.isSome then some ctx.now else none
  giftCardId := none
  giftCardAmountApplied := none
  loyaltyPointsEarned := none
  loyaltyPointsRedeemed := none
  loyaltyDiscountAmount := none
  depositApplied := none
  prepaidApplied := none
  clientSubscriptionId := none
  items := [{
    itemType := itemType
    serviceId := none
    productId := none
    serviceHistoryId := none
    quantity := 1
    unitPrice := round2 amount
    totalPrice := round2 amount
    notes := some (.text notes) }]

/-- `recordStandaloneSale`, up to the insertion of the row. -/
def recordStandaloneSale (ctx : Caller) (db : Db) (customerId : Option ℕ) (saleType : SaleType)
    (itemType : ItemType) (amount : ℚ) (notes : String) (paymentMethod : Option PaymentMethod) :
    Result Sale := do
  checkSaleKinds none none none paymentMethod none
  return standaloneSale ctx (db.openSession ctx.shop.id) customerId saleType itemType amount notes
    paymentMethod

/-! ## Gift cards -/

structure GiftCardInput where
  /-- The code that was drawn. -/
  code : String
  initialValue : ℚ
  expiresAt : Option ℤ
  paymentMethod : Option PaymentMethod

/-- The card a sale issues. -/
def newGiftCard (ctx : Caller) (data : GiftCardInput) (saleId : ℕ) : GiftCard where
  networkId := ctx.shop.networkId
  code := data.code
  initialValue := data.initialValue
  remainingValue := data.initialValue
  isActive := true
  expiresAt := data.expiresAt
  currency := some ctx.shop.currency
  saleId := some saleId

/-- `createGiftCard` of a unit: the sale and the card it issues. A code already in use is drawn
again, so a used code gives no card here. -/
def createGiftCard (ctx : Caller) (data : GiftCardInput) (db : Db) : Result Db := do
  ctx.ensureBarbershopAccess .reception
  refuseIf (data.initialValue ≤ 0)
    (.badRequest "O valor do cartão-presente deve ser maior que zero")
  refuseIf (∃ e ∈ data.expiresAt, e ≤ ctx.now)
    (.badRequest "A validade do cartão-presente não pode ser no passado")
  checkMoney "Valor do cartão-presente" data.initialValue ctx.shop.moneyCap
  refuseIf (db.giftCards.any (fun _ c => c.code == data.code) = true)
    (.badRequest "Código em uso")
  let sale ← recordStandaloneSale ctx db none .giftCard .giftCard data.initialValue
    "Cartão-presente" data.paymentMethod
  return { db with
    sales := db.sales.insert sale
    giftCards := db.giftCards.insert (newGiftCard ctx data db.sales.next) }

theorem createGiftCard_ok {ctx : Caller} {data : GiftCardInput} {db db' : Db}
    (h : createGiftCard ctx data db = .ok db') :
    0 < data.initialValue ∧ db' = { db with
      sales := db.sales.insert (standaloneSale ctx (db.openSession ctx.shop.id) none .giftCard
        .giftCard data.initialValue "Cartão-presente" data.paymentMethod)
      giftCards := db.giftCards.insert (newGiftCard ctx data db.sales.next) } := by
  simp only [createGiftCard, recordStandaloneSale, bind_eq_ok, exists_punit, refuseIf_eq_ok,
    pure_eq_ok] at h
  obtain ⟨-, hpos, -, -, -, sale, ⟨-, rfl⟩, rfl⟩ := h
  exact ⟨by simpa using hpos, rfl⟩

def GiftCard.setActive (isActive : Bool) (c : GiftCard) : GiftCard := { c with isActive := isActive }

def setGiftCardActive (networkId giftCardId : ℕ) (isActive : Bool) (db : Db) : Result Db := do
  let _ ← orRefuse ((db.giftCards.get? giftCardId).filter (·.networkId == networkId))
    (.notFound "Cartão-presente não encontrado")
  return { db with
    giftCards := db.giftCards.modify giftCardId (·.setActive isActive) }

theorem setGiftCardActive_ok {networkId giftCardId : ℕ} {isActive : Bool} {db db' : Db}
    (h : setGiftCardActive networkId giftCardId isActive db = .ok db') :
    db' = { db with
      giftCards := db.giftCards.modify giftCardId (·.setActive isActive) } := by
  simp only [setGiftCardActive, bind_eq_ok, pure_eq_ok] at h
  obtain ⟨_, -, rfl⟩ := h
  rfl

/-- May the card be used in this unit now? `code` is the typed code after trim and upper case. -/
def validateGiftCard (ctx : Caller) (code : String) (db : Db) : Result (ℕ × GiftCard) := do
  let found ← orRefuse
    ((db.giftCards.find? fun _ c => c.code == code).filter (·.2.networkId == ctx.shop.networkId))
    (.notFound "Cartão-presente não encontrado")
  let card := found.2
  refuseIf (card.isActive = false) (.badRequest "Este cartão-presente está inativo")
  refuseIf (sameCurrency (card.currency.getD ctx.shop.networkCurrency) ctx.shop.currency = false)
    (.badRequest "Este cartão-presente foi vendido em outra moeda e não vale nesta unidade.")
  refuseIf (∃ e ∈ card.expiresAt, e < ctx.now) (.badRequest "Este cartão-presente expirou")
  refuseIf (card.remainingValue ≤ 0)
    (.badRequest "Este cartão-presente não tem saldo restante")
  return found

theorem validateGiftCard_ok {ctx : Caller} {code : String} {db : Db} {k : ℕ} {card : GiftCard}
    (h : validateGiftCard ctx code db = .ok (k, card)) :
    db.giftCards.get? k = some card ∧ card.isActive = true ∧ 0 < card.remainingValue := by
  simp only [validateGiftCard, bind_eq_ok, exists_punit, orRefuse_eq_ok, refuseIf_eq_ok,
    pure_eq_ok, Option.filter_eq_some_iff] at h
  obtain ⟨found, ⟨hfound, _⟩, hactive, _, _, hbalance, rfl⟩ := h
  exact ⟨(Table.find?_some hfound).1, by simpa using hactive, by simpa using hbalance⟩

def GiftCard.debit (amount : ℚ) (c : GiftCard) : GiftCard :=
  { c with remainingValue := c.remainingValue - amount }

/-- The conditional debit of a card: only what is still on it. -/
def debitGiftCard (giftCardId : ℕ) (amount : ℚ) (cards : Table GiftCard) :
    Result (Table GiftCard) :=
  orRefuse (cards.tryModify giftCardId (fun c => decide (amount ≤ c.remainingValue)) (·.debit amount))
    (.badRequest "O saldo do cartão-presente mudou enquanto a venda era registrada. Tente de novo.")

/-- The card a sale issued. -/
def Db.cardOfSale (db : Db) (saleId : ℕ) : Option (ℕ × GiftCard) :=
  db.giftCards.find? fun _ c => c.saleId == some saleId

/-! ## Packages -/

/-- A package on offer, with the expiry `packageExpiresAt` gives a purchase now. -/
structure ServicePackage where
  serviceId : ℕ
  price : ℚ
  totalSessions : ℕ
  /-- `checkSessionCount` -/
  pos : 1 ≤ totalSessions
  expiresAt : Option ℤ
  isActive : Bool
  serviceActive : Bool

def ensureCustomerOfNetwork (networkId customerId : ℕ) (db : Db) : Result Unit :=
  refuseIf (((db.customers.get? customerId).any fun c =>
    c.networkId == networkId && c.deletedAt.isNone) = false) (.notFound "Cliente não encontrado")

/-- The package a sale issues. -/
def newClientPackage (ctx : Caller) (customerId : ℕ) (pkg : ServicePackage) (saleId : ℕ) :
    ClientPackage where
  barbershopId := ctx.shop.id
  customerId := customerId
  serviceId := pkg.serviceId
  totalSessions := pkg.totalSessions
  usedSessions := 0
  status := .active
  saleId := some saleId
  expiresAt := pkg.expiresAt
  remainderRefundedAt := none

def purchaseClientPackage (ctx : Caller) (customerId : ℕ) (pkg : ServicePackage)
    (paymentMethod : Option PaymentMethod) (db : Db) : Result Db := do
  ctx.ensureBarbershopAccess .reception
  ensureCustomerOfNetwork ctx.shop.networkId customerId db
  ctx.ensureModuleAccess .packages
  refuseIf (pkg.isActive = false) (.notFound "Pacote não encontrado")
  refuseIf (pkg.serviceActive = false) (.badRequest
    "Este pacote não está mais à venda porque o serviço foi desativado.")
  let sale ← recordStandaloneSale ctx db customerId .package .package pkg.price "Pacote"
    paymentMethod
  return { db with
    sales := db.sales.insert sale
    packages := db.packages.insert (newClientPackage ctx customerId pkg db.sales.next) }

theorem purchaseClientPackage_ok {ctx : Caller} {customerId : ℕ} {pkg : ServicePackage}
    {paymentMethod : Option PaymentMethod} {db db' : Db}
    (h : purchaseClientPackage ctx customerId pkg paymentMethod db = .ok db') :
    db' = { db with
      sales := db.sales.insert (standaloneSale ctx (db.openSession ctx.shop.id) customerId .package
        .package pkg.price "Pacote" paymentMethod)
      packages := db.packages.insert (newClientPackage ctx customerId pkg db.sales.next) } := by
  simp only [purchaseClientPackage, recordStandaloneSale, bind_eq_ok, exists_punit, pure_eq_ok] at h
  obtain ⟨-, -, -, -, -, sale, ⟨-, rfl⟩, rfl⟩ := h
  rfl

def ClientPackage.debitable (now : ℤ) (p : ClientPackage) : Bool :=
  p.status == .active && decide (p.usedSessions < p.totalSessions) &&
    p.expiresAt.all fun e => decide (now < e)

def ClientPackage.debit (p : ClientPackage) : ClientPackage :=
  { p with
    usedSessions := p.usedSessions + 1
    status := if p.totalSessions ≤ p.usedSessions + 1 then .completed else .active }

/-- The conditional debit of one session. -/
def debitPackage (clientPackageId : ℕ) (now : ℤ) (packages : Table ClientPackage) :
    Result (Table ClientPackage) :=
  orRefuse (packages.tryModify clientPackageId (·.debitable now) (·.debit))
    (.badRequest "Pacote não tem sessões restantes")

/-- `RESTORABLE_PACKAGE` with a session to give back. -/
def ClientPackage.restorable (p : ClientPackage) : Bool :=
  decide (0 < p.usedSessions) && (p.status == .active || p.status == .completed) &&
    p.remainderRefundedAt.isNone

def ClientPackage.restore (p : ClientPackage) : ClientPackage :=
  { p with usedSessions := p.usedSessions - 1, status := .active }

def ClientPackageUse.undo (now : ℤ) (userId : ℕ) (u : ClientPackageUse) : ClientPackageUse :=
  { u with undoneAt := some now, undoneByUserId := some userId }

/-- The sale lines a covered session stands for: the service at no charge. -/
def freeLines (serviceId : ℕ) (items : List SaleItem) : List SaleItem :=
  items.filter fun i =>
    i.serviceId == some serviceId && cents i.unitPrice == 0 && cents i.totalPrice == 0

/-- One line of the covered service at no charge, quantity 1. -/
def checkCoveredSession (serviceId : ℕ) (items : List SaleItem) (charged absent : String) :
    Result Unit := do
  let free := freeLines serviceId items
  refuseIf (1 < free.length ∨ ∃ i ∈ free, i.quantity ≠ 1) (.badRequest
    "A sessão do pacote ou do clube cobre um atendimento: uma linha do serviço, quantidade 1.")
  refuseIf (free.length ≠ 1 ∧ ∃ i ∈ items, i.serviceId = some serviceId) (.badRequest charged)
  refuseIf (free.length ≠ 1) (.badRequest absent)

/-- `preparePackageSession`: the package and the service it covers. -/
def preparePackageSession (ctx : Caller) (customerId : Option ℕ) (clientPackageId : ℕ)
    (items : List SaleItem) (db : Db) : Result (ℕ × ℕ) := do
  refuseIf (customerId = none)
    (.badRequest "Selecione um cliente para usar a sessão do pacote.")
  let pkg ← orRefuse ((db.packages.get? clientPackageId).filter fun p =>
      p.barbershopId == ctx.shop.id && some p.customerId == customerId)
    (.badRequest "Este pacote não é deste cliente.")
  refuseIf (pkg.status ≠ .active) (.badRequest "Pacote não está ativo")
  refuseIf (∃ e ∈ pkg.expiresAt, e ≤ ctx.now) (.badRequest "Este pacote venceu.")
  refuseIf (pkg.totalSessions ≤ pkg.usedSessions) (.badRequest "Pacote não tem sessões restantes")
  checkCoveredSession pkg.serviceId items "O serviço do pacote entra na venda sem cobrar uma sessão."
    "A venda não tem o serviço coberto por este pacote."
  return (clientPackageId, pkg.serviceId)

/-! ## Club sessions -/

/-- `prepareClubSession`: the subscription, its session limit and the service it covers. -/
def prepareClubSession (ctx : Caller) (customerId : Option ℕ) (clientSubscriptionId : ℕ)
    (items : List SaleItem) (db : Db) : Result (ℕ × Option ℕ × ℕ) := do
  refuseIf (customerId = none)
    (.badRequest "Selecione um cliente para usar a sessão do clube.")
  let accountId := (customerId.bind db.customers.get?).bind (·.clientAccountId)
  let sub ← orRefuse ((db.subscriptions.get? clientSubscriptionId).filter fun s =>
      s.barbershopId == ctx.shop.id && some s.clientAccountId == accountId)
    (.badRequest "Esta assinatura não é deste cliente.")
  refuseIf (sub.status ≠ .active) (.badRequest "Assinatura não está ativa")
  refuseIf (∃ l ∈ sub.sessionsPerCycle, l ≤ sub.usedThisCycle)
    (.badRequest "Assinatura não tem sessões restantes neste ciclo")
  checkCoveredSession sub.serviceId items "O serviço do clube entra na venda sem cobrar uma sessão."
    "A venda não tem o serviço coberto por esta assinatura."
  return (clientSubscriptionId, sub.sessionsPerCycle, sub.serviceId)

/-- The conditional debit of one club session, and its row (`recordClubUse`). -/
def debitClub (clientSubscriptionId : ℕ) (limit : Option ℕ) (userId saleId : ℕ)
    (subscriptions : Table ClientSubscription) (uses : Table ClientSubscriptionUse) :
    Result (Table ClientSubscription × Table ClientSubscriptionUse) := do
  let subscriptions ← orRefuse (subscriptions.tryModify clientSubscriptionId
      (fun s => decide (s.status = .active) && limit.all fun l => decide (s.usedThisCycle < l))
      fun s => { s with usedThisCycle := s.usedThisCycle + 1 })
    (.badRequest "Assinatura não tem sessões restantes neste ciclo")
  return (subscriptions, uses.insert {
    clientSubscriptionId := clientSubscriptionId
    saleId := some saleId
    usedByUserId := userId
    periodStart := (subscriptions.get? clientSubscriptionId).bind (·.currentPeriodStart)
    undoneAt := none
    undoneByUserId := none })

end Barbershop
