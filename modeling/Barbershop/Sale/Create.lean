import Barbershop.Sale.Issued
import Barbershop.Sale.Loyalty
import Barbershop.Sale.Stock

/-!
# Creating a sale

`createSale` reads and checks first and writes in one transaction afterwards. The two halves are
`prepareSale`, whose reads may each see a different earlier state of the database, and `commitSale`,
whose conditional updates decide on the state the transaction commits in. What passes from one to
the other is a `SalePlan`.
-/

namespace Barbershop

open Lib

/-- The reads `createSale` makes before its transaction, in order. -/
inductive SaleRead where
  | customer | appointment | club | package | giftCard | points | openSession
  deriving DecidableEq, Repr

/-! ## What is charged -/

/-- How a total is covered: by what was paid before, by a gift card, by points, and by what is
charged now (`finalTotal`). -/
structure Charge where
  depositApplied : ℚ
  prepaidApplied : ℚ
  giftCardAmountApplied : ℚ
  loyaltyPointsRedeemed : ℤ
  loyaltyDiscountAmount : ℚ
  finalTotal : ℚ
  deriving DecidableEq

/-- The points that fit in what is left to pay; the last one may cover less than its value. -/
def pointsThatFit (requested : ℤ) (pointValue remaining : ℚ) : ℤ :=
  if 0 < pointValue then min requested ⌈remaining / pointValue⌉ else 0

/-- What was paid before goes first; the card and then the points cover what is left. -/
def chargeSale (network : Network) (dataTotal deposit prepaid : ℚ) (cardBalance : Option ℚ)
    (requested : ℤ) : Result Charge := do
  let total := max 0 dataTotal
  refuseIf (total + 5 / 1000 < round2 (deposit + prepaid)) (.badRequest
    "O valor ficou menor do que já foi pago com sinal, app, cartão-presente ou pontos.")
  let depositApplied := min deposit total
  let prepaidApplied := min prepaid (total - depositApplied)
  let remaining := round2 (total - depositApplied - prepaidApplied)
  let giftCardAmountApplied := cardBalance.elim 0 fun b => round2 (min b remaining)
  let remaining := round2 (remaining - giftCardAmountApplied)
  let pointValue := network.loyaltyPointValue.getD 0
  let points := if 0 < requested then pointsThatFit requested pointValue remaining else 0
  let discount := if 0 < requested then round2 (min (points * pointValue) remaining) else 0
  return {
    depositApplied := depositApplied
    prepaidApplied := prepaidApplied
    giftCardAmountApplied := giftCardAmountApplied
    loyaltyPointsRedeemed := points
    loyaltyDiscountAmount := discount
    finalTotal := round2 (remaining - discount) }

theorem pointsThatFit_nonneg {requested : ℤ} {pointValue remaining : ℚ} (h : 0 < requested)
    (hr : 0 ≤ remaining) : 0 ≤ pointsThatFit requested pointValue remaining := by
  unfold pointsThatFit
  split
  · next hv => exact le_min h.le (Int.ceil_nonneg (div_nonneg hr hv.le))
  · exact le_rfl

/-- The card gives whole cents and points are never given back by a charge. -/
theorem chargeSale_ok {network : Network} {total deposit prepaid : ℚ} {card : Option ℚ}
    {requested : ℤ} {c : Charge}
    (h : chargeSale network total deposit prepaid card requested = .ok c)
    (hcard : ∀ b ∈ card, 0 ≤ b) :
    (∃ n : ℤ, 0 ≤ n ∧ c.giftCardAmountApplied = n / 100) ∧ 0 ≤ c.loyaltyPointsRedeemed := by
  simp only [chargeSale, bind_eq_ok, exists_punit, refuseIf_eq_ok, pure_eq_ok] at h
  obtain ⟨-, rfl⟩ := h
  dsimp only
  generalize hd : min deposit (max 0 total) = d
  generalize hp : min prepaid (max 0 total - d) = p
  have hrest : 0 ≤ round2 (max 0 total - d - p) := by
    apply round2_nonneg
    have : p ≤ max 0 total - d := hp ▸ min_le_right ..
    linarith
  have hgift : ∃ n : ℤ, 0 ≤ n ∧
      (card.elim 0 fun b => round2 (min b (round2 (max 0 total - d - p)))) = (n : ℚ) / 100 := by
    cases card with
    | none => exact ⟨0, le_rfl, by simp⟩
    | some b =>
      refine ⟨_, ?_, rfl⟩
      have : (0 : ℤ) ≤ roundHalfUp 0 := by decide +kernel
      refine this.trans (roundHalfUp_mono ?_)
      have := le_min (hcard b rfl) hrest
      linarith
  have hle : (card.elim 0 fun b => round2 (min b (round2 (max 0 total - d - p)))) ≤
      round2 (max 0 total - d - p) := by
    cases card with
    | none => exact hrest
    | some b => simpa using round2_mono (min_le_right b (round2 (max 0 total - d - p)))
  refine ⟨hgift, ?_⟩
  split
  · next hreq => exact pointsThatFit_nonneg hreq (round2_nonneg (sub_nonneg.2 hle))
  · exact le_rfl

/-! ## Before the transaction -/

/-- What the checks hand to the transaction. -/
structure SalePlan where
  data : SaleInput
  customerId : Option ℕ
  barberId : Option ℕ
  charge : Charge
  giftCardId : Option ℕ
  /-- The subscription to debit and its session limit. -/
  club : Option (ℕ × Option ℕ)
  package : Option ℕ
  openSession : Option ℕ

def SaleInput.paid (data : SaleInput) : Bool := data.paymentStatus == some .paid

def ensureBarberOfBarbershop (cat : Catalog) (shop barberId : ℕ) (active : Bool) : Result Unit :=
  refuseIf (((cat.barbers.get? barberId).any fun b =>
    b.barbershopId == shop && b.bookable && (!active || b.isActive)) = false)
    (.notFound "Profissional não encontrado")

/-- Are the services and products of the items known to the unit? -/
def ensureItemsOfBarbershop (cat : Catalog) (shop : ℕ) (items : List SaleItem) (active : Bool) :
    Result Unit := do
  let ofShop (x : Option CatalogItem) : Bool :=
    x.any fun c => c.barbershopId == shop && (!active || c.isActive)
  refuseIf (∃ i ∈ items, ∃ s ∈ i.serviceId, ofShop (cat.services s) = false)
    (.notFound "Serviço não encontrado")
  refuseIf (∃ i ∈ items, ∃ p ∈ i.productId, ofShop (cat.products p) = false)
    (.notFound "Produto não encontrado")

def ensureServiceHistoriesOfBarbershop (cat : Catalog) (shop : ℕ) (items : List SaleItem) :
    Result Unit :=
  refuseIf (∃ i ∈ items, ∃ h ∈ i.serviceHistoryId, cat.serviceHistories h ≠ some shop)
    (.notFound "Histórico de atendimento não encontrado nesta unidade")

def Appointment.billable (a : Appointment) : Bool :=
  match a.status with
  | .cancelled | .noShow | .pendingPayment => false
  | _ => true

/-- What the customer of the appointment has paid by app and has not got back. -/
def Appointment.prepaid (a : Appointment) : ℚ :=
  if a.prepaidAt.isSome ∧ a.prepaidRefundedAt = none then
    a.prepaidAmount.getD 0 - a.prepaidRefundedAmount.getD 0
  else 0

def Appointment.deposit (a : Appointment) : ℚ :=
  if a.depositPaid then a.depositAmount.getD 0 else 0

/-- The appointment a sale bills: one sale each, and the bill is its customer's. -/
def billAppointment (ctx : Caller) (customerId : Option ℕ) (appointmentId : ℕ) (db : Db) :
    Result Appointment := do
  let appt ← orRefuse
    ((db.appointments.get? appointmentId).filter (·.barbershopId == ctx.shop.id))
    (.notFound "Agendamento não encontrado")
  refuseIf (∃ own ∈ ctx.ownBarberId, appt.barberId ≠ own) (.notFound "Agendamento não encontrado")
  refuseIf (db.sales.any (fun _ s => s.appointmentId == some appointmentId) = true)
    (.badRequest "Este atendimento já foi cobrado")
  refuseIf (appt.billable = false) (.badRequest "Este horário não pode ser cobrado")
  refuseIf (∃ c ∈ customerId, c ≠ appt.customerId) (.badRequest
    "A conta do horário é do cliente do horário. Para outro cliente, registre uma venda separada.")
  return appt

/-- The check before redeeming points; the debit checks the balance again. -/
def checkRedemption (network : Network) (customerId : Option ℕ) (requested : ℤ) (db : Db) :
    Result Unit := do
  refuseIf (0 < requested ∧ network.loyaltyEnabled = false)
    (.badRequest "O programa de fidelidade está desligado.")
  refuseIf (0 < requested ∧ customerId = none)
    (.badRequest "Selecione um cliente para resgatar pontos de fidelidade")
  refuseIf (0 < requested ∧ customerId.bind db.customers.get? = none)
    (.notFound "Cliente não encontrado")
  refuseIf (0 < requested ∧ ∃ c ∈ customerId.bind db.customers.get?, c.loyaltyPoints < requested)
    (.badRequest "Cliente não tem pontos de fidelidade suficientes")

def prepareSale (cat : Catalog) (ctx : Caller) (data : SaleInput) (reads : SaleRead → Db) :
    Result SalePlan := do
  let shop := ctx.shop
  refuseIf ((∃ i ∈ data.items, i.itemType = .product ∨ i.productId.isSome) ∧
    shop.modules .products = false) (.forbidden
    "Este recurso não está disponível no seu plano atual. Faça upgrade para acessá-lo.")
  checkSaleAmounts data.subtotal data.discountAmount data.taxAmount data.total
    data.loyaltyPointsRedeemed data.items shop.moneyCap
  checkSaleKinds data.saleType data.items (data.paymentStatus.getD .pending) data.paymentMethod none
  refuseIf (∃ own ∈ ctx.ownBarberId, ∃ b ∈ data.barberId, b ≠ own)
    (.forbidden "Você só registra vendas suas.")
  let barberId := ctx.ownBarberId <|> data.barberId
  let _ ← ifGiven data.customerId fun c => ensureCustomerOfNetwork shop.networkId c (reads .customer)
  let _ ← ifGiven barberId fun b =>
    ensureBarberOfBarbershop cat shop.id b data.appointmentId.isNone
  let appt ← ifGiven data.appointmentId fun a =>
    billAppointment ctx data.customerId a (reads .appointment)
  let customerId := appt.elim data.customerId fun a => some a.customerId
  ensureItemsOfBarbershop cat shop.id data.items true
  ensureServiceHistoriesOfBarbershop cat shop.id data.items
  ctx.assertSoloProductSaleAllowed ctx.now (productUnits data.items)
  checkSaleConsistency data.items data.subtotal (data.discountAmount.getD 0)
    (data.taxAmount.getD 0) data.total
  let club ← ifGiven data.clientSubscriptionId fun id =>
    prepareClubSession ctx customerId id data.items (reads .club)
  let package ← ifGiven data.clientPackageId fun id =>
    preparePackageSession ctx customerId id data.items (reads .package)
  refuseIf (∃ c ∈ club, ∃ p ∈ package, c.2.2 = p.2)
    (.badRequest "Use o clube ou o pacote neste serviço, não os dois.")
  let card ← ifGiven data.giftCardCode fun code => validateGiftCard ctx code (reads .giftCard)
  let requested := data.loyaltyPointsRedeemed.getD 0
  checkRedemption shop.network customerId requested (reads .points)
  let charge ← chargeSale shop.network data.total (appt.elim 0 (·.deposit)) (appt.elim 0 (·.prepaid))
    (card.map (·.2.remainingValue)) requested
  return {
    data := data
    customerId := customerId
    barberId := barberId
    charge := charge
    giftCardId := card.map (·.1)
    club := club.map fun c => (c.1, c.2.1)
    package := package.map (·.1)
    openSession := if data.paid then (reads .openSession).openSession shop.id else none }

theorem ensureItemsOfBarbershop_ok {cat : Catalog} {shop : ℕ} {items : List SaleItem}
    {active : Bool} (h : ensureItemsOfBarbershop cat shop items active = .ok ()) {i : SaleItem}
    (hi : i ∈ items) {p : ℕ} (hp : i.productId = some p) :
    ∃ c, cat.products p = some c ∧ c.barbershopId = shop := by
  simp only [ensureItemsOfBarbershop, bind_eq_ok, exists_punit, refuseIf_eq_ok] at h
  have hany := h.2
  push Not at hany
  have := hany i hi p hp
  simp only [ne_eq, Bool.not_eq_false, Option.any_eq_true] at this
  obtain ⟨c, hc, hshop⟩ := this
  exact ⟨c, hc, by simp_all⟩

theorem checkSaleKinds_new {t : SaleType} {items : List SaleItem} {s : PaymentStatus}
    {m : Option PaymentMethod} (h : checkSaleKinds (some t) (some items) (some s) m none = .ok ()) :
    t.staff = true ∧ s.staff = true := by
  simp only [checkSaleKinds, bind_eq_ok, exists_punit, refuseIf_eq_ok] at h
  obtain ⟨-, ht, -, -, hs, -⟩ := h
  simpa using And.intro ht hs

/-- What the checks of `createSale` establish about the plan they hand on. -/
structure SalePlan.Checked (cat : Catalog) (ctx : Caller) (data : SaleInput)
    (reads : SaleRead → Db) (plan : SalePlan) : Prop where
  data_eq : plan.data = data
  staff : data.saleType.staff = true
  status : (data.paymentStatus.getD .pending).staff = true
  products : ∀ i ∈ data.items, ∀ p, i.productId = some p →
    ∃ c, cat.products p = some c ∧ c.barbershopId = ctx.shop.id
  points_nonneg : 0 ≤ plan.charge.loyaltyPointsRedeemed
  card_cents : ∃ n : ℤ, 0 ≤ n ∧ plan.charge.giftCardAmountApplied = n / 100
  card : ∀ k, plan.giftCardId = some k → ∃ c, (reads .giftCard).giftCards.get? k = some c ∧
    c.isActive = true
  openSession : plan.openSession =
    if data.paid then (reads .openSession).openSession ctx.shop.id else none

theorem prepareSale_checked {cat : Catalog} {ctx : Caller} {data : SaleInput}
    {reads : SaleRead → Db} {plan : SalePlan} (h : prepareSale cat ctx data reads = .ok plan) :
    plan.Checked cat ctx data reads := by
  simp only [prepareSale, bind_eq_ok, exists_punit, pure_eq_ok] at h
  obtain ⟨_, _, hkinds, _, _, _, _, _, appt, _, hitems, _, _, _, club, _, package, _, _, card, hcard,
    _, charge, hcharge, rfl⟩ := h
  have hbalance : ∀ b ∈ card.map (·.2.remainingValue), 0 ≤ b := by
    rcases ifGiven_eq_ok.1 hcard with ⟨-, rfl⟩ | ⟨code, c, -, hc, rfl⟩
    · simp
    · simpa using (validateGiftCard_ok hc).2.2.le
  obtain ⟨hcents, hpoints⟩ := chargeSale_ok hcharge hbalance
  exact {
    data_eq := rfl
    staff := (checkSaleKinds_new hkinds).1
    status := (checkSaleKinds_new hkinds).2
    products := fun i hi p hp => ensureItemsOfBarbershop_ok hitems hi hp
    points_nonneg := hpoints
    card_cents := hcents
    card := by
      rcases ifGiven_eq_ok.1 hcard with ⟨-, rfl⟩ | ⟨code, c, -, hc, rfl⟩
      · simp
      · intro k hk
        obtain rfl : c.1 = k := by simpa using hk
        exact ⟨c.2, (validateGiftCard_ok hc).1, (validateGiftCard_ok hc).2.1⟩
    openSession := rfl }

/-! ## The transaction -/

namespace SalePlan

variable (plan : SalePlan)

/-- The money the sale counts for loyalty. -/
def moneyPaid : ℚ :=
  loyaltyMoneyBase plan.charge.finalTotal plan.charge.depositApplied plan.charge.prepaidApplied

/-- The points the sale gives: only a paid sale gives any. -/
def pointsEarned (network : Network) : ℤ :=
  if plan.data.paid ∧ plan.customerId.isSome ∧ network.loyaltyEnabled then
    ⌊plan.moneyPaid * network.loyaltyPointsPerCurrencyUnit.getD 0⌋
  else 0

/-- The row of the sale. -/
def sale (ctx : Caller) : Sale where
  createdAt := ctx.now
  barbershopId := ctx.shop.id
  customerId := plan.customerId
  barberId := plan.barberId
  appointmentId := plan.data.appointmentId
  cashSessionId := plan.openSession
  saleType := plan.data.saleType
  subtotal := plan.data.subtotal
  discountAmount := plan.data.discountAmount.getD 0
  taxAmount := plan.data.taxAmount.getD 0
  total := plan.charge.finalTotal
  paymentStatus := plan.data.paymentStatus.getD .pending
  paymentMethod := plan.data.paymentMethod
  paidAt := if plan.data.paid then some ctx.now else none
  giftCardId := plan.giftCardId
  giftCardAmountApplied := plan.giftCardId.map fun _ => plan.charge.giftCardAmountApplied
  loyaltyPointsEarned :=
    if 0 < plan.pointsEarned ctx.shop.network then some (plan.pointsEarned ctx.shop.network)
    else none
  loyaltyPointsRedeemed :=
    if plan.charge.loyaltyPointsRedeemed = 0 then none else some plan.charge.loyaltyPointsRedeemed
  loyaltyDiscountAmount :=
    if 0 < plan.charge.loyaltyDiscountAmount then some plan.charge.loyaltyDiscountAmount else none
  depositApplied :=
    if 0 < plan.charge.depositApplied then some plan.charge.depositApplied else none
  prepaidApplied :=
    if 0 < plan.charge.prepaidApplied then some plan.charge.prepaidApplied else none
  clientSubscriptionId := plan.club.map (·.1)
  items := plan.data.items

/-- A billed appointment that has started is done. -/
def completeAppointment (now : ℤ) (appointments : Table Appointment) : Table Appointment :=
  match plan.data.appointmentId with
  | none => appointments
  | some id => appointments.modify id fun a =>
    if (a.status = .confirmed ∨ a.status = .inProgress) ∧ a.startAt ≤ now then
      { a with status := .completed }
    else a

def debitCard (cards : Table GiftCard) : Result (Table GiftCard) :=
  match plan.giftCardId with
  | none => pure cards
  | some id => debitGiftCard id plan.charge.giftCardAmountApplied cards

def debitClub (userId saleId : ℕ) (subscriptions : Table ClientSubscription)
    (uses : Table ClientSubscriptionUse) :
    Result (Table ClientSubscription × Table ClientSubscriptionUse) :=
  match plan.club with
  | none => pure (subscriptions, uses)
  | some (id, limit) => Barbershop.debitClub id limit userId saleId subscriptions uses

def debitPackage (now : ℤ) (packages : Table ClientPackage) : Result (Table ClientPackage) :=
  match plan.package with
  | none => pure packages
  | some id => Barbershop.debitPackage id now packages

/-- The row of the package session the sale uses. -/
def recordPackageUse (userId saleId : ℕ) (uses : Table ClientPackageUse) :
    Table ClientPackageUse :=
  match plan.package with
  | none => uses
  | some id => uses.insert {
      clientPackageId := id
      appointmentId := plan.data.appointmentId
      saleId := some saleId
      usedByUserId := userId
      undoneAt := none
      undoneByUserId := none }

/-- The conditional debit of the redeemed points. -/
def redeemPoints (customers : Table Customer) : Result (Table Customer) :=
  match plan.customerId with
  | none => pure customers
  | some id =>
    let points := plan.charge.loyaltyPointsRedeemed
    if points = 0 then pure customers
    else orRefuse (customers.tryModify id (fun c => decide (points ≤ c.loyaltyPoints))
        fun c => { c with loyaltyPoints := c.loyaltyPoints - points })
      (.badRequest "Cliente não tem pontos de fidelidade suficientes")

/-- The points the sale gives, and the referral bonus it completes. -/
def grantPoints (ctx : Caller) (saleId : ℕ) (referrals : Table CustomerReferral)
    (customers : Table Customer) : Table CustomerReferral × Table Customer :=
  let earned := plan.pointsEarned ctx.shop.network
  let customers := match plan.customerId with
    | none => customers
    | some id => if 0 < earned then incrementPoints customers id earned else customers
  if plan.data.paid then
    completeReferralIfPaid ctx.shop.network ctx.now plan.customerId plan.moneyPaid saleId referrals
      customers
  else (referrals, customers)

end SalePlan

def commitSale (cat : Catalog) (ctx : Caller) (plan : SalePlan) (db : Db) : Result Db := do
  let saleId := db.sales.next
  refuseIf (∃ a ∈ plan.data.appointmentId,
      db.sales.any (fun _ s => s.appointmentId == some a) = true)
    (.badRequest "Este atendimento já foi cobrado")
  let giftCards ← plan.debitCard db.giftCards
  let club ← plan.debitClub ctx.userId saleId db.subscriptions db.subscriptionUses
  let packages ← plan.debitPackage ctx.now db.packages
  let customers ← plan.redeemPoints db.customers
  let points := plan.grantPoints ctx saleId db.referrals customers
  let stock := sellItems cat ctx.shop.id saleId plan.data.items db.stock
  return { db with
    sales := db.sales.insert (plan.sale ctx)
    appointments := plan.completeAppointment ctx.now db.appointments
    giftCards := giftCards
    subscriptions := club.1
    subscriptionUses := club.2
    packages := packages
    packageUses := plan.recordPackageUse ctx.userId saleId db.packageUses
    referrals := points.1
    customers := points.2
    inventory := stock.inventory
    movements := stock.movements }

def createSale (cat : Catalog) (ctx : Caller) (data : SaleInput) (reads : SaleRead → Db)
    (db : Db) : Result Db := do
  let plan ← prepareSale cat ctx data reads
  commitSale cat ctx plan db

theorem commitSale_ok {cat : Catalog} {ctx : Caller} {plan : SalePlan} {db db' : Db}
    (h : commitSale cat ctx plan db = .ok db') :
    ∃ giftCards club packages customers,
      plan.debitCard db.giftCards = .ok giftCards ∧
      plan.debitClub ctx.userId db.sales.next db.subscriptions db.subscriptionUses = .ok club ∧
      plan.debitPackage ctx.now db.packages = .ok packages ∧
      plan.redeemPoints db.customers = .ok customers ∧
      db' = { db with
        sales := db.sales.insert (plan.sale ctx)
        appointments := plan.completeAppointment ctx.now db.appointments
        giftCards := giftCards
        subscriptions := club.1
        subscriptionUses := club.2
        packages := packages
        packageUses := plan.recordPackageUse ctx.userId db.sales.next db.packageUses
        referrals := (plan.grantPoints ctx db.sales.next db.referrals customers).1
        customers := (plan.grantPoints ctx db.sales.next db.referrals customers).2
        inventory := (sellItems cat ctx.shop.id db.sales.next plan.data.items db.stock).inventory
        movements := (sellItems cat ctx.shop.id db.sales.next plan.data.items db.stock).movements } := by
  simp only [commitSale, bind_eq_ok, exists_punit, pure_eq_ok] at h
  obtain ⟨-, giftCards, hg, club, hc, packages, hp, customers, hr, rfl⟩ := h
  exact ⟨giftCards, club, packages, customers, hg, hc, hp, hr, rfl⟩

theorem createSale_ok {cat : Catalog} {ctx : Caller} {data : SaleInput} {reads : SaleRead → Db}
    {db db' : Db} (h : createSale cat ctx data reads db = .ok db') :
    ∃ plan : SalePlan, plan.Checked cat ctx data reads ∧ commitSale cat ctx plan db = .ok db' := by
  simp only [createSale, bind_eq_ok] at h
  obtain ⟨plan, hplan, hcommit⟩ := h
  exact ⟨plan, prepareSale_checked hplan, hcommit⟩

end Barbershop
