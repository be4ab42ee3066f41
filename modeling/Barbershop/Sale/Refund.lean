import Barbershop.Sale.Delete

/-!
# Refunding the remainder of a package or gift card

The sale issued a package or a card that was used in part. The rest of it (sessions, balance) is
zeroed by an update conditional on what was read, and the sale is lowered to what was consumed: a
paid sale stays as it was and a refund of today is recorded, a pending one is rewritten. The points
the sale gave are lowered with it.
-/

namespace Barbershop

open Lib

/-- The reads of `refundIssuedRemainder`, all inside its transaction, in order. -/
inductive RefundRead where
  | existing | package | card | openSession
  deriving DecidableEq, Repr

/-- The refund that goes out: what was consumed stays, the rest of the sale is given back. -/
structure Refund where
  existing : Sale
  itemType : ItemType
  /-- What was consumed. -/
  newTotal : ℚ

namespace Refund

variable (r : Refund)

def paid : Bool := r.existing.paymentStatus == .paid

/-- What goes back to the customer of a paid sale. -/
def amount : ℚ := round2 (r.existing.total - r.newTotal)

def prevEarned : ℤ := r.existing.loyaltyPointsEarned.getD 0

/-- The points of what was consumed; a sale that gave none is left alone. -/
def nextEarned (network : Network) : ℤ :=
  if 0 < r.prevEarned then
    loyaltyEarnedFor network r.existing.paymentStatus (r.existing.moneyBase r.newTotal)
      r.existing.customerId
  else 0

/-- The refund sale of a paid sale. -/
def sale (ctx : Caller) (saleId : ℕ) (openSession : Option ℕ) : Sale where
  createdAt := ctx.now
  barbershopId := ctx.shop.id
  customerId := r.existing.customerId
  barberId := r.existing.barberId
  appointmentId := none
  cashSessionId := openSession
  saleType := .refund
  subtotal := -r.amount
  discountAmount := 0
  taxAmount := 0
  total := -r.amount
  paymentStatus := .paid
  paymentMethod := r.existing.paymentMethod
  paidAt := some ctx.now
  giftCardId := none
  giftCardAmountApplied := none
  loyaltyPointsEarned := none
  loyaltyPointsRedeemed := none
  loyaltyDiscountAmount := none
  depositApplied := none
  prepaidApplied := none
  clientSubscriptionId := none
  items := [{
    itemType := r.itemType
    serviceId := none
    productId := none
    serviceHistoryId := none
    quantity := 1
    unitPrice := -r.amount
    totalPrice := -r.amount
    notes := some (.remainderOf saleId) }]

/-- The points of the sale that was lowered. -/
def lowerEarned (network : Network) (s : Sale) : Sale :=
  if 0 < r.prevEarned then
    { s with loyaltyPointsEarned :=
        if r.nextEarned network = 0 then none else some (r.nextEarned network) }
  else s

/-- The first line of a pending sale carries the new total, the others nothing. -/
def reprice (items : List SaleItem) : List SaleItem :=
  match items with
  | [] => []
  | first :: rest =>
    { first with unitPrice := r.newTotal, totalPrice := r.newTotal } ::
      rest.map fun i => { i with unitPrice := 0, totalPrice := 0 }

/-- A pending sale is rewritten to what was consumed. -/
def lower (network : Network) (s : Sale) : Sale :=
  r.lowerEarned network { s with
    subtotal := r.newTotal
    discountAmount := 0
    taxAmount := 0
    total := r.newTotal
    items := r.reprice s.items }

def sales (ctx : Caller) (saleId : ℕ) (openSession : Option ℕ) (sales : Table Sale) : Table Sale :=
  if r.paid then
    let sales := if 0 < r.amount then sales.insert (r.sale ctx saleId openSession) else sales
    sales.modify saleId (r.lowerEarned ctx.shop.network)
  else sales.modify saleId (r.lower ctx.shop.network)

/-- Here the difference is added as it is, without a floor. -/
def movePoints (network : Network) (customers : Table Customer) : Table Customer :=
  match r.existing.customerId with
  | none => customers
  | some id =>
    if 0 < r.prevEarned then incrementPoints customers id (r.nextEarned network - r.prevEarned)
    else customers

end Refund

def ClientPackage.sameSessions (saleId : ℕ) (read p : ClientPackage) : Bool :=
  p.saleId == some saleId && p.status == .active && p.usedSessions == read.usedSessions &&
    p.totalSessions == read.totalSessions

/-- The package ends at the sessions that were used. -/
def ClientPackage.closeAt (now : ℤ) (read p : ClientPackage) : ClientPackage :=
  { p with
    totalSessions := read.usedSessions
    status := .completed
    remainderRefundedAt := some now }

def refundPackage (ctx : Caller) (saleId : ℕ) (existing : Sale) (found : ℕ × ClientPackage)
    (packages : Table ClientPackage) : Result (Refund × Table ClientPackage) := do
  let issued := found.2
  refuseIf (issued.usedSessions = 0)
    (.badRequest "O pacote não foi usado. Apague a venda para cancelar.")
  refuseIf (issued.status ≠ .active ∨ issued.totalSessions ≤ issued.usedSessions)
    (.badRequest "Não sobrou valor para estornar.")
  let packages ← orRefuse
    (packages.tryModify found.1 (issued.sameSessions saleId) (issued.closeAt ctx.now))
    (.badRequest "O pacote mudou. Tente de novo.")
  return ({
    existing := existing
    itemType := .package
    newTotal := round2 (existing.total * issued.usedSessions / issued.totalSessions) }, packages)

def GiftCard.sameBalance (saleId : ℕ) (read c : GiftCard) : Bool :=
  c.saleId == some saleId && c.remainingValue == read.remainingValue

def refundCard (saleId : ℕ) (existing : Sale) (found : ℕ × GiftCard) (cards : Table GiftCard) :
    Result (Refund × Table GiftCard) := do
  let card := found.2
  refuseIf (card.initialValue ≤ card.remainingValue)
    (.badRequest "O cartão-presente não foi usado. Apague a venda para cancelar.")
  refuseIf (card.remainingValue ≤ 0) (.badRequest "Não sobrou valor para estornar.")
  let cards ← orRefuse (cards.tryModify found.1 (card.sameBalance saleId) (·.cancel))
    (.badRequest "O cartão-presente mudou. Tente de novo.")
  return ({
    existing := existing
    itemType := .giftCard
    newTotal := round2 (max 0 (existing.total - card.remainingValue)) }, cards)

def refundIssuedRemainder (ctx : Caller) (saleId : ℕ) (reads : RefundRead → Db) (db : Db) :
    Result Db := do
  ctx.ensureBarbershopAccess .manager
  let existing ← orRefuse
    (((reads .existing).sales.get? saleId).filter (·.barbershopId == ctx.shop.id))
    (.badRequest "Venda não encontrada")
  refuseIf (existing.paymentStatus ≠ .paid ∧ (reads .existing).cashClosed existing = true)
    (.badRequest "Essa venda é de um caixa já fechado. Lance a correção no caixa aberto.")
  let openSession := (reads .openSession).openSession ctx.shop.id
  -- the row is gone if another request deleted it first
  let _ ← orRefuse (db.sales.get? saleId) (.notFound "Venda não encontrada")
  match (reads .package).packageOfSale saleId with
  | some found => do
    let (refund, packages) ← refundPackage ctx saleId existing found db.packages
    return { db with
      packages := packages
      sales := refund.sales ctx saleId openSession db.sales
      customers := refund.movePoints ctx.shop.network db.customers }
  | none => do
    let found ← orRefuse ((reads .card).cardOfSale saleId)
      (.badRequest "Esta venda não é de pacote nem de cartão-presente.")
    let (refund, cards) ← refundCard saleId existing found db.giftCards
    return { db with
      giftCards := cards
      sales := refund.sales ctx saleId openSession db.sales
      customers := refund.movePoints ctx.shop.network db.customers }

theorem refundPackage_ok {ctx : Caller} {saleId : ℕ} {existing : Sale} {found : ℕ × ClientPackage}
    {packages packages' : Table ClientPackage} {r : Refund}
    (h : refundPackage ctx saleId existing found packages = .ok (r, packages')) :
    0 < found.2.usedSessions ∧ found.2.status = .active ∧
      found.2.usedSessions < found.2.totalSessions ∧
      r = { existing := existing, itemType := .package,
            newTotal := round2 (existing.total * found.2.usedSessions / found.2.totalSessions) } ∧
      packages.tryModify found.1 (found.2.sameSessions saleId) (found.2.closeAt ctx.now) =
        some packages' := by
  simp only [refundPackage, bind_eq_ok, exists_punit, orRefuse_eq_ok, refuseIf_eq_ok, pure_eq_ok,
    Prod.mk.injEq] at h
  obtain ⟨hused, hactive, packages₁, hmod, rfl, rfl⟩ := h
  push Not at hactive
  exact ⟨Nat.pos_of_ne_zero hused, hactive.1, hactive.2, rfl, hmod⟩

theorem refundCard_ok {saleId : ℕ} {existing : Sale} {found : ℕ × GiftCard}
    {cards cards' : Table GiftCard} {r : Refund}
    (h : refundCard saleId existing found cards = .ok (r, cards')) :
    found.2.remainingValue < found.2.initialValue ∧ 0 < found.2.remainingValue ∧
      r = { existing := existing, itemType := .giftCard,
            newTotal := round2 (max 0 (existing.total - found.2.remainingValue)) } ∧
      cards.tryModify found.1 (found.2.sameBalance saleId) (·.cancel) = some cards' := by
  simp only [refundCard, bind_eq_ok, exists_punit, orRefuse_eq_ok, refuseIf_eq_ok, pure_eq_ok,
    Prod.mk.injEq, not_le] at h
  obtain ⟨hused, hrest, cards₁, hmod, rfl, rfl⟩ := h
  exact ⟨hused, hrest, rfl, hmod⟩

/-- A refund closes the package or empties the card its sale issued. -/
theorem refundIssuedRemainder_ok {ctx : Caller} {saleId : ℕ} {reads : RefundRead → Db} {db db' : Db}
    (h : refundIssuedRemainder ctx saleId reads db = .ok db') :
    ∃ existing s, (reads .existing).sales.get? saleId = some existing ∧
      existing.barbershopId = ctx.shop.id ∧
      (existing.paymentStatus ≠ .paid → (reads .existing).cashClosed existing = false) ∧
      db.sales.get? saleId = some s ∧
      ∃ (r : Refund) (packages : Table ClientPackage) (cards : Table GiftCard),
        r.existing = existing ∧
        ((∃ found, (reads .package).packageOfSale saleId = some found ∧
            refundPackage ctx saleId existing found db.packages = .ok (r, packages) ∧
            cards = db.giftCards) ∨
          ∃ found, (reads .package).packageOfSale saleId = none ∧
            (reads .card).cardOfSale saleId = some found ∧
            refundCard saleId existing found db.giftCards = .ok (r, cards) ∧
            packages = db.packages) ∧
        db' = { db with
          packages := packages
          giftCards := cards
          sales := r.sales ctx saleId ((reads .openSession).openSession ctx.shop.id) db.sales
          customers := r.movePoints ctx.shop.network db.customers } := by
  simp only [refundIssuedRemainder, bind_eq_ok, exists_punit, orRefuse_eq_ok, refuseIf_eq_ok,
    Option.filter_eq_some_iff, beq_iff_eq] at h
  obtain ⟨-, existing, ⟨hexisting, hshop⟩, hclosed, s, hs, h⟩ := h
  push Not at hclosed
  refine ⟨existing, s, hexisting, hshop, fun hp => by simpa using hclosed hp, hs, ?_⟩
  cases hfound : (reads .package).packageOfSale saleId with
  | some found =>
    simp only [hfound, bind_eq_ok, pure_eq_ok] at h
    obtain ⟨⟨r, packages⟩, hr, rfl⟩ := h
    refine ⟨r, packages, db.giftCards, ?_, .inl ⟨found, rfl, hr, rfl⟩, rfl⟩
    rw [(refundPackage_ok hr).2.2.2.1]
  | none =>
    simp only [hfound, bind_eq_ok, orRefuse_eq_ok, pure_eq_ok] at h
    obtain ⟨found, hcard, ⟨r, cards⟩, hr, rfl⟩ := h
    refine ⟨r, db.packages, cards, ?_, .inr ⟨found, rfl, hcard, hr, rfl⟩, rfl⟩
    rw [(refundCard_ok hr).2.2.1]

end Barbershop
