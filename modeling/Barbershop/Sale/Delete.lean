import Barbershop.Sale.Update

/-!
# Deleting a sale, and refunding what it issued

Deleting a sale undoes what it did elsewhere: what it issued is cancelled if nobody used it, the
sessions, balance, points and stock it took go back. A sale whose package or gift card was used in
part is not deleted: `refundIssuedRemainder` gives back what is left.

Both decide on rows read earlier in the transaction. An update whose `where` no longer matches makes
the request throw; only `cancelIssuedIfUnused` goes on after a miss, when a second read finds the
package cancelled or the card unused.
-/

namespace Barbershop

open Lib

/-- The steps of `deleteSale` that see the database, in order. The sale is read before the
transaction; the reads not listed are of rows that only the sale's own requests write. -/
inductive DeleteRead where
  | existing | package | cancelPackage | packageAgain | card | cancelCard | cardAgain | uses
  deriving DecidableEq, Repr

/-- The package a sale issued. -/
def Db.packageOfSale (db : Db) (saleId : ℕ) : Option (ℕ × ClientPackage) :=
  db.packages.find? fun _ p => p.saleId == some saleId

/-! ## What the sale issued -/

def ClientPackage.cancellable (saleId : ℕ) (p : ClientPackage) : Bool :=
  p.saleId == some saleId && p.usedSessions == 0 && p.status == .active

def ClientPackage.cancel (p : ClientPackage) : ClientPackage := { p with status := .cancelled }

/-- Cancels the package the sale issued, if nobody used it. The update decides when it runs; if it
hits, its row is locked and it is written with the transaction. -/
def cancelIssuedPackage (saleId : ℕ) (reads : DeleteRead → Db) (packages : Table ClientPackage) :
    Result (Table ClientPackage) :=
  match (reads .package).packageOfSale saleId with
  | none => pure packages
  | some (id, issued) => do
    let used := Refusal.badRequest
      "Este pacote já teve sessão usada. Estorne o que sobrou em vez de apagar a venda."
    refuseIf (0 < issued.usedSessions) used
    if ((reads .cancelPackage).packages.get? id).any (·.cancellable saleId) then
      orRefuse (packages.tryModify id (·.cancellable saleId) (·.cancel)) used
    else do
      refuseIf ((((reads .packageAgain).packages.get? id).any fun again =>
        again.usedSessions == 0 && again.status == .cancelled) = false) used
      return packages

def GiftCard.cancellable (saleId : ℕ) (initialValue : ℚ) (c : GiftCard) : Bool :=
  c.saleId == some saleId && c.isActive && c.remainingValue == initialValue

def GiftCard.cancel (c : GiftCard) : GiftCard := { c with isActive := false, remainingValue := 0 }

def GiftCard.unused (c : GiftCard) : Bool := c.remainingValue == c.initialValue

/-- Cancels the gift card the sale issued, if nobody used it. -/
def cancelIssuedCard (saleId : ℕ) (reads : DeleteRead → Db) (cards : Table GiftCard) :
    Result (Table GiftCard) :=
  match (reads .card).cardOfSale saleId with
  | none => pure cards
  | some (id, issued) => do
    let used := Refusal.badRequest
      "Este cartão-presente já foi usado. Estorne o que sobrou em vez de apagar a venda."
    refuseIf (issued.unused = false) used
    if ((reads .cancelCard).giftCards.get? id).any (·.cancellable saleId issued.initialValue) then
      orRefuse (cards.tryModify id (·.cancellable saleId issued.initialValue) (·.cancel)) used
    else do
      refuseIf ((((reads .cardAgain).giftCards.get? id).any (·.unused)) = false) used
      return cards

theorem Db.cardOfSale_some {db : Db} {saleId k : ℕ} {c : GiftCard}
    (h : db.cardOfSale saleId = some (k, c)) :
    db.giftCards.get? k = some c ∧ c.saleId = some saleId := by
  simpa using Table.find?_some h

theorem Db.packageOfSale_some {db : Db} {saleId k : ℕ} {p : ClientPackage}
    (h : db.packageOfSale saleId = some (k, p)) :
    db.packages.get? k = some p ∧ p.saleId = some saleId := by
  simpa using Table.find?_some h

theorem GiftCard.cancellable_iff {saleId : ℕ} {v : ℚ} {c : GiftCard} :
    c.cancellable saleId v = true ↔
      c.saleId = some saleId ∧ c.isActive = true ∧ c.remainingValue = v := by
  simp [GiftCard.cancellable, and_assoc]

/-- The sale issued no card that was seen, or the card was hit and cancelled, or the update missed
it and the card is left as it is. -/
theorem cancelIssuedCard_ok {saleId : ℕ} {reads : DeleteRead → Db} {cards cards' : Table GiftCard}
    (h : cancelIssuedCard saleId reads cards = .ok cards') :
    ((reads .card).cardOfSale saleId = none ∧ cards' = cards) ∨
      ∃ k issued, (reads .card).cardOfSale saleId = some (k, issued) ∧
        issued.unused = true ∧
        ((∃ c, cards.get? k = some c ∧ c.cancellable saleId issued.initialValue = true ∧
            cards' = cards.modify k (·.cancel)) ∨
          (((reads .cancelCard).giftCards.get? k).any
              (·.cancellable saleId issued.initialValue) = false ∧ cards' = cards)) := by
  unfold cancelIssuedCard at h
  cases hfound : (reads .card).cardOfSale saleId with
  | none =>
    simp only [hfound, pure_eq_ok] at h
    exact .inl ⟨rfl, h.symm⟩
  | some found =>
    obtain ⟨k, issued⟩ := found
    simp only [hfound, bind_eq_ok, exists_punit, refuseIf_eq_ok, Bool.not_eq_false] at h
    obtain ⟨hunused, h⟩ := h
    refine .inr ⟨k, issued, rfl, hunused, ?_⟩
    split at h
    · exact .inl (Table.tryModify_eq_some.1 (orRefuse_eq_ok.1 h))
    · next hmiss =>
      simp only [bind_eq_ok, exists_punit, pure_eq_ok] at h
      exact .inr ⟨by simpa using hmiss, h.2.symm⟩

/-! ## What the sale used -/

/-- The uses a deleted sale restores. -/
def Db.activeUses (db : Db) (saleId : ℕ) : List (ℕ × ClientPackageUse) :=
  db.packageUses.filter fun _ u => u.saleId == some saleId && u.undoneAt.isNone

/-- One use: the package gets its session back unless it was cancelled or refunded; then the use
stays as it is. -/
def restorePackageUse (now : ℤ) (userId useId clientPackageId : ℕ)
    (t : Table ClientPackage × Table ClientPackageUse) :
    Table ClientPackage × Table ClientPackageUse :=
  match t.1.tryModify clientPackageId (·.restorable) (·.restore) with
  | none => t
  | some packages => (packages, t.2.modify useId (·.undo now userId))

/-- `restorePackageUses`, for the uses that were found. -/
def restorePackageUses (now : ℤ) (userId : ℕ) (found : List (ℕ × ClientPackageUse))
    (t : Table ClientPackage × Table ClientPackageUse) :
    Table ClientPackage × Table ClientPackageUse :=
  found.foldl (fun t u => restorePackageUse now userId u.1 u.2.clientPackageId t) t

/-- The fee a sale collected is pending again. -/
def reopenFees (saleId : ℕ) (fees : Table NoShowFee) : Table NoShowFee :=
  fees.modifyAll fun _ f =>
    if f.saleId = some saleId then { f with status := .pending, collectedAt := none, saleId := none }
    else f

/-- The club session of the sale goes back if its cycle is still the current one. -/
def restoreClub (existing : Sale) (subscriptions : Table ClientSubscription) :
    Table ClientSubscription :=
  match existing.clientSubscriptionId with
  | none => subscriptions
  | some id => subscriptions.modify id fun s =>
    if 0 < s.usedThisCycle ∧ s.currentPeriodStart.all (· ≤ existing.createdAt) then
      { s with usedThisCycle := s.usedThisCycle - 1 }
    else s

def undoClubUses (existing : Sale) (saleId : ℕ) (now : ℤ) (userId : ℕ)
    (uses : Table ClientSubscriptionUse) : Table ClientSubscriptionUse :=
  match existing.clientSubscriptionId with
  | none => uses
  | some _ => uses.modifyAll fun _ u =>
    if u.saleId = some saleId ∧ u.undoneAt = none then
      { u with undoneAt := some now, undoneByUserId := some userId }
    else u

/-- The balance the sale took from a gift card goes back on it. -/
def restoreCard (existing : Sale) (cards : Table GiftCard) : Table GiftCard :=
  match existing.giftCardId, existing.giftCardAmountApplied with
  | some id, some applied =>
    cards.modify id fun c => { c with remainingValue := c.remainingValue + applied }
  | _, _ => cards

/-- The points it took go back, the points it gave are taken. -/
def restorePoints (existing : Sale) (customers : Table Customer) : Table Customer :=
  match existing.customerId with
  | none => customers
  | some id => addLoyaltyPoints customers id
      (existing.loyaltyPointsRedeemed.getD 0 - existing.loyaltyPointsEarned.getD 0)

/-- `ON DELETE SET NULL` on the sale that issued a card. -/
def unlinkCards (saleId : ℕ) (cards : Table GiftCard) : Table GiftCard :=
  cards.modifyAll fun _ c => if c.saleId = some saleId then { c with saleId := none } else c

/-- `ON DELETE SET NULL` on the sale that issued a package. -/
def unlinkPackages (saleId : ℕ) (packages : Table ClientPackage) : Table ClientPackage :=
  packages.modifyAll fun _ p => if p.saleId = some saleId then { p with saleId := none } else p

/-! ## The request -/

/-- The checks before the transaction, and the sale they found. -/
def checkDelete (ctx : Caller) (saleId : ℕ) (db : Db) : Result Sale := do
  ctx.ensureBarbershopAccess .manager
  let existing ← orRefuse ((db.sales.get? saleId).filter (·.barbershopId == ctx.shop.id))
    (.badRequest "Venda não encontrada")
  refuseIf (existing.saleType = .refund) (.badRequest "Estorno não pode ser alterado nem apagado.")
  refuseIf (db.cashClosed existing = true)
    (.badRequest "Essa venda é de um caixa já fechado. Lance a correção no caixa aberto.")
  return existing

def deleteSale (ctx : Caller) (saleId : ℕ) (reads : DeleteRead → Db) (db : Db) : Result Db := do
  let existing ← checkDelete ctx saleId (reads .existing)
  let packages ← cancelIssuedPackage saleId reads db.packages
  let cards ← cancelIssuedCard saleId reads db.giftCards
  let sessions := restorePackageUses ctx.now ctx.userId ((reads .uses).activeUses saleId)
    (packages, db.packageUses)
  let points := revertReferralOfSale saleId db.referrals db.customers
  let stock := returnStock saleId db.stock
  -- the row is gone if another request deleted it first
  let _ ← orRefuse (db.sales.get? saleId) (.notFound "Venda não encontrada")
  return { db with
    packages := unlinkPackages saleId sessions.1
    packageUses := sessions.2
    referrals := points.1
    customers := restorePoints existing points.2
    noShowFees := reopenFees saleId db.noShowFees
    subscriptions := restoreClub existing db.subscriptions
    subscriptionUses := undoClubUses existing saleId ctx.now ctx.userId db.subscriptionUses
    giftCards := unlinkCards saleId (restoreCard existing cards)
    inventory := stock.inventory
    movements := stock.movements
    sales := db.sales.erase saleId }

theorem checkDelete_ok {ctx : Caller} {saleId : ℕ} {db : Db} {existing : Sale}
    (h : checkDelete ctx saleId db = .ok existing) :
    db.sales.get? saleId = some existing ∧ existing.barbershopId = ctx.shop.id ∧
      existing.saleType ≠ .refund ∧ db.cashClosed existing = false := by
  simp only [checkDelete, bind_eq_ok, exists_punit, orRefuse_eq_ok, refuseIf_eq_ok, pure_eq_ok,
    Option.filter_eq_some_iff] at h
  obtain ⟨-, s, ⟨hs, hshop⟩, htype, hclosed, rfl⟩ := h
  exact ⟨hs, by simpa using hshop, htype, by simpa using hclosed⟩

theorem deleteSale_ok {ctx : Caller} {saleId : ℕ} {reads : DeleteRead → Db} {db db' : Db}
    (h : deleteSale ctx saleId reads db = .ok db') :
    ∃ existing packages cards s,
      checkDelete ctx saleId (reads .existing) = .ok existing ∧
      cancelIssuedPackage saleId reads db.packages = .ok packages ∧
      cancelIssuedCard saleId reads db.giftCards = .ok cards ∧
      db.sales.get? saleId = some s ∧
      db' = { db with
        packages := unlinkPackages saleId (restorePackageUses ctx.now ctx.userId
          ((reads .uses).activeUses saleId) (packages, db.packageUses)).1
        packageUses := (restorePackageUses ctx.now ctx.userId
          ((reads .uses).activeUses saleId) (packages, db.packageUses)).2
        referrals := (revertReferralOfSale saleId db.referrals db.customers).1
        customers := restorePoints existing (revertReferralOfSale saleId db.referrals db.customers).2
        noShowFees := reopenFees saleId db.noShowFees
        subscriptions := restoreClub existing db.subscriptions
        subscriptionUses := undoClubUses existing saleId ctx.now ctx.userId db.subscriptionUses
        giftCards := unlinkCards saleId (restoreCard existing cards)
        inventory := (returnStock saleId db.stock).inventory
        movements := (returnStock saleId db.stock).movements
        sales := db.sales.erase saleId } := by
  simp only [deleteSale, bind_eq_ok, orRefuse_eq_ok, pure_eq_ok] at h
  obtain ⟨existing, hcheck, packages, hp, cards, hc, s, hs, rfl⟩ := h
  exact ⟨existing, packages, cards, s, hcheck, hp, hc, hs, rfl⟩

end Barbershop
