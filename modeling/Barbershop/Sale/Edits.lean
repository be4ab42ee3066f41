import Barbershop.Lib.Overlap
import Barbershop.Service

/-!
# Two edits of one sale at once

Two requests that edit or delete one sale. Each is one transaction, and none locks the sale before it
reads it: an edit waits for the row when it writes it, and makes everything after that on the state
it commits in, but moves the points by what it read before; a deletion does its other writes first
and takes the row last. So the second to commit has seen the sale as it was, or as the first left it.

`Serial` compares what comes out with the two orders. Points and stock are moved by differences, and
a difference to a row that has changed since is taken twice, or not at all; `Current` says that what
decides the differences has not.
-/

namespace Barbershop

open Lib

/-! ## A deletion that reads early -/

/-- The reads of `deleteSale` on rows that only the sale's own requests write: the referral the sale
completed and its stock movements. -/
inductive LateRead where
  | referral | movements
  deriving DecidableEq, Repr

/-- The referral a sale completed. -/
def referralOfSale (saleId : ℕ) (referrals : Table CustomerReferral) :
    Option (ℕ × CustomerReferral) :=
  referrals.find? fun _ r => r.saleId == some saleId

/-- `revertReferralOfSale`, with the referral it found earlier. The update asks for the sale again,
and the points go back only if it hits. -/
def revertReferralSeen (saleId : ℕ) (seen referrals : Table CustomerReferral)
    (customers : Table Customer) : Table CustomerReferral × Table Customer :=
  match referralOfSale saleId seen with
  | none => (referrals, customers)
  | some (id, referral) =>
    let points := referral.pointsAwarded.getD 0
    match referrals.tryModify id (·.saleId == some saleId)
      (fun r => { r with completedAt := none, pointsAwarded := none, saleId := none }) with
    | none => (referrals, customers)
    | some referrals =>
      if 0 < points then (referrals, floorPoints customers referral.referrerId (-points))
      else (referrals, customers)

/-- `returnStock`, for the movements that were found. -/
def returnMovements (saleId : ℕ) (found : List InventoryMovement) (st : Stock) : Stock :=
  found.foldl (fun st m =>
    st.move m.barbershopId m.productId
      (((st.inventory m.barbershopId m.productId).map (·.unit)).getD "UNIT")
      (-m.quantityChange) .adjustment .saleDeleted (some saleId)) st

/-- `deleteSale`, with all its reads apart. -/
def deleteSaleReading (ctx : Caller) (saleId : ℕ) (reads : DeleteRead → Db) (late : LateRead → Db)
    (db : Db) : Result Db := do
  let existing ← checkDelete ctx saleId (reads .existing)
  let packages ← cancelIssuedPackage saleId reads db.packages
  let cards ← cancelIssuedCard saleId reads db.giftCards
  let sessions := restorePackageUses ctx.now ctx.userId ((reads .uses).activeUses saleId)
    (packages, db.packageUses)
  let points := revertReferralSeen saleId (late .referral).referrals db.referrals db.customers
  let stock := returnMovements saleId ((late .movements).movements.filter (·.ofSale saleId)) db.stock
  -- the row is gone if another request deleted it first
  let _ ← orRefuse (db.sales.get? saleId) (.notFound "Venda não encontrada")
  return { db with
    packages := unlinkPackages saleId sessions.1
    packageUses := sessions.2
    referrals := points.1
    customers := restorePoints existing points.2
    noShowFees := reopenFees saleId db.noShowFees
    subscriptions := restoreClub existing db.subscriptions
    subscriptionUses := undoClubUses existing saleId ctx.now ctx.userId db.subscriptionUses
    giftCards := unlinkCards saleId (restoreCard existing cards)
    inventory := stock.inventory
    movements := stock.movements
    sales := db.sales.erase saleId }

theorem deleteSaleReading_ok {ctx : Caller} {saleId : ℕ} {reads : DeleteRead → Db}
    {late : LateRead → Db} {db db' : Db} :
    deleteSaleReading ctx saleId reads late db = .ok db' ↔
    ∃ existing packages cards s,
      checkDelete ctx saleId (reads .existing) = .ok existing ∧
      cancelIssuedPackage saleId reads db.packages = .ok packages ∧
      cancelIssuedCard saleId reads db.giftCards = .ok cards ∧
      db.sales.get? saleId = some s ∧
      { db with
        packages := unlinkPackages saleId (restorePackageUses ctx.now ctx.userId
          ((reads .uses).activeUses saleId) (packages, db.packageUses)).1
        packageUses := (restorePackageUses ctx.now ctx.userId
          ((reads .uses).activeUses saleId) (packages, db.packageUses)).2
        referrals := (revertReferralSeen saleId (late .referral).referrals db.referrals
          db.customers).1
        customers := restorePoints existing (revertReferralSeen saleId (late .referral).referrals
          db.referrals db.customers).2
        noShowFees := reopenFees saleId db.noShowFees
        subscriptions := restoreClub existing db.subscriptions
        subscriptionUses := undoClubUses existing saleId ctx.now ctx.userId db.subscriptionUses
        giftCards := unlinkCards saleId (restoreCard existing cards)
        inventory := (returnMovements saleId ((late .movements).movements.filter (·.ofSale saleId))
          db.stock).inventory
        movements := (returnMovements saleId ((late .movements).movements.filter (·.ofSale saleId))
          db.stock).movements
        sales := db.sales.erase saleId } = db' := by
  simp only [deleteSaleReading, bind_eq_ok, orRefuse_eq_ok, pure_eq_ok]
  constructor
  · rintro ⟨existing, hcheck, packages, hp, cards, hc, s, hs, rfl⟩
    exact ⟨existing, packages, cards, s, hcheck, hp, hc, hs, rfl⟩
  · rintro ⟨existing, packages, cards, s, hcheck, hp, hc, hs, rfl⟩
    exact ⟨existing, hcheck, packages, hp, cards, hc, s, hs, rfl⟩

/-! ## The requests -/

inductive SaleEditRequest where
  | update (ctx : Caller) (data : SalePatch)
  | delete (ctx : Caller)

/-- The states a request read. -/
structure EditReads where
  update : UpdateRead → Db
  delete : DeleteRead → Db
  late : LateRead → Db

namespace EditReads

/-- Every read sees `db`. -/
def all (db : Db) : EditReads := ⟨fun _ => db, fun _ => db, fun _ => db⟩

/-- Every read sees one of the two states. -/
structure Among (reads : EditReads) (db db₁ : Db) : Prop where
  update : ∀ r, reads.update r = db ∨ reads.update r = db₁
  delete : ∀ r, reads.delete r = db ∨ reads.delete r = db₁
  late : ∀ r, reads.late r = db ∨ reads.late r = db₁

end EditReads

namespace SaleEditRequest

variable (cat : Catalog) (saleId : ℕ)

def exec (reads : EditReads) (db : Db) : SaleEditRequest → Result Db
  | .update ctx data => updateSale cat ctx saleId data reads.update db
  | .delete ctx => deleteSaleReading ctx saleId reads.delete reads.late db

/-- The request with nothing else going on. -/
def alone (r : SaleEditRequest) (db : Db) : Result Db := r.exec cat saleId (.all db) db

/-- `a` commits first; `b` has made its reads before or after that. -/
def overlapping (a b : SaleEditRequest) (reads : EditReads) (db : Db) : Db :=
  let db₁ := settle db (a.alone cat saleId db)
  settle db₁ (b.exec cat saleId reads db₁)

end SaleEditRequest

/-- What the edits of a sale are to leave alike: the points of every customer, the referrals and
their bonuses, the items of the sale and the stock of every product. -/
structure SameOutcome (saleId : ℕ) (db db' : Db) : Prop where
  points : ∀ c, (db.customers.get? c).map (·.loyaltyPoints) =
    (db'.customers.get? c).map (·.loyaltyPoints)
  referrals : ∀ r, db.referrals.get? r = db'.referrals.get? r
  items : (db.sales.get? saleId).map (·.items) = (db'.sales.get? saleId).map (·.items)
  stock : ∀ shop product, db.stock.quantity shop product = db'.stock.quantity shop product

theorem SameOutcome.refl (saleId : ℕ) (db : Db) : SameOutcome saleId db db :=
  ⟨fun _ => rfl, fun _ => rfl, rfl, fun _ _ => rfl⟩

/-! ## What a request decides by -/

/-- An edit decides on `seen` what it would on `now`. -/
structure SalePatch.SameFor (data : SalePatch) (seen now : Sale) : Prop where
  customerId : seen.customerId = now.customerId
  paid : seen.paymentStatus = .paid ↔ now.paymentStatus = .paid
  earned : seen.loyaltyPointsEarned.getD 0 = now.loyaltyPointsEarned.getD 0
  money : ∀ openSession, (SaleEdit.mk data seen openSession).nextMoney =
    (SaleEdit.mk data now openSession).nextMoney

/-- A request whose checks pass on what it read would pass them on `db`, and decides by what is in
`db`: the sale, and for a deletion its referral and its movements. -/
def SaleEditRequest.Current (cat : Catalog) (saleId : ℕ) (reads : EditReads) (db : Db) :
    SaleEditRequest → Prop
  | .update ctx data => ∀ seen,
    checkUpdate cat ctx saleId data (reads.update .before) = .ok () →
    (reads.update .existing).sales.get? saleId = some seen →
    checkEdit data seen ((reads.update .existing).cashClosed seen) = .ok () →
    checkUpdate cat ctx saleId data db = .ok () ∧ ∃ now, db.sales.get? saleId = some now ∧
      now.barbershopId = ctx.shop.id ∧ checkEdit data now (db.cashClosed now) = .ok () ∧
      data.SameFor seen now
  | .delete ctx => ∀ seen, checkDelete ctx saleId (reads.delete .existing) = .ok seen →
    (∃ now, checkDelete ctx saleId db = .ok now ∧ seen.customerId = now.customerId ∧
      seen.loyaltyPointsRedeemed.getD 0 - seen.loyaltyPointsEarned.getD 0 =
        now.loyaltyPointsRedeemed.getD 0 - now.loyaltyPointsEarned.getD 0) ∧
    referralOfSale saleId (reads.late .referral).referrals = referralOfSale saleId db.referrals ∧
    (reads.late .movements).movements.filter (·.ofSale saleId) =
      db.movements.filter (·.ofSale saleId)

/-! ## The second of two -/

section Deciding

variable {data : SalePatch} {seen now : Sale} (openSeen openNow : Option ℕ)

theorem SalePatch.SameFor.nextEarned (h : data.SameFor seen now) (network : Network) :
    (SaleEdit.mk data seen openSeen).nextEarned network =
      (SaleEdit.mk data now openNow).nextEarned network := by
  have hmoney : (SaleEdit.mk data seen openSeen).nextMoney =
      (SaleEdit.mk data now openNow).nextMoney := h.money openSeen
  have hpaid : (SaleEdit.mk data seen openSeen).nextStatus ≠ .paid ↔
      (SaleEdit.mk data now openNow).nextStatus ≠ .paid := by
    unfold SaleEdit.nextStatus
    cases data.paymentStatus with
    | some status => exact Iff.rfl
    | none => exact not_congr h.paid
  unfold SaleEdit.nextEarned loyaltyEarnedFor
  rw [hmoney]
  simp only [SaleEdit.nextCustomerId, h.customerId, hpaid]
  congr

theorem SalePatch.SameFor.movePoints (h : data.SameFor seen now) (network : Network)
    (customers : Table Customer) :
    (SaleEdit.mk data seen openSeen).movePoints network customers =
      (SaleEdit.mk data now openNow).movePoints network customers := by
  unfold SaleEdit.movePoints
  rw [h.nextEarned openSeen openNow network]
  simp only [SaleEdit.prevEarned, SaleEdit.nextCustomerId, SaleEdit.customerChanged, h.customerId,
    h.earned]
  congr

theorem SalePatch.SameFor.moveReferral (h : data.SameFor seen now) (ctx : Caller) (saleId : ℕ)
    (referrals : Table CustomerReferral) (customers : Table Customer) :
    (SaleEdit.mk data seen openSeen).moveReferral ctx saleId referrals customers =
      (SaleEdit.mk data now openNow).moveReferral ctx saleId referrals customers := by
  have hmoney : (SaleEdit.mk data seen openSeen).nextMoney =
      (SaleEdit.mk data now openNow).nextMoney := h.money openSeen
  have hpaid : (SaleEdit.mk data seen openSeen).nextStatus = .paid ↔
      (SaleEdit.mk data now openNow).nextStatus = .paid := by
    unfold SaleEdit.nextStatus
    cases data.paymentStatus with
    | some status => exact Iff.rfl
    | none => exact h.paid
  unfold SaleEdit.moveReferral
  rw [hmoney]
  simp only [SaleEdit.nextCustomerId, SaleEdit.customerChanged, h.customerId, h.paid, hpaid, ne_eq]
  congr

end Deciding

/-! ### An edit -/

theorem updateSale_eq_ok {cat : Catalog} {ctx : Caller} {saleId : ℕ} {data : SalePatch}
    {reads : UpdateRead → Db} {db db' : Db} :
    updateSale cat ctx saleId data reads db = .ok db' ↔
      checkUpdate cat ctx saleId data (reads .before) = .ok () ∧
      ∃ seen, (reads .existing).sales.get? saleId = some seen ∧
        seen.barbershopId = ctx.shop.id ∧
        checkEdit data seen ((reads .existing).cashClosed seen) = .ok () ∧
        commitEdit cat ctx saleId ⟨data, seen, (reads .openSession).openSession ctx.shop.id⟩ db =
          .ok db' := by
  simp only [updateSale, bind_eq_ok, exists_punit, orRefuse_eq_ok, Option.filter_eq_some_iff,
    beq_iff_eq, and_assoc]

theorem commitEdit_of_row (cat : Catalog) (ctx : Caller) {saleId : ℕ} (e : SaleEdit) {db : Db}
    {s : Sale} (hs : db.sales.get? saleId = some s) :
    ∃ db', commitEdit cat ctx saleId e db = .ok db' := by
  simp only [commitEdit, bind_eq_ok, orRefuse_eq_ok, pure_eq_ok, hs]
  exact ⟨_, s, rfl, rfl⟩

theorem commitEdit_same {cat : Catalog} {ctx : Caller} {saleId : ℕ} {data : SalePatch}
    {seen now : Sale} {openSeen : Option ℕ} (openNow : Option ℕ) (h : data.SameFor seen now)
    {db db₂ : Db} (hcommit : commitEdit cat ctx saleId ⟨data, seen, openSeen⟩ db = .ok db₂) :
    ∃ db₂', commitEdit cat ctx saleId ⟨data, now, openNow⟩ db = .ok db₂' ∧
      SameOutcome saleId db₂ db₂' := by
  obtain ⟨s, hs, rfl⟩ := commitEdit_ok hcommit
  refine ⟨_, by simp only [commitEdit, hs]; rfl, ?_⟩
  have hpoints := h.movePoints openSeen openNow ctx.shop.network db.customers
  have hreferral := h.moveReferral openSeen openNow ctx saleId db.referrals
  constructor
  · intro c
    simp only [hpoints, hreferral]
  · intro r
    simp only [hpoints, hreferral]
  · simp only [Table.get?_modify_self, hs, Option.map_some]
    rfl
  · intro shop product
    rfl

/-- An edit that goes through on mixed reads goes through on the state it is current for, and leaves
the same outcome. -/
theorem update_same {cat : Catalog} {ctx : Caller} {saleId : ℕ} {data : SalePatch}
    {reads : EditReads} {db db₂ : Db}
    (hcurrent : (SaleEditRequest.update ctx data).Current cat saleId reads db)
    (h : updateSale cat ctx saleId data reads.update db = .ok db₂) :
    ∃ db₂', updateSale cat ctx saleId data (fun _ => db) db = .ok db₂' ∧
      SameOutcome saleId db₂ db₂' := by
  obtain ⟨hcheck, seen, hseen, -, hedit, hcommit⟩ := updateSale_eq_ok.1 h
  obtain ⟨hcheck', now, hnow, hshop, hedit', hsame⟩ := hcurrent seen hcheck hseen hedit
  obtain ⟨db₂', hcommit', hout⟩ := commitEdit_same (db.openSession ctx.shop.id) hsame hcommit
  exact ⟨db₂', updateSale_eq_ok.2 ⟨hcheck', now, hnow, hshop, hedit', hcommit'⟩, hout⟩

/-- An edit that goes through on each of two states goes through on reads of both. -/
theorem update_both {cat : Catalog} {ctx : Caller} {saleId : ℕ} {data : SalePatch}
    {reads : UpdateRead → Db} {db db₁ : Db} (hreads : ∀ r, reads r = db ∨ reads r = db₁)
    (h : ∃ db', updateSale cat ctx saleId data (fun _ => db) db = .ok db')
    (h₁ : ∃ db', updateSale cat ctx saleId data (fun _ => db₁) db₁ = .ok db') :
    ∃ db', updateSale cat ctx saleId data reads db₁ = .ok db' := by
  obtain ⟨_, h⟩ := h
  obtain ⟨_, h₁⟩ := h₁
  obtain ⟨hcheck, seen, hseen, hshop, hedit, -⟩ := updateSale_eq_ok.1 h
  obtain ⟨hcheck₁, seen₁, hseen₁, hshop₁, hedit₁, hcommit₁⟩ := updateSale_eq_ok.1 h₁
  obtain ⟨s, hs, -⟩ := commitEdit_ok hcommit₁
  have hbefore : checkUpdate cat ctx saleId data (reads .before) = .ok () := by
    rcases hreads .before with hr | hr <;> rw [hr]
    · exact hcheck
    · exact hcheck₁
  have hexisting : ∃ seen, (reads .existing).sales.get? saleId = some seen ∧
      seen.barbershopId = ctx.shop.id ∧
      checkEdit data seen ((reads .existing).cashClosed seen) = .ok () := by
    rcases hreads .existing with hr | hr <;> rw [hr]
    · exact ⟨seen, hseen, hshop, hedit⟩
    · exact ⟨seen₁, hseen₁, hshop₁, hedit₁⟩
  obtain ⟨read, hread, hshopRead, heditRead⟩ := hexisting
  obtain ⟨db', hcommit⟩ := commitEdit_of_row cat ctx
    ⟨data, read, (reads .openSession).openSession ctx.shop.id⟩ hs
  exact ⟨db', updateSale_eq_ok.2 ⟨hbefore, read, hread, hshopRead, heditRead, hcommit⟩⟩

/-! ### A deletion -/

/-- The tables of the sessions, the balance and the cards a sale took are the same. -/
structure SameIssued (db db' : Db) : Prop where
  packages : db.packages = db'.packages
  packageUses : db.packageUses = db'.packageUses
  giftCards : db.giftCards = db'.giftCards

theorem SameIssued.refl (db : Db) : SameIssued db db := ⟨rfl, rfl, rfl⟩

theorem cancelIssuedPackage_congr {saleId : ℕ} (reads reads' : DeleteRead → Db)
    (h : ∀ r, SameIssued (reads r) (reads' r)) (packages : Table ClientPackage) :
    cancelIssuedPackage saleId reads packages = cancelIssuedPackage saleId reads' packages := by
  simp only [cancelIssuedPackage, Db.packageOfSale, (h _).packages]

theorem cancelIssuedCard_congr {saleId : ℕ} (reads reads' : DeleteRead → Db)
    (h : ∀ r, SameIssued (reads r) (reads' r)) (cards : Table GiftCard) :
    cancelIssuedCard saleId reads cards = cancelIssuedCard saleId reads' cards := by
  simp only [cancelIssuedCard, Db.cardOfSale, (h _).giftCards]

theorem delete_same (cat : Catalog) {ctx : Caller} {saleId : ℕ} {reads : EditReads} {db db₂ : Db}
    (hissued : ∀ r, SameIssued (reads.delete r) db)
    (hcurrent : (SaleEditRequest.delete ctx).Current cat saleId reads db)
    (h : deleteSaleReading ctx saleId reads.delete reads.late db = .ok db₂) :
    ∃ db₂', deleteSaleReading ctx saleId (fun _ => db) (fun _ => db) db = .ok db₂' ∧
      SameOutcome saleId db₂ db₂' := by
  obtain ⟨seen, packages, cards, s, hcheck, hp, hc, hs, rfl⟩ := deleteSaleReading_ok.1 h
  obtain ⟨⟨now, hnow, hcustomer, hpoints⟩, hreferral, hmovements⟩ := hcurrent seen hcheck
  rw [cancelIssuedPackage_congr reads.delete (fun _ => db) hissued] at hp
  rw [cancelIssuedCard_congr reads.delete (fun _ => db) hissued] at hc
  have hrevert : revertReferralSeen saleId (reads.late .referral).referrals db.referrals
      db.customers = revertReferralSeen saleId db.referrals db.referrals db.customers := by
    unfold revertReferralSeen
    rw [hreferral]
  have hrestore : ∀ customers, restorePoints seen customers = restorePoints now customers := by
    intro customers
    unfold restorePoints
    rw [hcustomer, hpoints]
  refine ⟨_, deleteSaleReading_ok.2 ⟨now, packages, cards, s, hnow, hp, hc, hs, rfl⟩, ?_⟩
  constructor
  · intro c
    simp only [hrevert, hrestore]
  · intro r
    simp only [hrevert]
  · rfl
  · intro shop product
    simp only [hmovements]
    rfl

theorem delete_both {ctx : Caller} {saleId : ℕ} {reads : DeleteRead → Db} {late : LateRead → Db}
    {db db₁ : Db} (hreads : ∀ r, reads r = db ∨ reads r = db₁)
    (hissued : ∀ r, SameIssued (reads r) db₁)
    (h : ∃ db', deleteSaleReading ctx saleId (fun _ => db) (fun _ => db) db = .ok db')
    (h₁ : ∃ db', deleteSaleReading ctx saleId (fun _ => db₁) (fun _ => db₁) db₁ = .ok db') :
    ∃ db', deleteSaleReading ctx saleId reads late db₁ = .ok db' := by
  obtain ⟨_, h⟩ := h
  obtain ⟨_, h₁⟩ := h₁
  obtain ⟨seen, -, -, -, hcheck, -⟩ := deleteSaleReading_ok.1 h
  obtain ⟨seen₁, packages, cards, s, hcheck₁, hp, hc, hs, -⟩ := deleteSaleReading_ok.1 h₁
  rw [← cancelIssuedPackage_congr reads (fun _ => db₁) hissued] at hp
  rw [← cancelIssuedCard_congr reads (fun _ => db₁) hissued] at hc
  have hexisting : ∃ seen, checkDelete ctx saleId (reads .existing) = .ok seen := by
    rcases hreads .existing with hr | hr <;> rw [hr]
    · exact ⟨seen, hcheck⟩
    · exact ⟨seen₁, hcheck₁⟩
  obtain ⟨read, hread⟩ := hexisting
  exact ⟨_, deleteSaleReading_ok.2 ⟨read, packages, cards, s, hread, hp, hc, hs, rfl⟩⟩

/-! ## Serialisable -/

section Pair

variable {cat : Catalog} {saleId : ℕ} {db : Db}

/-- The sale of a deletion that went through is gone, and no request on it goes through. -/
theorem refused_of_gone (hgone : db.sales.get? saleId = none) (reads : EditReads)
    (r : SaleEditRequest) (db' : Db) : r.exec cat saleId reads db ≠ .ok db' := by
  intro h
  cases r with
  | update ctx data =>
    obtain ⟨-, seen, -, -, -, hcommit⟩ := updateSale_eq_ok.1 h
    obtain ⟨s, hs, -⟩ := commitEdit_ok hcommit
    rw [hgone] at hs
    cases hs
  | delete ctx =>
    obtain ⟨-, -, -, s, -, -, -, hs, -⟩ := deleteSaleReading_ok.1 h
    rw [hgone] at hs
    cases hs

/-- An edit leaves what the sale issued and used alone. -/
theorem sameIssued_update {ctx : Caller} {data : SalePatch} {db₁ : Db}
    (h : updateSale cat ctx saleId data (fun _ => db) db = .ok db₁) : SameIssued db db₁ := by
  obtain ⟨-, seen, -, -, -, hcommit⟩ := updateSale_eq_ok.1 h
  obtain ⟨s, -, rfl⟩ := commitEdit_ok hcommit
  exact ⟨rfl, rfl, rfl⟩

theorem EditReads.Among.eq_all {reads : EditReads} (h : reads.Among db db) : reads = .all db := by
  obtain ⟨update, delete, late⟩ := reads
  have hupdate : update = fun _ => db := funext fun r => or_self_iff.1 (h.update r)
  have hdelete : delete = fun _ => db := funext fun r => or_self_iff.1 (h.delete r)
  have hlate : late = fun _ => db := funext fun r => or_self_iff.1 (h.late r)
  rw [hupdate, hdelete, hlate]
  rfl

/-- The second request goes through after the first with the same outcome, if it decides by what the
first left. -/
theorem second_same {reads : EditReads} {b : SaleEditRequest} {db₂ : Db}
    (hissued : ∀ r, SameIssued (reads.delete r) db) (hcurrent : b.Current cat saleId reads db)
    (h : b.exec cat saleId reads db = .ok db₂) :
    ∃ db₂', b.alone cat saleId db = .ok db₂' ∧ SameOutcome saleId db₂ db₂' := by
  cases b with
  | update ctx data => exact update_same hcurrent h
  | delete ctx => exact delete_same cat hissued hcurrent h

/-- The second request goes through if it would before the first and after it. -/
theorem second_both {reads : EditReads} {b : SaleEditRequest} {db₁ : Db}
    (hreads : reads.Among db db₁) (hissued : ∀ r, SameIssued (reads.delete r) db₁)
    (h₁ : ∃ db₂, b.alone cat saleId db₁ = .ok db₂) (h : ∃ db₂, b.alone cat saleId db = .ok db₂) :
    ∃ db₂, b.exec cat saleId reads db₁ = .ok db₂ := by
  cases b with
  | update ctx data => exact update_both hreads.update h h₁
  | delete ctx => exact delete_both hreads.delete hissued h h₁

end Pair

/-! ## Two edits that mark a sale as pending -/

/-- A paid haircut of fifty to a customer with fifty points, which gives fifty more. -/
def haircutForPoints : Option Db :=
  (service oneProduct).run (oneCustomer 50) [.createSale (owner 0) (haircutSale (some 1) 50)]

def markPending : SaleEditRequest :=
  .update (owner 1) { SalePatch.none with paymentStatus := some .pending }

/-- What the customer has left. -/
def Db.pointsLeft (db : Db) : Option ℤ := (db.customers.get? 1).map (·.loyaltyPoints)

/-- The second checks before the first commits, and reads the sale after it. -/
def readAfter (db db₁ : Db) : EditReads where
  update r := if r = .before then db else db₁
  delete _ := db₁
  late _ := db₁

end Barbershop
