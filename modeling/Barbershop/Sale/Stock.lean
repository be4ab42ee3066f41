import Barbershop.Sale.Checks
import Barbershop.Lib.Lists

/-!
# Stock

`moveStock` changes the quantity of one product of a unit and creates the inventory row when there
is none. A sale takes stock item by item when it is created (`sellItems`), by the difference of the
quantities when its items are edited (`applySaleStockDelta`), and gives back every movement it made
when it is deleted (`returnStock`). `adjustInventory` is the manual entry.
-/

namespace Barbershop

open Lib

/-- The two tables a stock movement writes. -/
structure Stock where
  inventory : ℕ → ℕ → Option InventoryItem
  movements : List InventoryMovement

def Db.stock (db : Db) : Stock := ⟨db.inventory, db.movements⟩

namespace Stock

/-- The quantity on hand; a product without an inventory row has none. -/
def quantity (st : Stock) (shop product : ℕ) : ℚ :=
  ((st.inventory shop product).map (·.quantity)).getD 0

def setItem (st : Stock) (shop product : ℕ) (item : InventoryItem) : Stock :=
  { st with
    inventory := fun s p => if s = shop ∧ p = product then some item else st.inventory s p }

/-- `upsert`: the row with `change` added to its quantity, or a new row holding `change`. -/
def moveStock (st : Stock) (shop product : ℕ) (unit : String) (change : ℚ) : Stock :=
  st.setItem shop product
    { quantity := st.quantity shop product + change
      unit := unit
      lastCountedAt := (st.inventory shop product).bind (·.lastCountedAt) }

def addMovement (st : Stock) (m : InventoryMovement) : Stock :=
  { st with movements := st.movements ++ [m] }

/-- A movement of `change` in the stock of one product, with its movement row. -/
def move (st : Stock) (shop product : ℕ) (unit : String) (change : ℚ)
    (movementType : MovementType) (referenceType : ReferenceType) (referenceId : Option ℕ) :
    Stock :=
  (st.moveStock shop product unit change).addMovement
    { barbershopId := shop
      productId := product
      movementType := movementType
      quantityChange := change
      quantityBefore := st.quantity shop product
      quantityAfter := st.quantity shop product + change
      referenceType := referenceType
      referenceId := referenceId }

end Stock

theorem quantity_setItem (st : Stock) (shop product : ℕ) (item : InventoryItem) (s p : ℕ) :
    (st.setItem shop product item).quantity s p =
      if s = shop ∧ p = product then item.quantity else st.quantity s p := by
  unfold Stock.setItem Stock.quantity
  dsimp only
  split <;> rfl

/-- The stock movement of a sale: it takes `quantity` of a product, if the product is known. -/
def sellProduct (cat : Catalog) (shop saleId : ℕ) (st : Stock) (productId : ℕ) (quantity : ℤ) :
    Stock :=
  match cat.products productId with
  | none => st
  | some product =>
    st.move shop productId product.unit (-quantity) .sale .sale (some saleId)

/-- The stock a new sale takes, one movement for each product line. -/
def sellItems (cat : Catalog) (shop saleId : ℕ) (items : List SaleItem) (st : Stock) : Stock :=
  items.foldl (fun st item =>
    if item.itemType = .product then
      match item.productId with
      | none => st
      | some p => sellProduct cat shop saleId st p item.quantity
    else st) st

/-- The stock an edit moves: for each product of the old or the new items, the difference. -/
def applySaleStockDelta (cat : Catalog) (shop saleId : ℕ) (before after : List SaleItem)
    (st : Stock) : Stock :=
  (productIds before ++ productIds after).eraseDups.foldl (fun st p =>
    let deltaSold := productQuantity after p - productQuantity before p
    if deltaSold = 0 then st else sellProduct cat shop saleId st p deltaSold) st

/-- Is it a movement the sale made? -/
def InventoryMovement.ofSale (saleId : ℕ) (m : InventoryMovement) : Bool :=
  m.referenceType == .sale && m.referenceId == some saleId && m.movementType == .sale

/-- The stock a deleted sale gives back: every movement of the sale, reversed. -/
def returnStock (saleId : ℕ) (st : Stock) : Stock :=
  (st.movements.filter (·.ofSale saleId)).foldl (fun st m =>
    st.move m.barbershopId m.productId
      (((st.inventory m.barbershopId m.productId).map (·.unit)).getD "UNIT")
      (-m.quantityChange) .adjustment .saleDeleted (some saleId)) st

/-! ## Manual entries -/

/-- `STOCK_MOVEMENTS` -/
def MovementType.manual : MovementType → Bool
  | .purchase | .adjustment | .loss => true
  | _ => false

def assertStockSign (movementType : MovementType) (change : ℚ) : Result Unit := do
  refuseIf (movementType = .purchase ∧ ¬0 < change) (.badRequest "A compra aumenta o estoque.")
  refuseIf (movementType = .loss ∧ ¬change < 0) (.badRequest "A perda diminui o estoque.")

structure InventoryInput where
  productId : ℕ
  quantityChange : Option ℚ
  countedQuantity : Option ℚ
  movementType : Option MovementType

/-- The change a manual entry asks for: the difference to the count, or the change it gives. -/
def InventoryInput.change (data : InventoryInput) (current : ℚ) : ℚ :=
  match data.countedQuantity with
  | some counted => counted - current
  | none => data.quantityChange.getD 0

def InventoryInput.movement (data : InventoryInput) : MovementType :=
  if data.countedQuantity.isSome then .adjustment else data.movementType.getD .adjustment

/-- Marks the count on an inventory row, creating an empty row when there is none. -/
def markCounted (st : Stock) (shop product : ℕ) (unit : String) (countedAt : ℤ) : Stock :=
  st.setItem shop product
    { quantity := st.quantity shop product
      unit := ((st.inventory shop product).map (·.unit)).getD unit
      lastCountedAt := some countedAt }

/-- The checks of `adjustInventory` before its transaction, and the product they found. -/
def checkAdjust (cat : Catalog) (ctx : Caller) (data : InventoryInput) : Result CatalogItem := do
  ctx.ensureBarbershopAccess .manager
  ctx.ensureModuleAccess .inventory
  refuseIf (∃ m ∈ data.movementType, m.manual = false)
    (.badRequest "Tipo de movimentação de estoque inválido.")
  refuseIf (∃ c ∈ data.countedQuantity, c < 0)
    (.badRequest "Informe uma quantidade diferente de zero.")
  refuseIf (data.countedQuantity = none ∧ data.quantityChange.getD 0 = 0)
    (.badRequest "Informe uma quantidade diferente de zero.")
  orRefuse ((cat.products data.productId).filter (·.barbershopId == ctx.shop.id))
    (.notFound "Produto não encontrado nesta unidade")

/-- The body of the transaction. The stock is moved first and looked at afterwards: a refusal leaves
the movement to the rollback. -/
def adjustStock (ctx : Caller) (unit : String) (data : InventoryInput) (st : Stock) :
    Except Refusal Unit × Stock :=
  let shop := ctx.shop.id
  let product := data.productId
  let change := data.change (st.quantity shop product)
  match assertStockSign data.movement change with
  | .error e => (.error e, st)
  | .ok () =>
    if change = 0 then (.ok (), markCounted st shop product unit ctx.now)
    else
      let st := st.moveStock shop product unit change
      let quantityAfter := st.quantity shop product
      if quantityAfter < 0 then (.error (.badRequest "Estoque não pode ficar negativo"), st)
      else
        let st := st.addMovement
          { barbershopId := shop
            productId := product
            movementType := data.movement
            quantityChange := change
            quantityBefore := quantityAfter - change
            quantityAfter := quantityAfter
            referenceType := .manual
            referenceId := none }
        (.ok (), if data.countedQuantity.isSome then markCounted st shop product unit ctx.now else st)

/-- An entry that succeeds confirms a count, or moves the stock to a quantity that is not negative. -/
theorem adjustStock_ok {ctx : Caller} {unit : String} {data : InventoryInput} {st : Stock}
    (h : (adjustStock ctx unit data st).1 = .ok ()) :
    let shop := ctx.shop.id
    let change := data.change (st.quantity shop data.productId)
    let moved := st.move shop data.productId unit change data.movement .manual none
    (change = 0 ∧ (adjustStock ctx unit data st).2 =
      markCounted st shop data.productId unit ctx.now) ∨
    0 ≤ moved.quantity shop data.productId ∧ (adjustStock ctx unit data st).2 =
      if data.countedQuantity.isSome then markCounted moved shop data.productId unit ctx.now
      else moved := by
  intro shop change moved
  have hq : (st.moveStock shop data.productId unit change).quantity shop data.productId =
      st.quantity shop data.productId + change := by
    simp [Stock.moveStock, quantity_setItem]
  unfold adjustStock at h ⊢
  cases hsign : assertStockSign data.movement (data.change (st.quantity ctx.shop.id data.productId))
    with
  | error e =>
    simp only [hsign] at h
    cases h
  | ok u =>
    simp only [hsign] at h ⊢
    split at h
    · next hzero => exact .inl ⟨hzero, by rw [if_pos hzero]⟩
    · next hchange =>
      rw [if_neg hchange]
      split at h
      · cases h
      · next hneg =>
        rw [if_neg hneg]
        refine .inr ⟨not_lt.1 hneg, ?_⟩
        change (if data.countedQuantity.isSome then markCounted (Stock.addMovement _ _) _ _ _ _
          else Stock.addMovement _ _) = _
        rw [hq, add_sub_cancel_right]
        rfl

/-- The answer of `adjustInventory` and the database it leaves, also when it refuses. -/
def adjustInventory (cat : Catalog) (ctx : Caller) (data : InventoryInput) (db : Db) :
    Except Refusal Unit × Db :=
  match checkAdjust cat ctx data with
  | .error e => (.error e, db)
  | .ok product =>
    let r := transaction (adjustStock ctx product.unit data) db.stock
    (r.1, { db with inventory := r.2.inventory, movements := r.2.movements })

/-- A manual entry writes the two stock tables only. -/
theorem adjustInventory_frame (cat : Catalog) (ctx : Caller) (data : InventoryInput) (db : Db) :
    ∃ st : Stock, (adjustInventory cat ctx data db).2 =
      { db with inventory := st.inventory, movements := st.movements } := by
  unfold adjustInventory
  split
  · exact ⟨db.stock, rfl⟩
  · exact ⟨_, rfl⟩

end Barbershop
