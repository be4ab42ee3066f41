import Barbershop.Model.Db

/-!
# What a sale request is checked against

The pure checks of `createSale` and `updateSale`: amounts, kinds, the consistency of the amounts
with each other, and the two comparisons that lock an edit (`saleMoneyChanged` for a sale of a
closed cash session, `issuedSaleValueChanged` for a sale that issued a package or a gift card).
-/

namespace Barbershop

open Lib

/-- An optional input field that may also be sent as `null`. -/
inductive Patch (α : Type) where
  | absent
  | null
  | value (a : α)
  deriving DecidableEq

namespace Patch

variable {α : Type}

/-- `data.x !== undefined ? data.x : current` -/
def or (p : Patch α) (current : Option α) : Option α :=
  match p with
  | .absent => current
  | .null => none
  | .value a => some a

/-- The value, when it is truthy. -/
def value? : Patch α → Option α
  | .value a => some a
  | _ => none

end Patch

/-- The input of `createSale`. -/
structure SaleInput where
  customerId : Option ℕ
  barberId : Option ℕ
  appointmentId : Option ℕ
  saleType : SaleType
  items : List SaleItem
  subtotal : ℚ
  discountAmount : Option ℚ
  taxAmount : Option ℚ
  total : ℚ
  paymentStatus : Option PaymentStatus
  paymentMethod : Option PaymentMethod
  giftCardCode : Option String
  loyaltyPointsRedeemed : Option ℤ
  clientSubscriptionId : Option ℕ
  clientPackageId : Option ℕ

/-- The input of `updateSale`: what is absent stays. -/
structure SalePatch where
  customerId : Patch ℕ
  barberId : Patch ℕ
  saleType : Option SaleType
  items : Option (List SaleItem)
  subtotal : Option ℚ
  discountAmount : Option ℚ
  taxAmount : Option ℚ
  total : Option ℚ
  paymentStatus : Option PaymentStatus
  paymentMethod : Patch PaymentMethod

/-- An edit that sends nothing. -/
def SalePatch.none : SalePatch where
  customerId := .absent
  barberId := .absent
  saleType := Option.none
  items := Option.none
  subtotal := Option.none
  discountAmount := Option.none
  taxAmount := Option.none
  total := Option.none
  paymentStatus := Option.none
  paymentMethod := .absent

def checkMoney (label : String) (value : Option ℚ) (cap : ℚ) : Result Unit :=
  refuseIf (∃ v ∈ value, v < 0 ∨ cap < v) (.badRequest (label ++ " inválido"))

def checkItemAmounts (cap : ℚ) : List SaleItem → Result Unit
  | [] => pure ()
  | item :: items => do
    refuseIf (item.quantity < 1 ∨ 1000 < item.quantity) (.badRequest "Quantidade inválida")
    checkMoney "Preço" item.unitPrice cap
    checkMoney "Preço" item.totalPrice cap
    checkItemAmounts cap items

def checkSaleAmounts (subtotal discountAmount taxAmount total : Option ℚ)
    (loyaltyPointsRedeemed : Option ℤ) (items : List SaleItem) (cap : ℚ) : Result Unit := do
  checkMoney "Subtotal" subtotal cap
  checkMoney "Desconto" discountAmount cap
  checkMoney "Imposto" taxAmount cap
  checkMoney "Total" total cap
  refuseIf (∃ p ∈ loyaltyPointsRedeemed, p < 0) (.badRequest "Pontos inválidos")
  checkItemAmounts cap items

/-- The two amounts differ by more than the tolerance. -/
def off (a b : ℚ) : Prop := MONEY_TOLERANCE < |a - b|

instance (a b : ℚ) : Decidable (off a b) := by unfold off; infer_instance

def itemsTotal (items : List SaleItem) : ℚ := (items.map (·.totalPrice)).sum

def checkSaleConsistency (items : List SaleItem) (subtotal discountAmount taxAmount total : ℚ) :
    Result Unit := do
  refuseIf (∃ item ∈ items, off item.totalPrice (item.quantity * item.unitPrice))
    (.badRequest "O valor de um item não bate com quantidade × preço")
  refuseIf (off subtotal (itemsTotal items))
    (.badRequest "O subtotal não bate com a soma dos itens")
  refuseIf (off total (max 0 (subtotal - discountAmount + taxAmount)))
    (.badRequest "O total não bate com subtotal − desconto + imposto")

/-! ## Kinds -/

/-- `STAFF_SALE_TYPES` -/
def SaleType.staff : SaleType → Bool
  | .service | .product | .mixed => true
  | _ => false

/-- `STAFF_SALE_ITEM_TYPES` -/
def ItemType.staff : ItemType → Bool
  | .service | .product => true
  | _ => false

/-- `STAFF_PAYMENT_STATUSES` -/
def PaymentStatus.staff : PaymentStatus → Bool
  | .pending | .paid => true
  | _ => false

/-- `SALE_PAYMENT_METHODS` -/
def PaymentMethod.known : PaymentMethod → Bool
  | .unknown _ => false
  | _ => true

/-- `checkSaleKinds`: `existing` is the edited sale's type, status and method; without it, the sale
is new. -/
def checkSaleKinds (saleType : Option SaleType) (items : Option (List SaleItem))
    (paymentStatus : Option PaymentStatus) (paymentMethod : Option PaymentMethod)
    (existing : Option (SaleType × PaymentStatus × Option PaymentMethod)) : Result Unit := do
  let lockedType := existing.any fun e => !e.1.staff
  refuseIf (∃ t ∈ saleType, some t ≠ existing.map (·.1) ∧ lockedType = true)
    (.badRequest "O tipo e os itens desta venda não mudam. Apague e lance de novo.")
  refuseIf (∃ t ∈ saleType, some t ≠ existing.map (·.1) ∧ t.staff = false)
    (.badRequest "Tipo de venda inválido")
  refuseIf (items.isSome ∧ lockedType = true)
    (.badRequest "O tipo e os itens desta venda não mudam. Apague e lance de novo.")
  refuseIf (∃ is ∈ items, ∃ i ∈ is, i.itemType.staff = false)
    (.badRequest "Tipo de item inválido")
  refuseIf (∃ s ∈ paymentStatus, some s ≠ existing.map (·.2.1) ∧ s.staff = false)
    (.badRequest "Situação de pagamento inválida")
  refuseIf (∃ m ∈ paymentMethod, some m ≠ existing.bind (·.2.2) ∧ m.known = false)
    (.badRequest "Forma de pagamento inválida")

/-! ## Locks on edits -/

/-- The item totals of a sale, each rounded to the cent. -/
def itemCents (items : List SaleItem) : ℤ := (items.map fun i => cents i.totalPrice).sum

/-- Does the edit touch what the cash count counted: status, method, items, discount or tax? -/
def saleMoneyChanged (existing : Sale) (data : SalePatch) : Bool :=
  (data.paymentStatus.any fun s => s != existing.paymentStatus) ||
  (data.paymentMethod != .absent && data.paymentMethod.value? != existing.paymentMethod) ||
  (data.discountAmount.any fun d => cents d != cents existing.discountAmount) ||
  (data.taxAmount.any fun t => cents t != cents existing.taxAmount) ||
  (data.items.any fun is => itemCents is != itemCents existing.items)

/-- Does the edit change the value of a sale that issued a package or a gift card? -/
def issuedSaleValueChanged (existing : Sale) (data : SalePatch) : Bool :=
  (data.saleType.any fun t => t != existing.saleType) ||
  (data.subtotal.any fun s => cents s != cents existing.subtotal) ||
  (data.discountAmount.any fun d => cents d != cents existing.discountAmount) ||
  (data.taxAmount.any fun t => cents t != cents existing.taxAmount) ||
  (data.total.any fun t => cents t != cents existing.total) ||
  (data.items.any fun is => itemCents is != itemCents existing.items)

/-! ## Units of product -/

/-- `productUnits` -/
def productUnits (items : List SaleItem) : ℤ :=
  (items.map fun i =>
    if i.itemType = .product ∨ i.productId.isSome then max 0 i.quantity else 0).sum

/-- What an item takes from the stock of product `p`. -/
def SaleItem.productQuantity (p : ℕ) (i : SaleItem) : ℤ :=
  if i.itemType = .product ∧ i.productId = some p then i.quantity else 0

/-- `productQuantities(items).get(p) ?? 0` -/
def productQuantity (items : List SaleItem) (p : ℕ) : ℤ :=
  (items.map (SaleItem.productQuantity p)).sum

/-- The keys of `productQuantities(items)`, in order of first appearance. -/
def productIds (items : List SaleItem) : List ℕ :=
  (items.filterMap fun i => if i.itemType = .product then i.productId else none).eraseDups

@[simp] theorem productQuantity_nil (p : ℕ) : productQuantity [] p = 0 := rfl

@[simp] theorem productQuantity_cons (i : SaleItem) (items : List SaleItem) (p : ℕ) :
    productQuantity (i :: items) p = i.productQuantity p + productQuantity items p := rfl

/-- Only the products among the keys have a quantity. -/
theorem productQuantity_eq_zero {items : List SaleItem} {p : ℕ} (h : p ∉ productIds items) :
    productQuantity items p = 0 := by
  induction items with
  | nil => rfl
  | cons i items ih =>
    have hi : ¬(i.itemType = .product ∧ i.productId = some p) := fun ⟨h₁, h₂⟩ =>
      h (by simp [productIds, h₁, h₂])
    have hp : p ∉ productIds items := fun hm => by
      apply h
      simp only [productIds, List.mem_eraseDups, List.mem_filterMap] at hm ⊢
      obtain ⟨j, hj, e⟩ := hm
      exact ⟨j, List.mem_cons_of_mem _ hj, e⟩
    simp [SaleItem.productQuantity, hi, ih hp]

end Barbershop
