import Barbershop.Cash.Session
import Barbershop.Lib.Machine
import Barbershop.Package.Session
import Barbershop.Sale.Refund

/-!
# The service, one request after the other

Every modelled request as an action of one machine on the database. Here each request is atomic: all
its reads see the state it commits in. The requests whose interleavings matter are taken apart again
in the modules on the laws they could break.
-/

namespace Barbershop

open Lib

inductive Request where
  | createSale (ctx : Caller) (data : SaleInput)
  | updateSale (ctx : Caller) (saleId : ℕ) (data : SalePatch)
  | deleteSale (ctx : Caller) (saleId : ℕ)
  | refundIssuedRemainder (ctx : Caller) (saleId : ℕ)
  | createGiftCard (ctx : Caller) (data : GiftCardInput)
  | setGiftCardActive (networkId giftCardId : ℕ) (isActive : Bool)
  | purchaseClientPackage (ctx : Caller) (customerId : ℕ) (pkg : ServicePackage)
      (paymentMethod : Option PaymentMethod)
  | debitClientPackageSession (ctx : Caller) (clientPackageId : ℕ)
  | undoClientPackageUse (ctx : Caller) (useId : ℕ)
  | adjustInventory (ctx : Caller) (data : InventoryInput)
  | openCashSession (ctx : Caller) (openingBalance : ℚ)
  | closeCashSession (ctx : Caller) (countedBalance : ℚ)
  | createExpense (ctx : Caller) (today : ℤ) (data : ExpenseInput)
  | setAppointmentDepositPaid (ctx : Caller) (appointmentId : ℕ) (depositPaid : Bool)
      (paymentMethod : Option PaymentMethod)
  | markNoShowFeeCollected (ctx : Caller) (feeId : ℕ) (paymentMethod : Option PaymentMethod)

def Request.exec (cat : Catalog) (r : Request) (db : Db) : Result Db :=
  match r with
  | .createSale ctx data => Barbershop.createSale cat ctx data (fun _ => db) db
  | .updateSale ctx saleId data => Barbershop.updateSale cat ctx saleId data (fun _ => db) db
  | .deleteSale ctx saleId => Barbershop.deleteSale ctx saleId (fun _ => db) db
  | .refundIssuedRemainder ctx saleId =>
    Barbershop.refundIssuedRemainder ctx saleId (fun _ => db) db
  | .createGiftCard ctx data => Barbershop.createGiftCard ctx data db
  | .setGiftCardActive networkId giftCardId isActive =>
    Barbershop.setGiftCardActive networkId giftCardId isActive db
  | .purchaseClientPackage ctx customerId pkg method =>
    Barbershop.purchaseClientPackage ctx customerId pkg method db
  | .debitClientPackageSession ctx id => Barbershop.debitClientPackageSession ctx id db
  | .undoClientPackageUse ctx useId => Barbershop.undoClientPackageUse ctx useId db
  | .adjustInventory ctx data =>
    let r := Barbershop.adjustInventory cat ctx data db
    r.1.map fun _ => r.2
  | .openCashSession ctx openingBalance => Barbershop.openCashSession ctx openingBalance db
  | .closeCashSession ctx counted => Barbershop.closeCashSession ctx counted (fun _ => db) db
  | .createExpense ctx today data => Barbershop.createExpense ctx today data db db
  | .setAppointmentDepositPaid ctx id paid method =>
    Barbershop.setAppointmentDepositPaid ctx id paid method (fun _ => db) db
  | .markNoShowFeeCollected ctx feeId method =>
    Barbershop.markNoShowFeeCollected ctx feeId method db db

/-- The service as a machine. -/
def service (cat : Catalog) : Machine Db Request where
  step db r := (r.exec cat db).toOption

theorem service_step {cat : Catalog} {db db' : Db} {r : Request} :
    (service cat).step db r = some db' ↔ r.exec cat db = .ok db' :=
  toOption_eq_some

/-! ## Requests beside the sales -/

/-- The requests that neither create, edit, delete or refund a sale of the staff nor adjust the
stock. -/
def Request.plain : Request → Bool
  | .createSale .. | .updateSale .. | .deleteSale .. | .refundIssuedRemainder .. => false
  | .adjustInventory .. => false
  | _ => true

/-- A sale that moves no points, uses no gift card and sells no product. -/
structure Sale.Standalone (s : Sale) : Prop where
  earned : s.loyaltyPointsEarned = none
  redeemed : s.loyaltyPointsRedeemed = none
  card : s.giftCardId = none
  products : ∀ i ∈ s.items, i.productId = none

/-- The plain requests that write gift cards. -/
def Request.writesCards : Request → Bool
  | .createGiftCard .. | .setGiftCardActive .. => true
  | _ => false

/-- What a plain request leaves alone: customers, referrals, stock, the sales up to one new sale,
and the gift cards unless they are what it is about. -/
structure PlainFrame (r : Request) (db db' : Db) : Prop where
  customers : db'.customers = db.customers
  referrals : db'.referrals = db.referrals
  stock : db'.stock = db.stock
  sales : db'.sales = db.sales ∨ ∃ s, s.Standalone ∧ db'.sales = db.sales.insert s
  giftCards : r.writesCards = false → db'.giftCards = db.giftCards

theorem standaloneSale_standalone (ctx : Caller) (openSession customerId : Option ℕ)
    (saleType : SaleType) {itemType : ItemType} (amount : ℚ) (notes : String)
    (method : Option PaymentMethod) :
    (standaloneSale ctx openSession customerId saleType itemType amount notes method).Standalone where
  earned := rfl
  redeemed := rfl
  card := rfl
  products := by simp [standaloneSale]

theorem plain_frame {cat : Catalog} {r : Request} {db db' : Db} (hr : r.plain = true)
    (h : r.exec cat db = .ok db') : PlainFrame r db db' := by
  cases r with
  | createSale | updateSale | deleteSale | refundIssuedRemainder | adjustInventory => cases hr
  | createGiftCard ctx data =>
    obtain ⟨-, rfl⟩ := createGiftCard_ok h
    exact ⟨rfl, rfl, rfl, .inr ⟨_, standaloneSale_standalone .., rfl⟩, fun hw => by cases hw⟩
  | setGiftCardActive networkId giftCardId isActive =>
    obtain rfl := setGiftCardActive_ok h
    exact ⟨rfl, rfl, rfl, .inl rfl, fun hw => by cases hw⟩
  | purchaseClientPackage ctx customerId pkg method =>
    obtain rfl := purchaseClientPackage_ok h
    exact ⟨rfl, rfl, rfl, .inr ⟨_, standaloneSale_standalone .., rfl⟩, fun _ => rfl⟩
  | debitClientPackageSession ctx id =>
    obtain ⟨db₁, h₁, rfl⟩ := map_eq_ok.1 h
    obtain ⟨packages, -, rfl⟩ := startDebit_ok h₁
    exact ⟨rfl, rfl, rfl, .inl rfl, fun _ => rfl⟩
  | undoClientPackageUse ctx useId =>
    obtain ⟨db₁, h₁, rfl⟩ := map_eq_ok.1 h
    obtain ⟨use, packages, -, -, rfl⟩ := startUndo_ok h₁
    exact ⟨rfl, rfl, rfl, .inl rfl, fun _ => rfl⟩
  | openCashSession ctx openingBalance =>
    obtain ⟨-, rfl⟩ := openCashSession_ok h
    exact ⟨rfl, rfl, rfl, .inl rfl, fun _ => rfl⟩
  | closeCashSession ctx counted =>
    have hclose : Barbershop.closeCashSession ctx counted (fun _ => db) db = .ok db' := h
    obtain ⟨id, session, now, -, -, -, -, -, rfl⟩ := closeCashSession_ok hclose
    exact ⟨rfl, rfl, rfl, .inl rfl, fun _ => rfl⟩
  | createExpense ctx today data =>
    obtain rfl := createExpense_ok h
    exact ⟨rfl, rfl, rfl, .inl rfl, fun _ => rfl⟩
  | setAppointmentDepositPaid ctx id paid method =>
    have hset : Barbershop.setAppointmentDepositPaid ctx id paid method (fun _ => db) db =
      .ok db' := h
    rcases setAppointmentDepositPaid_ok hset with
      ⟨rfl, -⟩ | ⟨a, receipt, -, -, -, -, rfl⟩ | ⟨a, -, -, -, -, rfl⟩
    all_goals exact ⟨rfl, rfl, rfl, .inl rfl, fun _ => rfl⟩
  | markNoShowFeeCollected ctx feeId method =>
    obtain ⟨fee, method, fees, -, rfl⟩ := markNoShowFeeCollected_ok h
    exact ⟨rfl, rfl, rfl, .inr ⟨_, ⟨rfl, rfl, rfl, by simp [noShowSale]⟩, rfl⟩, fun _ => rfl⟩

/-! ## A unit to run it on -/

/-- A unit whose network gives one point for each unit of money and takes it back at the same
value. -/
def corner : Shop where
  id := 1
  networkId := 1
  currency := "BRL"
  networkCurrency := "BRL"
  moneyCap := 100000
  network := {
    loyaltyEnabled := true
    loyaltyPointsPerCurrencyUnit := some 1
    loyaltyPointValue := some 1
    referralBonusPoints := 0 }
  modules _ := true
  soloProductSaleAllowed _ _ := true

/-- The owner of the unit, at an instant. -/
def owner (now : ℤ) : Caller where
  shop := corner
  userId := 1
  accessLevel := .owner
  ownBarberId := none
  now := now

/-- A catalog with one product. -/
def oneProduct : Catalog where
  services _ := none
  products p := if p = 1 then some { barbershopId := 1, isActive := true, unit := "UNIT" } else none
  serviceHistories _ := none
  barbers := .empty

/-- One service line of a sale. -/
def haircut (price : ℚ) : SaleItem where
  itemType := .service
  serviceId := none
  productId := none
  serviceHistoryId := none
  quantity := 1
  unitPrice := price
  totalPrice := price
  notes := none

/-- A paid haircut. -/
def haircutSale (customerId : Option ℕ) (price : ℚ) : SaleInput where
  customerId := customerId
  barberId := none
  appointmentId := none
  saleType := .service
  items := [haircut price]
  subtotal := price
  discountAmount := none
  taxAmount := none
  total := price
  paymentStatus := some .paid
  paymentMethod := some .cash
  giftCardCode := none
  loyaltyPointsRedeemed := none
  clientSubscriptionId := none
  clientPackageId := none

/-- Two sessions for a hundred. -/
def twoSessions : ServicePackage where
  serviceId := 1
  price := 100
  totalSessions := 2
  pos := by decide
  expiresAt := none
  isActive := true
  serviceActive := true

/-- A database with one customer, who has so many points. -/
def oneCustomer (points : ℤ) : Db :=
  { Db.empty with
    customers := Table.empty.insert
      { networkId := 1, loyaltyPoints := points, clientAccountId := none, deletedAt := none } }

end Barbershop
