import Barbershop.Lib.Table
import Barbershop.Lib.Guard
import Barbershop.Core.Money

/-!
# The database the service writes

One record for each table the modelled requests read or write, with the columns they use, under the
names of the schema. Amounts and stock quantities are decimals (`ℚ`), instants are milliseconds
(`ℤ`), keys are autoincrement (`Lib.Table`). The items of a sale are stored with it: the item table
has one owner per row and cascades with it.

`Catalog` is what no modelled request writes (services, products, staff), `Caller` is what the
access check hands to a request: the unit with the money rules of its network and the caller's role.
-/

namespace Barbershop

open Lib

/-- The HTTP exceptions a request ends with, with the message the source gives. -/
inductive Refusal where
  | badRequest (message : String)
  | notFound (message : String)
  | forbidden (message : String)
  deriving DecidableEq, Repr

abbrev Result := Except Refusal

/-! ## Enumerations -/

inductive SaleType where
  | service | product | mixed | package | giftCard | noShowFee | refund
  | other (name : String)
  deriving DecidableEq, Repr

inductive PaymentStatus where
  | pending | paid | refunded | partlyPaid
  | other (name : String)
  deriving DecidableEq, Repr

inductive PaymentMethod where
  | cash | card | creditCard | debitCard | pix | transfer | other
  | unknown (name : String)
  deriving DecidableEq, Repr

inductive ItemType where
  | service | product | package | giftCard
  | other (name : String)
  deriving DecidableEq, Repr

inductive PackageStatus where
  | active | completed | cancelled
  deriving DecidableEq, Repr

inductive SubscriptionStatus where
  | active | pastDue | canceled | other
  deriving DecidableEq, Repr

inductive FeeStatus where
  | pending | collected | waived
  deriving DecidableEq, Repr

inductive SessionStatus where
  | opened | closed
  deriving DecidableEq, Repr

inductive MovementType where
  | purchase | sale | adjustment | loss | transfer
  deriving DecidableEq, Repr

inductive ReferenceType where
  | sale | manual | saleDeleted
  deriving DecidableEq, Repr

inductive AppointmentStatus where
  | draft | confirmed | inProgress | completed | cancelled | noShow | pendingPayment
  | other (name : String)
  deriving DecidableEq, Repr

inductive AppointmentSource where
  | phone | online | history
  | other (name : String)
  deriving DecidableEq, Repr

/-- The roles of `accessLevelOf`, weakest first. -/
inductive AccessLevel where
  | basic | barber | reception | manager | owner
  deriving DecidableEq, Repr

/-- `ACCESS_RANK` -/
def AccessLevel.rank : AccessLevel → ℕ
  | .basic => 0
  | .barber => 1
  | .reception => 2
  | .manager => 3
  | .owner => 4

/-! ## Rows -/

structure Customer where
  networkId : ℕ
  loyaltyPoints : ℤ
  clientAccountId : Option ℕ
  deletedAt : Option ℤ

structure CustomerReferral where
  networkId : ℕ
  referrerId : ℕ
  referredId : ℕ
  pointsAwarded : Option ℕ
  completedAt : Option ℤ
  saleId : Option ℕ

/-- What the service writes in an item's notes: free text, or the sale whose remainder a refund
gives back. -/
inductive Note where
  | text (s : String)
  | remainderOf (saleId : ℕ)
  deriving DecidableEq, Repr

structure SaleItem where
  itemType : ItemType
  serviceId : Option ℕ
  productId : Option ℕ
  serviceHistoryId : Option ℕ
  quantity : ℤ
  unitPrice : ℚ
  totalPrice : ℚ
  notes : Option Note
  deriving DecidableEq

structure Sale where
  createdAt : ℤ
  barbershopId : ℕ
  customerId : Option ℕ
  barberId : Option ℕ
  appointmentId : Option ℕ
  cashSessionId : Option ℕ
  saleType : SaleType
  subtotal : ℚ
  discountAmount : ℚ
  taxAmount : ℚ
  total : ℚ
  paymentStatus : PaymentStatus
  paymentMethod : Option PaymentMethod
  paidAt : Option ℤ
  giftCardId : Option ℕ
  giftCardAmountApplied : Option ℚ
  loyaltyPointsEarned : Option ℤ
  loyaltyPointsRedeemed : Option ℤ
  loyaltyDiscountAmount : Option ℚ
  depositApplied : Option ℚ
  prepaidApplied : Option ℚ
  clientSubscriptionId : Option ℕ
  items : List SaleItem
  deriving DecidableEq

structure GiftCard where
  networkId : ℕ
  code : String
  initialValue : ℚ
  remainingValue : ℚ
  isActive : Bool
  expiresAt : Option ℤ
  currency : Option String
  saleId : Option ℕ
  deriving DecidableEq

structure ClientPackage where
  barbershopId : ℕ
  customerId : ℕ
  /-- The service of the offer the package was bought from. -/
  serviceId : ℕ
  totalSessions : ℕ
  usedSessions : ℕ
  status : PackageStatus
  saleId : Option ℕ
  expiresAt : Option ℤ
  remainderRefundedAt : Option ℤ
  deriving DecidableEq

structure ClientPackageUse where
  clientPackageId : ℕ
  appointmentId : Option ℕ
  saleId : Option ℕ
  usedByUserId : ℕ
  undoneAt : Option ℤ
  undoneByUserId : Option ℕ
  deriving DecidableEq

/-- A customer's club membership, with the service of its plan. -/
structure ClientSubscription where
  barbershopId : ℕ
  clientAccountId : ℕ
  serviceId : ℕ
  sessionsPerCycle : Option ℕ
  usedThisCycle : ℕ
  status : SubscriptionStatus
  currentPeriodStart : Option ℤ

structure ClientSubscriptionUse where
  clientSubscriptionId : ℕ
  saleId : Option ℕ
  usedByUserId : ℕ
  periodStart : Option ℤ
  undoneAt : Option ℤ
  undoneByUserId : Option ℕ

structure NoShowFee where
  barbershopId : ℕ
  customerId : ℕ
  amount : ℚ
  status : FeeStatus
  collectedAt : Option ℤ
  saleId : Option ℕ

structure InventoryItem where
  quantity : ℚ
  unit : String
  lastCountedAt : Option ℤ

/-- A stock movement; `barbershopId` and `productId` are the key of its inventory item. -/
structure InventoryMovement where
  barbershopId : ℕ
  productId : ℕ
  movementType : MovementType
  quantityChange : ℚ
  quantityBefore : ℚ
  quantityAfter : ℚ
  referenceType : ReferenceType
  referenceId : Option ℕ
  deriving DecidableEq

structure CashSession where
  barbershopId : ℕ
  openingBalance : ℚ
  countedBalance : Option ℚ
  expectedBalance : Option ℚ
  difference : Option ℚ
  status : SessionStatus
  deriving DecidableEq

structure Expense where
  barbershopId : ℕ
  cashSessionId : Option ℕ
  amount : ℚ
  paymentMethod : Option PaymentMethod

/-- A chair-rent payment; `succeeded` is `status = 'SUCCEEDED'`. -/
structure ChairRentPayment where
  cashSessionId : Option ℕ
  method : PaymentMethod
  succeeded : Bool
  amount : ℚ

structure AppointmentTip where
  cashSessionId : Option ℕ
  method : PaymentMethod
  amount : ℚ

structure Appointment where
  barbershopId : ℕ
  customerId : ℕ
  barberId : ℕ
  resourceId : Option ℕ
  startAt : ℤ
  endAt : ℤ
  status : AppointmentStatus
  source : AppointmentSource
  holdExpiresAt : Option ℤ
  depositAmount : Option ℚ
  depositPaid : Bool
  depositPaidAt : Option ℤ
  depositRefundedAt : Option ℤ
  depositManualMethod : Option PaymentMethod
  depositReceivedAt : Option ℤ
  depositReceivedByUserId : Option ℕ
  depositCashSessionId : Option ℕ
  depositPaymentIntentId : Option String
  prepaidPaymentIntentId : Option String
  prepaidAt : Option ℤ
  prepaidAmount : Option ℚ
  prepaidRefundedAt : Option ℤ
  prepaidRefundedAmount : Option ℚ
  linkVersion : ℕ
  deriving DecidableEq

/-- The tables the modelled requests write. -/
structure Db where
  customers : Table Customer
  referrals : Table CustomerReferral
  sales : Table Sale
  giftCards : Table GiftCard
  packages : Table ClientPackage
  packageUses : Table ClientPackageUse
  subscriptions : Table ClientSubscription
  subscriptionUses : Table ClientSubscriptionUse
  noShowFees : Table NoShowFee
  /-- Unique on unit and product. -/
  inventory : ℕ → ℕ → Option InventoryItem
  movements : List InventoryMovement
  cashSessions : Table CashSession
  expenses : Table Expense
  rentPayments : Table ChairRentPayment
  tips : Table AppointmentTip
  appointments : Table Appointment

/-- The database of a platform that has not been used. -/
def Db.empty : Db where
  customers := .empty
  referrals := .empty
  sales := .empty
  giftCards := .empty
  packages := .empty
  packageUses := .empty
  subscriptions := .empty
  subscriptionUses := .empty
  noShowFees := .empty
  inventory _ _ := none
  movements := []
  cashSessions := .empty
  expenses := .empty
  rentPayments := .empty
  tips := .empty
  appointments := .empty

/-! ## What requests are given -/

/-- A service or product of a unit. -/
structure CatalogItem where
  barbershopId : ℕ
  isActive : Bool
  unit : String

structure Barber where
  barbershopId : ℕ
  userId : Option ℕ
  professionalId : Option ℕ
  /-- `BOOKABLE_STAFF`: marked as taking appointments, or unmarked and not at the reception. -/
  bookable : Bool
  isActive : Bool
  accessStartsAt : Option ℤ
  accessEndsAt : Option ℤ

structure Catalog where
  services : ℕ → Option CatalogItem
  products : ℕ → Option CatalogItem
  /-- The unit of each service history row. -/
  serviceHistories : ℕ → Option ℕ
  barbers : Table Barber

/-- The loyalty rules of a network, as `networkMoneyRules` leaves them for a unit. -/
structure Network where
  loyaltyEnabled : Bool
  loyaltyPointsPerCurrencyUnit : Option ℚ
  loyaltyPointValue : Option ℚ
  referralBonusPoints : ℕ

inductive Module where
  | products | packages | inventory | cashFlow
  deriving DecidableEq, Repr

/-- The unit as `ensureBarbershopAccess` returns it. -/
structure Shop where
  id : ℕ
  networkId : ℕ
  currency : String
  networkCurrency : String
  /-- `moneyCap(MAX_MONEY, currency)` -/
  moneyCap : ℚ
  network : Network
  /-- The modules of the owner's plan. -/
  modules : Module → Bool
  /-- `assertSoloProductSaleAllowed` for a sale made at an instant, adding so many units. -/
  soloProductSaleAllowed : ℤ → ℤ → Bool

/-- Who calls, on which unit, and when. -/
structure Caller where
  shop : Shop
  userId : ℕ
  accessLevel : AccessLevel
  /-- `ownBarberIdIfBarber`; key 0, which no row has, stands for its -1. -/
  ownBarberId : Option ℕ
  now : ℤ

namespace Caller

def ensureBarbershopAccess (ctx : Caller) (min : AccessLevel) : Result Unit :=
  refuseIf (ctx.accessLevel.rank < min.rank)
    (.forbidden "Seu cargo nesta unidade não permite essa ação.")

def ensureModuleAccess (ctx : Caller) (m : Module) : Result Unit :=
  refuseIf (ctx.shop.modules m = false) (.forbidden
    "Este recurso não está disponível no seu plano atual. Faça upgrade para acessá-lo.")

def assertSoloProductSaleAllowed (ctx : Caller) (soldAt units : ℤ) : Result Unit :=
  refuseIf (0 < units ∧ ctx.shop.soloProductSaleAllowed soldAt units = false) (.badRequest
    "Pelo segundo mês seguido você passou de 30 produtos vendidos por conta própria. Esta venda não entra.")

end Caller

/-- `sameCurrency`; codes are stored trimmed and in upper case. -/
def sameCurrency (a b : Option String) : Bool := a.getD "BRL" == b.getD "BRL"

end Barbershop
