import Barbershop.Club.Session
import Barbershop.Lib.Writes
import Barbershop.Platform.Featured

/-!
# Disputes and refunds that Stripe reports

The webhooks `charge.dispute.*` and `charge.refunded` (`handleDispute`, `syncStripeRefund`).
`recordDispute` keeps the row of a dispute and does not go back to one that is closed; of a lost
dispute it revokes a purchase from the platform, and its charge is then taken as refunded
(`chargeOfLostDispute`). `syncStripeRefund` marks what was paid by the charge: an invoice of the
club, a deposit, a prepayment, a tip, a purchase from the platform.

The two are one `Handler`: a delivery makes the writes of `Notice.writes` one after another and may
stop between any two of them. What each part reads, it reads in the state that it starts in. What
follows in the same webhook (the plan of a unit, the rent of a chair) writes other tables and is
left out.
-/

namespace Barbershop

open Lib

/-! ## What Stripe sends -/

inductive DisputeStatus where
  | warningNeedsResponse | warningUnderReview | warningClosed
  | needsResponse | underReview | won | lost
  deriving DecidableEq

/-- `['won', 'lost', 'warning_closed']` -/
def DisputeStatus.closed : DisputeStatus → Bool
  | won | lost | warningClosed => true
  | warningNeedsResponse | warningUnderReview | needsResponse | underReview => false

/-- A charge; `payment_intent` and `invoice` by their ids. -/
structure StripeCharge where
  id : String
  payment_intent : Option String
  invoice : Option String
  currency : String
  amount : ℤ
  amount_refunded : ℤ
  refunded : Bool
  deriving DecidableEq

/-- The charge of a dispute: its id, or the object in its place. -/
inductive DisputedCharge where
  | id (id : String)
  | object (charge : StripeCharge)
  deriving DecidableEq

structure StripeDispute where
  id : String
  charge : Option DisputedCharge
  payment_intent : Option String
  amount : ℤ
  currency : String
  reason : String
  status : DisputeStatus
  /-- `evidence_details.due_by`, in seconds. -/
  due_by : Option ℤ
  deriving DecidableEq

/-! ## Rows -/

/-- Unique on the id of the dispute at Stripe. -/
structure PaymentDispute where
  stripePaymentIntentId : Option String
  amountCents : ℤ
  currency : String
  reason : String
  status : DisputeStatus
  evidenceDueBy : Option ℤ
  closedAt : Option ℤ

/-- A tip paid through the app. -/
structure StripeTip where
  stripePaymentIntentId : Option String
  amount : ℚ
  refundedAt : Option ℤ

/-- A payment of the club, as a refund of its invoice reads it. -/
structure ClubInvoicePayment where
  stripeInvoiceId : String
  amount : ℚ
  refundedAmount : Option ℚ

/-- A `FeaturedPurchase`, as its revocation reads it. `daysTaken`: its days were taken away, which no
code reads. -/
structure FeaturedSale where
  ownerType : FeaturedOwnerType
  ownerId : ℕ
  days : ℕ
  stripePaymentIntentId : Option String
  status : FeaturedStatus
  daysTaken : Bool

/-- The fee of a `JobApplication`. -/
structure JobFee where
  feePaymentIntentId : Option String
  feePaidAt : Option ℤ
  feeRefundedAt : Option ℤ

structure AppBooks where
  disputes : String → Option PaymentDispute
  appointments : Table Appointment
  tips : Table StripeTip
  clubPayments : Table ClubInvoicePayment
  featured : Table FeaturedSale
  featuredUntil : FeaturedOwnerType → ℕ → Option ℤ
  fees : Table JobFee

/-! ## Writes -/

/-- The row of a dispute as `recordDispute` writes it. -/
def StripeDispute.row (d : StripeDispute) (now : ℤ) : PaymentDispute where
  stripePaymentIntentId := d.payment_intent
  amountCents := d.amount
  currency := d.currency
  reason := d.reason
  status := d.status
  evidenceDueBy := (d.due_by.filter (· ≠ 0)).map fromSeconds
  closedAt := if d.status.closed then some now else none

/-- Refunded as a whole, or left as it is. -/
def Appointment.syncDeposit (refunded : ℚ) (currency : String) (fullyRefunded : Bool) (now : ℤ)
    (a : Appointment) : Appointment :=
  if a.depositRefundedAt.isSome then a
  else if !fullyRefunded && decide (toMinorUnits refunded currency <
      toMinorUnits (a.depositAmount.getD 0) currency) then a
  else { a with depositPaid := false, depositRefundedAt := some now }

def Appointment.syncPrepaid (refunded : ℚ) (fullyRefunded : Bool) (now : ℤ) (a : Appointment) :
    Appointment :=
  if a.prepaidAt.isNone || a.prepaidRefundedAt.isSome then a
  else
    let paid := a.prepaidAmount.getD 0
    let before := a.prepaidRefundedAmount.getD 0
    let next := min paid (max before refunded)
    let full := fullyRefunded || (decide (0 < paid) && decide (paid ≤ next))
    if next == before && !full then a
    else
      { a with
        prepaidRefundedAmount := some next
        prepaidRefundedAt := if full then some now else none }

def StripeTip.sync (refunded : ℚ) (currency : String) (fullyRefunded : Bool) (now : ℤ)
    (t : StripeTip) : StripeTip :=
  if t.refundedAt.isSome then t
  else if !fullyRefunded && decide (toMinorUnits refunded currency <
      toMinorUnits t.amount currency) then t
  else { t with refundedAt := some now }

/-- `syncClubPaymentRefund`: the amount returned only goes up. -/
def ClubInvoicePayment.sync (invoiceId : String) (refunded : ℚ) (c : ClubInvoicePayment) :
    ClubInvoicePayment :=
  if c.stripeInvoiceId = invoiceId ∧ ∀ r ∈ c.refundedAmount, r < refunded then
    { c with refundedAmount := some refunded }
  else c

def FeaturedSale.claimBack (f : FeaturedSale) : FeaturedSale :=
  if f.status = .paid then { f with status := .refunded } else f

/-- Without the id of the payment, the same payment does not count again. -/
def JobFee.revoke (paymentIntentId : String) (now : ℤ) (f : JobFee) : JobFee :=
  if f.feePaymentIntentId = some paymentIntentId ∧ f.feePaidAt.isSome ∧ f.feeRefundedAt = none then
    { f with feePaidAt := none, feeRefundedAt := some now, feePaymentIntentId := none }
  else f

/-- The writes of the two webhooks. -/
inductive AppWrite where
  | dispute (d : StripeDispute) (now : ℤ)
  | markFeatured (id : ℕ)
  | takeDays (id : ℕ) (seen : FeaturedSale) (now : ℤ)
  | revokeFee (paymentIntentId : String) (now : ℤ)
  | club (invoiceId : String) (refunded : ℚ)
  | deposit (paymentIntentId : String) (refunded : ℚ) (currency : String) (fullyRefunded : Bool)
    (now : ℤ)
  | prepaid (paymentIntentId : String) (refunded : ℚ) (fullyRefunded : Bool) (now : ℤ)
  | tip (paymentIntentId : String) (refunded : ℚ) (currency : String) (fullyRefunded : Bool)
    (now : ℤ)

def AppWrite.exec (x : AppWrite) (s : AppBooks) : AppBooks :=
  match x with
  | dispute d now =>
    { s with disputes := fun id => if id = d.id then some (d.row now) else s.disputes id }
  | markFeatured id => { s with featured := s.featured.modify id (·.claimBack) }
  | takeDays id seen now =>
    { s with
      featured := s.featured.modify id fun f => { f with daysTaken := true }
      featuredUntil := fun ownerType ownerId =>
        if ownerType = seen.ownerType ∧ ownerId = seen.ownerId then
          Barbershop.takeDays now seen.days (s.featuredUntil ownerType ownerId)
        else s.featuredUntil ownerType ownerId }
  | revokeFee intent now => { s with fees := s.fees.modifyAll fun _ f => f.revoke intent now }
  | club invoiceId refunded =>
    { s with clubPayments := s.clubPayments.modifyAll fun _ c => c.sync invoiceId refunded }
  | deposit intent refunded currency full now =>
    let found := fun a : Appointment => a.depositPaymentIntentId == some intent
    let sync := fun a : Appointment => a.syncDeposit refunded currency full now
    { s with appointments := s.appointments.updateFirst found sync }
  | prepaid intent refunded full now =>
    let found := fun a : Appointment => a.prepaidPaymentIntentId == some intent
    let sync := fun a : Appointment => a.syncPrepaid refunded full now
    { s with appointments := s.appointments.updateFirst found sync }
  | tip intent refunded currency full now =>
    let found := fun t : StripeTip => t.stripePaymentIntentId == some intent
    let sync := fun t : StripeTip => t.sync refunded currency full now
    { s with tips := s.tips.updateFirst found sync }

/-! ## The handlers -/

/-- The days of a purchase are taken away by the call that marks it refunded. -/
def revokePlatformPurchase (paymentIntentId : String) (now : ℤ) (s : AppBooks) : List AppWrite :=
  (match s.featured.find? fun _ f => f.stripePaymentIntentId == some paymentIntentId with
    | some (id, f) => if f.status = .paid then [.markFeatured id, .takeDays id f now] else []
    | none => []) ++ [.revokeFee paymentIntentId now]

def syncStripeRefund (charge : StripeCharge) (now : ℤ) (s : AppBooks) : List AppWrite :=
  let refunded := fromMinorUnits charge.amount_refunded charge.currency
  (if 0 < refunded then charge.invoice.toList.map (.club · refunded) else []) ++
    match charge.payment_intent with
    | none => []
    | some intent =>
      if refunded ≤ 0 then []
      else [.deposit intent refunded charge.currency charge.refunded now,
          .prepaid intent refunded charge.refunded now,
          .tip intent refunded charge.currency charge.refunded now] ++
        if charge.refunded then revokePlatformPurchase intent now s else []

/-- The writes, and whether the dispute is now lost. -/
def recordDispute (d : StripeDispute) (now : ℤ) (s : AppBooks) : List AppWrite × Bool :=
  if (s.disputes d.id).any (·.closedAt.isSome) then ([], false)
  else
    (.dispute d now :: (if d.status = .lost then
        d.payment_intent.elim [] fun intent =>
          revokePlatformPurchase intent now ((AppWrite.dispute d now).exec s)
      else []),
      d.status = .lost)

namespace StripeDispute

variable (d : StripeDispute) (retrieved : Option StripeCharge)

/-- The charge, if it came with the dispute or Stripe gives it. -/
def chargeAtHand : Option StripeCharge :=
  match d.charge with
  | none => none
  | some (.object charge) => some charge
  | some (.id _) => retrieved

/-- The id of the charge, as the dispute names it. -/
def chargeId : Option String := d.charge.map fun
  | .id id => id
  | .object charge => charge.id

/-- The lost dispute as a refund of its charge; without the charge there is no invoice. -/
def chargeOfLostDispute : StripeCharge :=
  let charge := d.chargeAtHand retrieved
  let amount := (charge.map (·.amount)).getD d.amount
  let lost := max d.amount ((charge.map (·.amount_refunded)).getD 0)
  { id := (charge.map (·.id) <|> d.chargeId).getD d.id
    payment_intent := charge.bind (·.payment_intent) <|> d.payment_intent
    invoice := charge.bind (·.invoice)
    currency := (charge.map (·.currency)).getD d.currency
    amount := amount
    amount_refunded := min amount lost
    refunded := decide (amount ≤ lost) }

end StripeDispute

inductive AppEvent where
  /-- `charge.dispute.created`, `updated` and `closed` -/
  | dispute (d : StripeDispute)
  /-- `charge.refunded` -/
  | refunded (charge : StripeCharge)
  deriving DecidableEq

/-- An event as it is delivered; `retrieved` is what `retrieveCharge` answers, if it answers. -/
structure Notice where
  event : AppEvent
  retrieved : Option StripeCharge
  now : ℤ
  syncedAt : ℤ

def Notice.writes (n : Notice) (s : AppBooks) : List AppWrite :=
  match n.event with
  | .dispute d =>
    let recorded := recordDispute d n.now s
    if recorded.2 then
      recorded.1 ++ syncStripeRefund (d.chargeOfLostDispute n.retrieved) n.syncedAt
        (recorded.1.foldl (fun s x => x.exec s) s)
    else recorded.1
  | .refunded charge => syncStripeRefund charge n.syncedAt s

/-- The two webhooks. -/
def refundWebhooks : Handler AppBooks Notice AppWrite := ⟨Notice.writes, AppWrite.exec⟩

end Barbershop
