import Mathlib.Algebra.Group.Pi.Basic
import Barbershop.Payment.Stripe

/-!
# Featured days

A unit or a professional buys days at the top of the search (`FeaturedPaymentService`). `start`
resumes a pending purchase, or replaces it by one with an intent of its own; `finalize` takes a
succeeded intent from the screen or from the webhook, claims the purchase and adds its days;
`revokePlatformPurchase` claims a paid purchase back when its payment was refunded, and takes the
days away.

A purchase keeps the list of what was done to `featuredUntil` on its account.
`FeaturedCall.keepsPaid` is what each step has to meet for the days to be added once, and to be
taken back once where the purchase is revoked.
-/

namespace Barbershop

open Lib

/-! ## Rows -/

inductive FeaturedOwnerType where
  | barbershop | professional
  deriving DecidableEq

inductive FeaturedStatus where
  | pending | paid | canceled | refunded
  deriving DecidableEq

/-- `paid` or `refunded`. -/
def FeaturedStatus.settled : FeaturedStatus → Bool
  | paid | refunded => true
  | pending | canceled => false

/-- An update of `featuredUntil` on account of a purchase. -/
inductive FeaturedMove where
  | added | takenBack
  deriving DecidableEq

/-- `moves` is what was done on account of the purchase, which no code reads. -/
structure FeaturedPurchase where
  ownerType : FeaturedOwnerType
  ownerId : ℕ
  userId : ℕ
  amountCents : ℕ
  days : ℕ
  stripePaymentIntentId : Option ℕ
  status : FeaturedStatus
  paidAt : Option ℤ
  featuredUntil : Option ℤ
  moves : List FeaturedMove

/-- An intent of kind `featured_purchase`. `handled`: a `finalize` of it has been answered;
`revoked`: a `revokePlatformPurchase` of it has; no code reads them. -/
structure FeaturedIntent where
  amount : ℕ
  purchaseId : ℕ
  status : IntentStatus
  handled : Bool
  revoked : Bool

/-- `featuredOffer` -/
structure FeaturedOffer where
  priceCents : ℕ
  days : ℕ

structure FeaturedBooks where
  now : ℤ
  offer : FeaturedOwnerType → FeaturedOffer
  purchases : Table FeaturedPurchase
  intents : Table FeaturedIntent
  featuredUntil : FeaturedOwnerType → ℕ → Option ℤ

/-- An interval of one day, in milliseconds. -/
def oneDay : ℤ := 86400000

/-- The end of the days, with those of a purchase. -/
def addDays (now : ℤ) (days : ℕ) (featuredUntil : Option ℤ) : Option ℤ :=
  some (max (featuredUntil.getD now) now + days * oneDay)

/-- The end of the days, without those of a purchase; what has passed does not come back. -/
def takeDays (now : ℤ) (days : ℕ) (featuredUntil : Option ℤ) : Option ℤ :=
  featuredUntil.map fun u => min u (max (u - days * oneDay) now)

/-! ## Who buys for whom -/

structure FeaturedSite where
  /-- The user is a manager of the unit, or above. -/
  manages : ℕ → ℕ → Bool
  /-- Whether a unit is listed in the search. -/
  listed : ℕ → Option Bool
  /-- The professional of a user, and whether the page is public. -/
  professional : ℕ → Option (ℕ × Bool)

/-- Who is to be featured, and whether the search shows them. -/
structure FeaturedTarget where
  ownerType : FeaturedOwnerType
  ownerId : ℕ
  shown : Bool

def FeaturedSite.target (site : FeaturedSite) (userId : ℕ) (ownerType : FeaturedOwnerType)
    (ownerId : Option ℕ) : Result FeaturedTarget :=
  match ownerType with
  | .barbershop => do
    let id ← orRefuse ownerId (.badRequest "Informe a unidade")
    refuseIf (site.manages userId id = false)
      (.forbidden "Seu cargo nesta unidade não permite essa ação.")
    let listed ← orRefuse (site.listed id) (.notFound "Unidade não encontrada")
    return ⟨ownerType, id, listed⟩
  | .professional => do
    let found ← orRefuse (site.professional userId)
      (.notFound "Você ainda não tem perfil de profissional")
    refuseIf (∃ id ∈ ownerId, id ≠ found.1)
      (.forbidden "Só o próprio profissional compra o Destaque dele")
    return ⟨ownerType, found.1, found.2⟩

/-- The checks of `start`. -/
def FeaturedSite.checkStart (site : FeaturedSite) (userId : ℕ) (ownerType : FeaturedOwnerType)
    (ownerId : Option ℕ) : Result FeaturedTarget := do
  let t ← site.target userId ownerType ownerId
  refuseIf (t.shown = false) (.badRequest (match t.ownerType with
    | .professional => "Deixe sua página pública para aparecer na busca antes"
    | .barbershop => "A unidade não aparece na busca agora (pausada, suspensa ou escondida). O Destaque só vale para unidade no ar."))
  return t

/-! ## Calls -/

/-- A `start` under way: who buys, for whom, and the offer it read. -/
structure FeaturedOrder where
  userId : ℕ
  ownerType : FeaturedOwnerType
  ownerId : ℕ
  offer : FeaturedOffer

/-- Where a call is. -/
inductive FeaturedCall where
  | looking (o : FeaturedOrder)
  | retrieving (o : FeaturedOrder) (pendingId : ℕ) (pending : FeaturedPurchase) (intentId : ℕ)
  | canceling (o : FeaturedOrder) (pendingId intentId : ℕ)
  | overwriting (o : FeaturedOrder) (pendingId : ℕ)
  | creating (o : FeaturedOrder)
  | charging (o : FeaturedOrder) (purchaseId : ℕ)
  | saving (purchaseId intentId : ℕ)
  /-- `confirm`, before it asks Stripe. -/
  | confirming (intentId : ℕ)
  /-- `finalize` of a succeeded intent. -/
  | finalizing (intentId : ℕ)
  | claiming (intentId purchaseId : ℕ) (seen : FeaturedPurchase)
  | adding (purchaseId : ℕ) (seen : FeaturedPurchase)
  | dating (purchaseId : ℕ) (featuredUntil : Option ℤ)
  /-- `revokePlatformPurchase` -/
  | revoking (intentId : ℕ)
  | claimingBack (intentId purchaseId : ℕ) (seen : FeaturedPurchase)
  | takingBack (purchaseId : ℕ) (seen : FeaturedPurchase)

namespace FeaturedOrder

variable (o : FeaturedOrder)

/-- The open purchase that `start` resumes or replaces: the last of the same person for the same
target. -/
def pending (s : FeaturedBooks) : Option (ℕ × FeaturedPurchase) :=
  (s.purchases.filter fun _ p => p.ownerType == o.ownerType && p.ownerId == o.ownerId &&
    p.userId == o.userId && p.status == .pending).getLast?

def purchase : FeaturedPurchase where
  ownerType := o.ownerType
  ownerId := o.ownerId
  userId := o.userId
  amountCents := o.offer.priceCents
  days := o.offer.days
  stripePaymentIntentId := none
  status := .pending
  paidAt := none
  featuredUntil := none
  moves := []

def intent (purchaseId : ℕ) : FeaturedIntent where
  amount := o.offer.priceCents
  purchaseId := purchaseId
  status := .opened
  handled := false
  revoked := false

end FeaturedOrder

/-- Why `finalize` goes no further with a purchase that it read. -/
def FeaturedIntent.mismatch (x : FeaturedIntent) (intentId : ℕ) (p : FeaturedPurchase) : Bool :=
  decide (x.amount < p.amountCents) || p.stripePaymentIntentId.any (· != intentId)

namespace FeaturedBooks

variable (s : FeaturedBooks)

def setPurchase (id : ℕ) (f : FeaturedPurchase → FeaturedPurchase) : FeaturedBooks :=
  { s with purchases := s.purchases.modify id f }

def setIntent (id : ℕ) (f : FeaturedIntent → FeaturedIntent) : FeaturedBooks :=
  { s with intents := s.intents.modify id f }

/-- A `finalize` of the intent has its answer. -/
def answered (id : ℕ) : FeaturedBooks := s.setIntent id fun x => { x with handled := true }

/-- A `revokePlatformPurchase` of the intent has its answer. -/
def revokedBy (id : ℕ) : FeaturedBooks := s.setIntent id fun x => { x with revoked := true }

/-- `featuredUntil` moves, on account of a purchase. -/
def move (id : ℕ) (seen : FeaturedPurchase) (m : FeaturedMove) (f : Option ℤ → Option ℤ) :
    FeaturedBooks where
  now := s.now
  offer := s.offer
  purchases := s.purchases.modify id fun p => { p with moves := p.moves ++ [m] }
  intents := s.intents
  featuredUntil ownerType ownerId :=
    if ownerType = seen.ownerType ∧ ownerId = seen.ownerId then f (s.featuredUntil ownerType ownerId)
    else s.featuredUntil ownerType ownerId

end FeaturedBooks

namespace FeaturedCall

/-- `accepted`: whether Stripe carries out what it is asked for. -/
def step (accepted : Bool) (c : FeaturedCall) (s : FeaturedBooks) :
    FeaturedBooks × Option FeaturedCall :=
  match c with
  | looking o =>
    match o.pending s with
    | none => (s, some (creating o))
    | some (id, p) => match p.stripePaymentIntentId with
      | none => (s, some (creating o))
      | some intentId => (s, some (retrieving o id p intentId))
  | retrieving o id p intentId =>
    match s.intents.get? intentId with
    | none => (s, none)
    | some x =>
      if x.status = .succeeded then (s, some (finalizing intentId))
      else if x.status ≠ .canceled ∧ x.amount = o.offer.priceCents ∧ p.days = o.offer.days then
        -- the same price and days: the purchase is resumed
        (s, none)
      else if x.status ≠ .canceled then (s, some (canceling o id intentId))
      else (s, some (overwriting o id))
  | canceling o id intentId =>
    -- an error of Stripe is swallowed
    (if accepted then s.setIntent intentId fun x =>
        { x with status := if x.status = .opened then .canceled else x.status }
      else s, some (overwriting o id))
  | overwriting o id => (s.setPurchase id fun p => { p with status := .canceled }, some (creating o))
  | creating o =>
    ({ s with purchases := s.purchases.insert o.purchase }, some (charging o s.purchases.next))
  | charging o id =>
    if accepted then
      ({ s with intents := s.intents.insert (o.intent id) }, some (saving id s.intents.next))
    else (s, none)
  | saving id intentId =>
    (s.setPurchase id fun p => { p with stripePaymentIntentId := some intentId }, none)
  | confirming intentId =>
    if (s.intents.get? intentId).any (·.status == .succeeded) then (s, some (finalizing intentId))
    else (s, none)
  | finalizing intentId =>
    match s.intents.get? intentId with
    | none => (s, none)
    | some x => match s.purchases.get? x.purchaseId with
      | none => (s.answered intentId, none)
      | some p =>
        if p.status.settled || x.mismatch intentId p then (s.answered intentId, none)
        else (s, some (claiming intentId x.purchaseId p))
  | claiming intentId id seen =>
    match s.purchases.tryModify id (fun p => !p.status.settled) fun p => { p with
        status := .paid
        paidAt := some s.now
        stripePaymentIntentId := some intentId } with
    | none => (s.answered intentId, none)
    | some purchases => (({ s with purchases := purchases } : FeaturedBooks).answered intentId,
        some (adding id seen))
  | adding id seen =>
    let s' := s.move id seen .added (addDays s.now seen.days)
    (s', some (dating id (s'.featuredUntil seen.ownerType seen.ownerId)))
  | dating id featuredUntil =>
    (s.setPurchase id fun p => { p with featuredUntil := featuredUntil }, none)
  | revoking intentId =>
    match s.purchases.find? fun _ p => p.stripePaymentIntentId == some intentId with
    | none => (s.revokedBy intentId, none)
    | some (id, p) =>
      if p.status = .paid then (s, some (claimingBack intentId id p))
      else (s.revokedBy intentId, none)
  | claimingBack intentId id seen =>
    match s.purchases.tryModify id (fun p => p.status == .paid) fun p => { p with
        status := .refunded } with
    | none => (s.revokedBy intentId, none)
    | some purchases => (({ s with purchases := purchases } : FeaturedBooks).revokedBy intentId,
        some (takingBack id seen))
  | takingBack id seen => (s.move id seen .takenBack (takeDays s.now seen.days), none)

/-- What each step has to meet: a purchase that is settled is not overwritten, and a purchase is
revoked when it is settled, its days being there when they are taken back. -/
def keepsPaid (c : FeaturedCall) (s : FeaturedBooks) : Bool :=
  match c with
  | overwriting _ id => (s.purchases.get? id).all fun p => !p.status.settled
  | revoking intentId => (s.intents.get? intentId).all fun x =>
      (s.purchases.get? x.purchaseId).all (·.status.settled)
  | takingBack id _ => (s.purchases.get? id).all (·.moves.contains .added)
  | _ => true

end FeaturedCall

inductive FeaturedEvent where
  | start (userId : ℕ) (ownerType : FeaturedOwnerType) (ownerId : Option ℕ)
  | confirm (userId purchaseId : ℕ)
  /-- Stripe delivers `payment_intent.succeeded`, any number of times. -/
  | deliver (intentId : ℕ)
  /-- The payment was refunded in full, or a dispute of it was lost. -/
  | revoke (intentId : ℕ)
  | approve (intentId : ℕ)
  | setPricing (offer : FeaturedOwnerType → FeaturedOffer)
  | pass (time : ℕ)

def FeaturedBooks.succeeded (s : FeaturedBooks) (intentId : ℕ) : Bool :=
  (s.intents.get? intentId).any (·.status == .succeeded)

/-- The read of `confirm`: the intent that it asks Stripe for. -/
def FeaturedBooks.confirm (s : FeaturedBooks) (userId purchaseId : ℕ) : Option ℕ :=
  ((s.purchases.get? purchaseId).filter fun p =>
    p.userId == userId && !p.status.settled).bind (·.stripePaymentIntentId)

/-- `none`: what does not happen. -/
def FeaturedEvent.begin (site : FeaturedSite) (e : FeaturedEvent) (s : FeaturedBooks) :
    Option (FeaturedBooks × Option FeaturedCall) :=
  match e with
  | start userId ownerType ownerId =>
    some (s, (site.checkStart userId ownerType ownerId).toOption.map fun t =>
      .looking ⟨userId, t.ownerType, t.ownerId, s.offer t.ownerType⟩)
  | confirm userId purchaseId => some (s, (s.confirm userId purchaseId).map .confirming)
  | deliver intentId => if s.succeeded intentId then some (s, some (.finalizing intentId)) else none
  | revoke intentId => if s.succeeded intentId then some (s, some (.revoking intentId)) else none
  | approve intentId =>
    if (s.intents.get? intentId).any (·.status == .opened) then
      some (s.setIntent intentId fun x => { x with status := .succeeded }, none)
    else none
  | setPricing offer => some ({ s with offer := offer }, none)
  | pass time => some ({ s with now := s.now + time }, none)

/-- Any number of tabs, confirmations, deliveries and revocations at once. -/
def featuredCalls (site : FeaturedSite) :
    CallSystem FeaturedBooks FeaturedCall FeaturedEvent Bool where
  event e s := e.begin site s
  step k c s := some (c.step k s)

/-! ## The law -/

/-- A purchase beside its intent, at rest: its days were added once if the payment succeeded and was
handled, and were taken back once if it was revoked. -/
structure FeaturedOnce (x : FeaturedIntent) (p : FeaturedPurchase) : Prop where
  bought : x.handled = true → x.status = .succeeded ∧
    p.moves = (if x.revoked then [.added, .takenBack] else [.added]) ∧
    p.status = if x.revoked then .refunded else .paid
  unbought : x.handled = false → p.moves = [] ∧ x.revoked = false

/-! ## The invariant -/

/-- What a call in flight has yet to do for a purchase. -/
inductive FeaturedStage where
  | charging | adding | takingBack
  deriving DecidableEq

/-- What is yet to be done, by kind and purchase. -/
abbrev FeaturedPending := FeaturedStage × ℕ → ℕ

/-- The status of a purchase accounts for what was done for it and what is yet to be done. -/
def FeaturedPurchase.Balanced (p : FeaturedPurchase) (adding takingBack : ℕ) : Prop :=
  match p.status with
  | .pending | .canceled => p.moves = [] ∧ adding = 0 ∧ takingBack = 0
  | .paid => takingBack = 0 ∧ (p.moves = [] ∧ adding = 1 ∨ p.moves = [.added] ∧ adding = 0)
  | .refunded => (p.moves = [] ∧ adding = 1 ∧ takingBack = 1) ∨
    (p.moves = [.added] ∧ adding = 0 ∧ takingBack = 1) ∨
    (p.moves = [.added, .takenBack] ∧ adding = 0 ∧ takingBack = 0)

/-- An intent under the key `i`, and its purchase. -/
structure FeaturedIntent.Of (x : FeaturedIntent) (i : ℕ) (p : FeaturedPurchase) : Prop where
  amount : p.amountCents ≤ x.amount
  stored : p.stripePaymentIntentId = none ∨ p.stripePaymentIntentId = some i
  settled : p.status.settled = true → x.status = .succeeded ∧ p.stripePaymentIntentId = some i
  handled : x.handled = p.status.settled
  revoked : x.revoked = (p.status == .refunded)

structure FeaturedSound (s : FeaturedBooks) (m : FeaturedPending) : Prop where
  balanced : ∀ {id p}, s.purchases.get? id = some p →
    p.Balanced (m (.adding, id)) (m (.takingBack, id))
  settled : ∀ {id p}, s.purchases.get? id = some p → p.status.settled = true →
    p.stripePaymentIntentId.isSome = true
  stored : ∀ {id p i}, s.purchases.get? id = some p → p.stripePaymentIntentId = some i →
    ∃ x, s.intents.get? i = some x ∧ x.purchaseId = id
  intent : ∀ {i x}, s.intents.get? i = some x →
    ∃ p, s.purchases.get? x.purchaseId = some p ∧ x.Of i p
  one : ∀ {i j x y}, s.intents.get? i = some x → s.intents.get? j = some y →
    x.purchaseId = y.purchaseId → i = j
  charging : ∀ id, m (.charging, id) ≤ 1
  uncharged : ∀ {i x}, s.intents.get? i = some x → m (.charging, x.purchaseId) = 0
  fresh : ∀ {id}, s.purchases.get? id = none → ∀ stage, m (stage, id) = 0

namespace FeaturedSound

variable {s : FeaturedBooks} {m m' : FeaturedPending}

/-- A purchase and its intent are rewritten. -/
theorem rewrite (h : FeaturedSound s m) {i : ℕ} {x : FeaturedIntent} {p : FeaturedPurchase}
    (hx : s.intents.get? i = some x) (hp : s.purchases.get? x.purchaseId = some p)
    {f : FeaturedPurchase → FeaturedPurchase} {g : FeaturedIntent → FeaturedIntent}
    (hsame : (g x).purchaseId = x.purchaseId) (hof : (g x).Of i (f p))
    (hbalanced : (f p).Balanced (m' (.adding, x.purchaseId)) (m' (.takingBack, x.purchaseId)))
    (hcharging : m' (.charging, x.purchaseId) = 0)
    (hm : ∀ stage id, id ≠ x.purchaseId → m' (stage, id) = m (stage, id)) {s' : FeaturedBooks}
    (hpurchases : s'.purchases = s.purchases.modify x.purchaseId f)
    (hintents : s'.intents = s.intents.modify i g) : FeaturedSound s' m' := by
  have hrow : ∀ {id q}, s'.purchases.get? id = some q →
      id = x.purchaseId ∧ q = f p ∨ id ≠ x.purchaseId ∧ s.purchases.get? id = some q := by
    intro id q hq
    rw [hpurchases, Table.get?_modify] at hq
    split at hq
    · next hid =>
      subst hid
      rw [hp, Option.map_some] at hq
      exact .inl ⟨rfl, (Option.some.inj hq).symm⟩
    · next hid => exact .inr ⟨hid, hq⟩
  have hread : ∀ {j y}, s'.intents.get? j = some y →
      j = i ∧ y = g x ∨ j ≠ i ∧ s.intents.get? j = some y := by
    intro j y hy
    rw [hintents, Table.get?_modify] at hy
    split at hy
    · next hj =>
      subst hj
      rw [hx, Option.map_some] at hy
      exact .inl ⟨rfl, (Option.some.inj hy).symm⟩
    · next hj => exact .inr ⟨hj, hy⟩
  have hself : s'.purchases.get? x.purchaseId = some (f p) := by
    rw [hpurchases, Table.get?_modify_self, hp, Option.map_some]
  have hmine : s'.intents.get? i = some (g x) := by
    rw [hintents, Table.get?_modify_self, hx, Option.map_some]
  -- no other intent is of this purchase
  have hother : ∀ {j y}, j ≠ i → s.intents.get? j = some y → y.purchaseId ≠ x.purchaseId :=
    fun hj hy heq => hj (h.one hy hx heq)
  have hof_id : ∀ {j y}, s'.intents.get? j = some y → ∃ y₀, s.intents.get? j = some y₀ ∧
      y₀.purchaseId = y.purchaseId := by
    intro j y hy
    rcases hread hy with ⟨rfl, rfl⟩ | ⟨-, hy⟩
    · exact ⟨x, hx, hsame.symm⟩
    · exact ⟨y, hy, rfl⟩
  constructor
  · intro id q hq
    rcases hrow hq with ⟨rfl, rfl⟩ | ⟨hid, hq⟩
    · exact hbalanced
    · rw [hm _ _ hid, hm _ _ hid]
      exact h.balanced hq
  · intro id q hq hsettled
    rcases hrow hq with ⟨rfl, rfl⟩ | ⟨-, hq⟩
    · rw [(hof.settled hsettled).2]
      rfl
    · exact h.settled hq hsettled
  · intro id q j hq hj
    rcases hrow hq with ⟨rfl, rfl⟩ | ⟨hid, hq⟩
    · rcases hof.stored with hnone | hsome
      · rw [hnone] at hj
        cases hj
      · rw [hsome] at hj
        obtain rfl := Option.some.inj hj
        exact ⟨g x, hmine, hsame⟩
    · obtain ⟨y, hy, rfl⟩ := h.stored hq hj
      have hne : j ≠ i := by
        rintro rfl
        rw [hx] at hy
        exact hid (by rw [Option.some.inj hy])
      exact ⟨y, by rw [hintents, Table.get?_modify_of_ne _ _ hne, hy], rfl⟩
  · intro j y hy
    rcases hread hy with ⟨rfl, rfl⟩ | ⟨hj, hy⟩
    · exact ⟨f p, hsame ▸ hself, hof⟩
    · obtain ⟨q, hq, hyof⟩ := h.intent hy
      exact ⟨q, by rw [hpurchases, Table.get?_modify_of_ne _ _ (hother hj hy), hq], hyof⟩
  · intro j k y z hy hz heq
    obtain ⟨y₀, hy₀, hyid⟩ := hof_id hy
    obtain ⟨z₀, hz₀, hzid⟩ := hof_id hz
    exact h.one hy₀ hz₀ (by rw [hyid, hzid, heq])
  · intro id
    by_cases hid : id = x.purchaseId
    · rw [hid, hcharging]
      exact Nat.zero_le 1
    · rw [hm _ _ hid]
      exact h.charging id
  · intro j y hy
    rcases hread hy with ⟨rfl, rfl⟩ | ⟨hj, hy⟩
    · rw [hsame, hcharging]
    · rw [hm _ _ (hother hj hy)]
      exact h.uncharged hy
  · intro id hnone stage
    have hid : id ≠ x.purchaseId := by
      rintro rfl
      rw [hself] at hnone
      cases hnone
    rw [hpurchases, Table.get?_modify_of_ne _ _ hid] at hnone
    rw [hm _ _ hid, h.fresh hnone]

/-- A purchase is rewritten, as its intent sees it: its amount, its intent and whether it is settled
or refunded stay. -/
theorem repurchase (h : FeaturedSound s m) {id : ℕ} {f : FeaturedPurchase → FeaturedPurchase}
    (hf : ∀ p, s.purchases.get? id = some p → (f p).amountCents = p.amountCents ∧
      (f p).stripePaymentIntentId = p.stripePaymentIntentId ∧
      (f p).status.settled = p.status.settled ∧
      ((f p).status == .refunded) = (p.status == .refunded) ∧
      (f p).Balanced (m' (.adding, id)) (m' (.takingBack, id)))
    (hcharging : ∀ j, m' (.charging, j) = m (.charging, j))
    (hm : ∀ stage j, j ≠ id ∨ s.purchases.get? id = none → m' (stage, j) = m (stage, j))
    {s' : FeaturedBooks} (hpurchases : s'.purchases = s.purchases.modify id f)
    (hintents : s'.intents = s.intents) : FeaturedSound s' m' := by
  have hrow : ∀ {j q}, s'.purchases.get? j = some q →
      (∃ p, j = id ∧ s.purchases.get? id = some p ∧ q = f p) ∨
        j ≠ id ∧ s.purchases.get? j = some q := by
    intro j q hq
    rw [hpurchases, Table.get?_modify] at hq
    split at hq
    · next hj =>
      subst hj
      obtain ⟨p, hp, rfl⟩ := Option.map_eq_some_iff.1 hq
      exact .inl ⟨p, rfl, hp, rfl⟩
    · next hj => exact .inr ⟨hj, hq⟩
  constructor
  · intro j q hq
    rcases hrow hq with ⟨p, rfl, hp, rfl⟩ | ⟨hj, hq⟩
    · exact (hf p hp).2.2.2.2
    · rw [hm _ _ (.inl hj), hm _ _ (.inl hj)]
      exact h.balanced hq
  · intro j q hq hsettled
    rcases hrow hq with ⟨p, rfl, hp, rfl⟩ | ⟨-, hq⟩
    · rw [(hf p hp).2.1]
      exact h.settled hp ((hf p hp).2.2.1 ▸ hsettled)
    · exact h.settled hq hsettled
  · intro j q i hq hi
    rw [hintents]
    rcases hrow hq with ⟨p, rfl, hp, rfl⟩ | ⟨-, hq⟩
    · rw [(hf p hp).2.1] at hi
      exact h.stored hp hi
    · exact h.stored hq hi
  · intro i x hx
    rw [hintents] at hx
    obtain ⟨p, hp, hof⟩ := h.intent hx
    by_cases hid : x.purchaseId = id
    · subst hid
      obtain ⟨hamount, hstored, hsettled, hrefunded, -⟩ := hf p hp
      refine ⟨f p, by rw [hpurchases, Table.get?_modify_self, hp, Option.map_some], ?_⟩
      constructor
      · rw [hamount]
        exact hof.amount
      · rw [hstored]
        exact hof.stored
      · rw [hsettled, hstored]
        exact hof.settled
      · rw [hsettled]
        exact hof.handled
      · rw [hrefunded]
        exact hof.revoked
    · exact ⟨p, by rw [hpurchases, Table.get?_modify_of_ne _ _ hid, hp], hof⟩
  · intro i j x y hx hy heq
    rw [hintents] at hx hy
    exact h.one hx hy heq
  · intro j
    rw [hcharging]
    exact h.charging j
  · intro i x hx
    rw [hintents] at hx
    rw [hcharging]
    exact h.uncharged hx
  · intro j hnone stage
    rw [hpurchases, Table.get?_modify] at hnone
    split at hnone
    · next hj =>
      subst hj
      rw [Option.map_eq_none_iff] at hnone
      rw [hm _ _ (.inr hnone)]
      exact h.fresh hnone stage
    · next hj =>
      rw [hm _ _ (.inl hj)]
      exact h.fresh hnone stage

end FeaturedSound

/-! ## Steps -/

/-- What stays of a purchase. -/
def FeaturedPurchase.Stays (p q : FeaturedPurchase) : Prop :=
  q.amountCents = p.amountCents ∧ (p.status.settled = true → q.status.settled = true)

/-- What stays of an intent. -/
def FeaturedIntent.Stays (x y : FeaturedIntent) : Prop :=
  y.purchaseId = x.purchaseId ∧ (x.status = .succeeded → y.status = .succeeded)

theorem FeaturedPurchase.Stays.refl (p : FeaturedPurchase) : p.Stays p := ⟨rfl, fun h => h⟩

theorem FeaturedIntent.Stays.refl (x : FeaturedIntent) : x.Stays x := ⟨rfl, fun h => h⟩

/-- What every step does to the rows. -/
structure FeaturedBooks.Later (s s' : FeaturedBooks) : Prop where
  purchases : s.purchases.Lasts FeaturedPurchase.Stays s'.purchases
  intents : s.intents.Lasts FeaturedIntent.Stays s'.intents

/-- What a call knows. -/
def FeaturedCall.Known (s : FeaturedBooks) : FeaturedCall → Prop
  | charging o id => ∃ p, s.purchases.get? id = some p ∧ p.amountCents = o.offer.priceCents
  | saving id intentId => ∃ x, s.intents.get? intentId = some x ∧ x.purchaseId = id
  | finalizing intentId | revoking intentId =>
    ∃ x, s.intents.get? intentId = some x ∧ x.status = .succeeded
  | claiming intentId id _ =>
    ∃ x, s.intents.get? intentId = some x ∧ x.status = .succeeded ∧ x.purchaseId = id
  | claimingBack intentId id _ =>
    ∃ x p, s.intents.get? intentId = some x ∧ x.purchaseId = id ∧
      s.purchases.get? id = some p ∧ p.status.settled = true
  | _ => True

theorem FeaturedCall.Known.later {s s' : FeaturedBooks} {c : FeaturedCall} (h : c.Known s)
    (hs : s.Later s') : c.Known s' := by
  cases c with
  | charging o id =>
    obtain ⟨p, hp, hamount⟩ := h
    obtain ⟨q, hq, hsame, -⟩ := hs.purchases hp
    exact ⟨q, hq, hsame.trans hamount⟩
  | saving id intentId =>
    obtain ⟨x, hx, hid⟩ := h
    obtain ⟨y, hy, hsame, -⟩ := hs.intents hx
    exact ⟨y, hy, hsame.trans hid⟩
  | finalizing intentId =>
    obtain ⟨x, hx, hstatus⟩ := h
    obtain ⟨y, hy, -, hstays⟩ := hs.intents hx
    exact ⟨y, hy, hstays hstatus⟩
  | revoking intentId =>
    obtain ⟨x, hx, hstatus⟩ := h
    obtain ⟨y, hy, -, hstays⟩ := hs.intents hx
    exact ⟨y, hy, hstays hstatus⟩
  | claiming intentId id seen =>
    obtain ⟨x, hx, hstatus, hid⟩ := h
    obtain ⟨y, hy, hsame, hstays⟩ := hs.intents hx
    exact ⟨y, hy, hstays hstatus, hsame.trans hid⟩
  | claimingBack intentId id seen =>
    obtain ⟨x, p, hx, hid, hp, hsettled⟩ := h
    obtain ⟨y, hy, hsame, -⟩ := hs.intents hx
    obtain ⟨q, hq, -, hstays⟩ := hs.purchases hp
    exact ⟨y, q, hy, hsame.trans hid, hq, hstays hsettled⟩
  | looking | retrieving | canceling | overwriting | creating | confirming | adding | dating
  | takingBack => trivial

/-- What a call has yet to do for a purchase. -/
def FeaturedCall.pending : FeaturedCall → FeaturedPending
  | charging _ id => Pi.single (.charging, id) 1
  | adding id _ => Pi.single (.adding, id) 1
  | takingBack id _ => Pi.single (.takingBack, id) 1
  | _ => 0

def featuredInv : CallInv FeaturedBooks FeaturedCall FeaturedPending where
  weight := FeaturedCall.pending
  whole := FeaturedSound
  each s c := c.Known s

section Steps

variable {s s' : FeaturedBooks} {site : FeaturedSite}

theorem FeaturedBooks.Later.refl (s : FeaturedBooks) : s.Later s :=
  ⟨.refl FeaturedPurchase.Stays.refl _, .refl FeaturedIntent.Stays.refl _⟩

/-- A move leaves the law, later books, and a call that knows what it has to. -/
theorem featuredInv_kept {c c' : Option FeaturedCall} {m : FeaturedPending}
    (hsound : FeaturedSound s' (featuredInv.weigh c' + m)) (hlater : s.Later s')
    (hmine : ∀ a ∈ c', a.Known s') : featuredInv.Kept s c m s' c' where
  whole := hsound
  mine := hmine
  others _ hd _ := hd.later hlater
  apart _ _ _ _ _ := trivial

/-- A step that leaves the books as they are. -/
theorem featuredInv_stay {c c' : Option FeaturedCall} {m : FeaturedPending}
    (hsound : FeaturedSound s (featuredInv.weigh c + m))
    (hweigh : featuredInv.weigh c' = featuredInv.weigh c) (hmine : ∀ a ∈ c', a.Known s) :
    featuredInv.Kept s c m s c' :=
  featuredInv_kept (hweigh ▸ hsound) (.refl s) hmine

theorem FeaturedPurchase.Balanced.unsettled {p : FeaturedPurchase} {a t : ℕ} (h : p.Balanced a t)
    (hstatus : p.status.settled = false) : p.moves = [] ∧ a = 0 ∧ t = 0 := by
  unfold Balanced at h
  cases hp : p.status <;> simp only [hp, FeaturedStatus.settled] at h hstatus
  · exact h
  · cases hstatus
  · exact h
  · cases hstatus

/-- The purchase of a succeeded intent is claimed for it. -/
theorem FeaturedSound.claim {m : FeaturedPending} {i : ℕ} {x : FeaturedIntent}
    {p : FeaturedPurchase} (h : FeaturedSound s m) (hx : s.intents.get? i = some x)
    (hp : s.purchases.get? x.purchaseId = some p) (hsucceeded : x.status = .succeeded)
    (hopen : p.status.settled = false) {s' : FeaturedBooks} {paidAt : Option ℤ}
    (hpurchases : s'.purchases = s.purchases.modify x.purchaseId fun p => { p with
      status := .paid
      paidAt := paidAt
      stripePaymentIntentId := some i })
    (hintents : s'.intents = s.intents.modify i fun x => { x with handled := true }) :
    FeaturedSound s' (Pi.single (.adding, x.purchaseId) 1 + m) := by
  obtain ⟨q, hq, hof⟩ := h.intent hx
  obtain rfl := Option.some.inj (hp.symm.trans hq)
  obtain ⟨hmoves, hadding, htaking⟩ := (h.balanced hp).unsettled hopen
  refine h.rewrite hx hp rfl ?_ ?_ ?_ (fun stage id hid => ?_) hpurchases hintents
  · constructor
    · exact hof.amount
    · exact .inr rfl
    · exact fun _ => ⟨hsucceeded, rfl⟩
    · rfl
    · have hstatus : (p.status == .refunded) = false := by
        cases hs : p.status <;> simp [hs, FeaturedStatus.settled] at hopen ⊢
      exact hof.revoked.trans hstatus
  · simp [FeaturedPurchase.Balanced, hmoves, hadding, htaking]
  · simp [h.uncharged hx]
  · simp [hid]

/-- A paid purchase is claimed back for its intent. -/
theorem FeaturedSound.claimBack {m : FeaturedPending} {i : ℕ} {x : FeaturedIntent}
    {p : FeaturedPurchase} (h : FeaturedSound s m) (hx : s.intents.get? i = some x)
    (hp : s.purchases.get? x.purchaseId = some p) (hpaid : p.status = .paid) {s' : FeaturedBooks}
    (hpurchases : s'.purchases = s.purchases.modify x.purchaseId fun p => { p with
      status := .refunded })
    (hintents : s'.intents = s.intents.modify i fun x => { x with revoked := true }) :
    FeaturedSound s' (Pi.single (.takingBack, x.purchaseId) 1 + m) := by
  obtain ⟨q, hq, hof⟩ := h.intent hx
  obtain rfl := Option.some.inj (hp.symm.trans hq)
  have hbalanced := h.balanced hp
  simp only [FeaturedPurchase.Balanced, hpaid] at hbalanced
  have hsettled : p.status.settled = true := by rw [hpaid]; rfl
  refine h.rewrite hx hp rfl ?_ ?_ ?_ (fun stage id hid => ?_) hpurchases hintents
  · constructor
    · exact hof.amount
    · exact hof.stored
    · exact fun _ => hof.settled hsettled
    · exact hof.handled.trans hsettled
    · rfl
  · obtain ⟨htaking, hmoves⟩ := hbalanced
    simpa [FeaturedPurchase.Balanced, htaking] using hmoves
  · simp [h.uncharged hx]
  · simp [hid]

/-- An answer to a `finalize` whose purchase is settled. -/
theorem FeaturedSound.answered {m : FeaturedPending} {i : ℕ} {x : FeaturedIntent}
    {p : FeaturedPurchase} (h : FeaturedSound s m) (hx : s.intents.get? i = some x)
    (hp : s.purchases.get? x.purchaseId = some p) (hsettled : p.status.settled = true) :
    FeaturedSound (s.answered i) m := by
  obtain ⟨q, hq, hof⟩ := h.intent hx
  obtain rfl := Option.some.inj (hp.symm.trans hq)
  refine h.rewrite (f := fun p => p) (g := fun x => { x with handled := true }) hx hp rfl ?_
    (h.balanced hp) (h.uncharged hx) (fun _ _ _ => rfl) (by rw [Table.modify_id]; rfl) rfl
  exact ⟨hof.amount, hof.stored, hof.settled, hsettled.symm, hof.revoked⟩

/-- An answer to a revocation whose purchase is refunded. -/
theorem FeaturedSound.revokedBy {m : FeaturedPending} {i : ℕ} {x : FeaturedIntent}
    {p : FeaturedPurchase} (h : FeaturedSound s m) (hx : s.intents.get? i = some x)
    (hp : s.purchases.get? x.purchaseId = some p) (hrefunded : p.status = .refunded) :
    FeaturedSound (s.revokedBy i) m := by
  obtain ⟨q, hq, hof⟩ := h.intent hx
  obtain rfl := Option.some.inj (hp.symm.trans hq)
  refine h.rewrite (f := fun p => p) (g := fun x => { x with revoked := true }) hx hp rfl ?_
    (h.balanced hp) (h.uncharged hx) (fun _ _ _ => rfl) (by rw [Table.modify_id]; rfl) rfl
  exact ⟨hof.amount, hof.stored, hof.settled, hof.handled, by rw [hrefunded]; rfl⟩

/-- An intent that is not succeeded moves on. -/
theorem FeaturedSound.setStatus {m : FeaturedPending} {i : ℕ} {g : FeaturedIntent → FeaturedIntent}
    (h : FeaturedSound s m) (hg : ∀ x, s.intents.get? i = some x → (g x).purchaseId = x.purchaseId ∧
      (g x).amount = x.amount ∧ (g x).handled = x.handled ∧ (g x).revoked = x.revoked ∧
      (x.status = .succeeded → (g x).status = .succeeded)) : FeaturedSound (s.setIntent i g) m := by
  cases hx : s.intents.get? i with
  | none =>
    have hsame : s.setIntent i g = s := by
      unfold FeaturedBooks.setIntent
      rw [Table.modify_of_none hx]
    rw [hsame]
    exact h
  | some x =>
    obtain ⟨p, hp, hof⟩ := h.intent hx
    obtain ⟨hid, hamount, hhandled, hrevoked, hstays⟩ := hg x hx
    refine h.rewrite (f := fun p => p) (g := g) hx hp hid ?_ (h.balanced hp) (h.uncharged hx)
      (fun _ _ _ => rfl) (by rw [Table.modify_id]; rfl) rfl
    exact ⟨hamount ▸ hof.amount, hof.stored,
      fun hs => ⟨hstays (hof.settled hs).1, (hof.settled hs).2⟩, hhandled ▸ hof.handled,
      hrevoked ▸ hof.revoked⟩

/-- A new purchase is open, and its intent is yet to be created. -/
theorem FeaturedSound.create {m : FeaturedPending} (h : FeaturedSound s m) (o : FeaturedOrder) :
    FeaturedSound { s with purchases := s.purchases.insert o.purchase }
      (Pi.single (.charging, s.purchases.next) 1 + m) := by
  have hfresh := h.fresh (Table.get?_next s.purchases)
  have hrow : ∀ {id p}, (s.purchases.insert o.purchase).get? id = some p →
      id = s.purchases.next ∧ p = o.purchase ∨
        id ≠ s.purchases.next ∧ s.purchases.get? id = some p := by
    intro id p hp
    rw [Table.get?_insert] at hp
    split at hp
    · next hid => exact .inl ⟨hid, (Option.some.inj hp).symm⟩
    · next hid => exact .inr ⟨hid, hp⟩
  have hne : ∀ {i x}, s.intents.get? i = some x → x.purchaseId ≠ s.purchases.next := by
    intro i x hx
    obtain ⟨p, hp, -⟩ := h.intent hx
    exact Nat.ne_of_lt (Table.lt_next_of_get? hp)
  constructor
  · intro id p hp
    rcases hrow hp with ⟨rfl, rfl⟩ | ⟨-, hp⟩
    · simp [FeaturedPurchase.Balanced, FeaturedOrder.purchase, hfresh]
    · simpa using h.balanced hp
  · intro id p hp hsettled
    rcases hrow hp with ⟨rfl, rfl⟩ | ⟨-, hp⟩
    · cases hsettled
    · exact h.settled hp hsettled
  · intro id p i hp hi
    rcases hrow hp with ⟨rfl, rfl⟩ | ⟨-, hp⟩
    · cases hi
    · exact h.stored hp hi
  · intro i x hx
    obtain ⟨p, hp, hof⟩ := h.intent hx
    exact ⟨p, Table.get?_insert_of_some _ hp, hof⟩
  · exact h.one
  · intro id
    by_cases hid : id = s.purchases.next
    · simp [hid, hfresh]
    · simpa [hid] using h.charging id
  · intro i x hx
    simpa [hne hx] using h.uncharged hx
  · intro id hnone stage
    have hid : id ≠ s.purchases.next := by
      rintro rfl
      simp at hnone
    have hnone' : s.purchases.get? id = none := by
      simpa [Table.get?_insert, hid] using hnone
    simp [hid, h.fresh hnone']

/-- The intent of a purchase is created. -/
theorem FeaturedSound.charge {m : FeaturedPending} {o : FeaturedOrder} {id : ℕ}
    {p : FeaturedPurchase} (h : FeaturedSound s (Pi.single (.charging, id) 1 + m))
    (hp : s.purchases.get? id = some p) (hamount : p.amountCents = o.offer.priceCents) :
    FeaturedSound { s with intents := s.intents.insert (o.intent id) } m := by
  have hnone : m (.charging, id) = 0 := by
    have hle := h.charging id
    simpa using hle
  have huncharged : ∀ {i x}, s.intents.get? i = some x → x.purchaseId ≠ id := by
    intro i x hx hid
    have hzero := h.uncharged hx
    simp [hid] at hzero
  have hopen : p.stripePaymentIntentId = none := by
    rw [Option.eq_none_iff_forall_ne_some]
    intro i hi
    obtain ⟨x, hx, hid⟩ := h.stored hp hi
    exact huncharged hx hid
  have hstatus : p.status.settled = false := by
    rw [Bool.eq_false_iff]
    intro hs
    have hsome := h.settled hp hs
    rw [hopen] at hsome
    cases hsome
  have hread : ∀ {i x}, (s.intents.insert (o.intent id)).get? i = some x →
      i = s.intents.next ∧ x = o.intent id ∨ i ≠ s.intents.next ∧ s.intents.get? i = some x := by
    intro i x hx
    rw [Table.get?_insert] at hx
    split at hx
    · next hi => exact .inl ⟨hi, (Option.some.inj hx).symm⟩
    · next hi => exact .inr ⟨hi, hx⟩
  have hstages : ∀ {stage j}, stage ≠ .charging → m (stage, j) =
      (Pi.single (.charging, id) 1 + m : FeaturedPending) (stage, j) := by
    intro stage j hstage
    simp [hstage]
  constructor
  · intro j q hq
    rw [hstages (by decide), hstages (by decide)]
    exact h.balanced hq
  · exact h.settled
  · intro j q i hq hi
    obtain ⟨x, hx, hid⟩ := h.stored hq hi
    exact ⟨x, Table.get?_insert_of_some _ hx, hid⟩
  · intro i x hx
    rcases hread hx with ⟨rfl, rfl⟩ | ⟨-, hx⟩
    · refine ⟨p, hp, hamount.le, .inl hopen, fun hs => ?_, hstatus.symm, ?_⟩
      · rw [hstatus] at hs
        cases hs
      · cases hs : p.status <;> simp [hs, FeaturedStatus.settled] at hstatus <;> rfl
    · exact h.intent hx
  · intro i j x y hx hy heq
    rcases hread hx with ⟨rfl, rfl⟩ | ⟨-, hx⟩
    · rcases hread hy with ⟨rfl, rfl⟩ | ⟨-, hy⟩
      · rfl
      · exact absurd heq.symm (huncharged hy)
    · rcases hread hy with ⟨rfl, rfl⟩ | ⟨-, hy⟩
      · exact absurd heq (huncharged hx)
      · exact h.one hx hy heq
  · intro j
    exact le_trans (by simp) (h.charging j)
  · intro i x hx
    rcases hread hx with ⟨rfl, rfl⟩ | ⟨-, hx⟩
    · exact hnone
    · have hzero := h.uncharged hx
      simpa [huncharged hx] using hzero
  · intro j hj stage
    have hzero := h.fresh hj stage
    simp only [Pi.add_apply, Nat.add_eq_zero_iff] at hzero
    exact hzero.2

/-- The intent of a purchase is not created. -/
theorem FeaturedSound.uncharge {m : FeaturedPending} {id : ℕ}
    (h : FeaturedSound s (Pi.single (.charging, id) 1 + m)) : FeaturedSound s m := by
  have hstages : ∀ {stage j}, stage ≠ .charging → m (stage, j) =
      (Pi.single (.charging, id) 1 + m : FeaturedPending) (stage, j) := by
    intro stage j hstage
    simp [hstage]
  have hle : ∀ stage j, m (stage, j) ≤ (Pi.single (.charging, id) 1 + m : FeaturedPending)
      (stage, j) := fun stage j => by simp
  constructor
  · intro j q hq
    rw [hstages (by decide), hstages (by decide)]
    exact h.balanced hq
  · exact h.settled
  · exact h.stored
  · exact h.intent
  · exact h.one
  · exact fun j => (hle _ j).trans (h.charging j)
  · exact fun hx => Nat.eq_zero_of_le_zero ((hle _ _).trans_eq (h.uncharged hx))
  · exact fun hj stage => Nat.eq_zero_of_le_zero ((hle _ _).trans_eq (h.fresh hj stage))

/-- The days of a purchase are added. -/
theorem FeaturedSound.add {m : FeaturedPending} {id : ℕ} {seen : FeaturedPurchase}
    (h : FeaturedSound s (Pi.single (.adding, id) 1 + m)) (f : Option ℤ → Option ℤ) :
    FeaturedSound (s.move id seen .added f) m := by
  refine h.repurchase (f := fun p => { p with moves := p.moves ++ [.added] })
    (fun p hp => ⟨rfl, rfl, rfl, rfl, ?_⟩) (fun j => by simp) (fun stage j hj => ?_) rfl rfl
  · have hbalanced := h.balanced hp
    unfold FeaturedPurchase.Balanced at hbalanced ⊢
    cases hstatus : p.status <;> simp [hstatus] at hbalanced ⊢
    · exact ⟨hbalanced.1, hbalanced.2⟩
    · exact .inl hbalanced
  · rcases hj with hj | hnone
    · simp [hj]
    · have hzero := h.fresh hnone .adding
      simp at hzero

/-- The days of a purchase are taken back, once they are there. -/
theorem FeaturedSound.takeBack {m : FeaturedPending} {id : ℕ} {seen : FeaturedPurchase}
    (h : FeaturedSound s (Pi.single (.takingBack, id) 1 + m))
    (hthere : ∀ p, s.purchases.get? id = some p → p.moves.contains .added = true)
    (f : Option ℤ → Option ℤ) : FeaturedSound (s.move id seen .takenBack f) m := by
  refine h.repurchase (f := fun p => { p with moves := p.moves ++ [.takenBack] })
    (fun p hp => ⟨rfl, rfl, rfl, rfl, ?_⟩) (fun j => by simp) (fun stage j hj => ?_) rfl rfl
  · have hbalanced := h.balanced hp
    have hmem := hthere p hp
    unfold FeaturedPurchase.Balanced at hbalanced ⊢
    cases hstatus : p.status <;> simp [hstatus] at hbalanced ⊢
    rcases hbalanced with ⟨hmoves, -, -⟩ | ⟨hmoves, hadding, htaking⟩
    · simp [hmoves] at hmem
    · simp [hmoves, hadding, htaking]
  · rcases hj with hj | hnone
    · simp [hj]
    · have hzero := h.fresh hnone .takingBack
      simp at hzero

end Steps

section Runs

variable {s : FeaturedBooks} {site : FeaturedSite}

open FeaturedCall

theorem FeaturedCall.keeps {k : Bool} {c : FeaturedCall} {r : FeaturedBooks × Option FeaturedCall}
    (hkeeps : c.keepsPaid s = true) (hr : (featuredCalls site).step k c s = some r) :
    featuredInv.Keeps s (some c) r := by
  obtain rfl := Option.some.inj hr
  intro m hsound hmine
  have hknown := hmine c rfl
  -- a step that ends, or goes on in a call with nothing pending, where nothing was pending
  have hstay : ∀ c' : Option FeaturedCall, c.pending = 0 → (∀ a ∈ c', a.pending = 0 ∧ a.Known s) →
      featuredInv.Kept s (some c) m s c' := by
    intro c' hnone hc'
    refine featuredInv_stay hsound ?_ fun a ha => (hc' a ha).2
    cases c' with
    | none => exact hnone.symm
    | some a => exact (hc' a rfl).1.trans hnone.symm
  cases c with
  | looking o =>
    simp only [step]
    split
    · exact hstay _ rfl fun a ha => by cases ha; exact ⟨rfl, trivial⟩
    · split
      · exact hstay _ rfl fun a ha => by cases ha; exact ⟨rfl, trivial⟩
      · exact hstay _ rfl fun a ha => by cases ha; exact ⟨rfl, trivial⟩
  | retrieving o id p i =>
    simp only [step]
    split
    · exact hstay _ rfl fun a ha => by cases ha
    · next x hx =>
      split
      · next hstatus => exact hstay _ rfl fun a ha => by cases ha; exact ⟨rfl, x, hx, hstatus⟩
      · split
        · exact hstay _ rfl fun a ha => by cases ha
        · split
          · exact hstay _ rfl fun a ha => by cases ha; exact ⟨rfl, trivial⟩
          · exact hstay _ rfl fun a ha => by cases ha; exact ⟨rfl, trivial⟩
  | canceling o id i =>
    simp only [step]
    split
    · refine featuredInv_kept (hsound.setStatus fun x _ => ⟨rfl, rfl, rfl, rfl, fun hs => ?_⟩) ?_
        fun a ha => by cases ha; exact trivial
      · simp [hs]
      · refine ⟨.refl FeaturedPurchase.Stays.refl _,
          .modify FeaturedIntent.Stays.refl fun x _ => ⟨rfl, fun hs => ?_⟩⟩
        simp [hs]
    · exact hstay _ rfl fun a ha => by cases ha; exact ⟨rfl, trivial⟩
  | overwriting o id =>
    have hopen : ∀ p, s.purchases.get? id = some p → p.status.settled = false := by
      intro p hp
      simpa [keepsPaid, hp] using hkeeps
    refine featuredInv_kept ?_ ?_ fun a ha => by cases ha; exact trivial
    · refine hsound.repurchase (f := fun p => { p with status := .canceled })
        (fun p hp => ⟨rfl, rfl, (hopen p hp).symm, ?_, ?_⟩) (fun _ => rfl) (fun _ _ _ => rfl) rfl rfl
      · have hstatus := hopen p hp
        cases hs : p.status <;> simp [hs, FeaturedStatus.settled] at hstatus <;> rfl
      · exact (hsound.balanced hp).unsettled (hopen p hp)
    · refine ⟨.modify FeaturedPurchase.Stays.refl fun p hp => ⟨rfl, fun hs => ?_⟩,
        .refl FeaturedIntent.Stays.refl _⟩
      rw [hopen p hp] at hs
      cases hs
  | creating o =>
    have hsound' : FeaturedSound s m := by simpa [featuredInv, pending] using hsound
    refine featuredInv_kept (hsound'.create o)
      ⟨.insert FeaturedPurchase.Stays.refl _ _, .refl FeaturedIntent.Stays.refl _⟩ fun a ha => ?_
    cases ha
    exact ⟨o.purchase, Table.get?_insert_self _ _, rfl⟩
  | charging o id =>
    obtain ⟨p, hp, hamount⟩ := hknown
    simp only [step]
    split
    · refine featuredInv_kept ?_
        ⟨.refl FeaturedPurchase.Stays.refl _, .insert FeaturedIntent.Stays.refl _ _⟩ fun a ha => ?_
      · simpa [featuredInv, pending] using hsound.charge hp hamount
      · cases ha
        exact ⟨o.intent id, Table.get?_insert_self _ _, rfl⟩
    · refine featuredInv_kept ?_ (.refl s) fun a ha => by cases ha
      simpa [featuredInv, pending] using hsound.uncharge
  | saving id i =>
    obtain ⟨x, hx, rfl⟩ := hknown
    have hsound' : FeaturedSound s m := by simpa [featuredInv, pending] using hsound
    obtain ⟨p, hp, hof⟩ := hsound'.intent hx
    have hbalanced := hsound'.balanced hp
    refine featuredInv_kept ?_ ⟨.modify FeaturedPurchase.Stays.refl fun p _ => ⟨rfl, fun h => h⟩,
      .refl FeaturedIntent.Stays.refl _⟩ fun a ha => by cases ha
    simp only [step, CallInv.weigh_none, zero_add]
    refine hsound'.rewrite (f := fun p => { p with stripePaymentIntentId := some i })
      (g := fun x => x) hx hp rfl ?_ hbalanced (hsound'.uncharged hx)
      (fun _ _ _ => rfl) rfl (by rw [Table.modify_id]; rfl)
    exact ⟨hof.amount, .inr rfl, fun hs => ⟨(hof.settled hs).1, rfl⟩, hof.handled, hof.revoked⟩
  | confirming i =>
    simp only [step]
    split
    · next hany =>
      obtain ⟨x, hx, hstatus⟩ := (Option.any_eq_true _ _).1 hany
      exact hstay _ rfl fun a ha => by cases ha; exact ⟨rfl, x, hx, beq_iff_eq.1 hstatus⟩
    · exact hstay _ rfl fun a ha => by cases ha
  | finalizing i =>
    obtain ⟨x, hx, hstatus⟩ := hknown
    obtain ⟨p, hp, hof⟩ := hsound.intent hx
    simp only [step, hx, hp]
    split
    · next hends =>
      -- the intent is of the purchase, so that this one is settled
      have hmatch : x.mismatch i p = false := by
        have hid : p.stripePaymentIntentId.any (· != i) = false := by
          rcases hof.stored with hnone | hsome
          · simp [hnone]
          · simp [hsome]
        simp [FeaturedIntent.mismatch, hid, hof.amount]
      rw [hmatch, Bool.or_false] at hends
      refine featuredInv_kept (hsound.answered hx hp hends) ⟨.refl FeaturedPurchase.Stays.refl _,
        .modify FeaturedIntent.Stays.refl fun x _ => ⟨rfl, fun h => h⟩⟩ fun a ha => by cases ha
    · exact hstay _ rfl fun a ha => by cases ha; exact ⟨rfl, x, hx, hstatus, rfl⟩
  | claiming i id seen =>
    obtain ⟨x, hx, hstatus, rfl⟩ := hknown
    have hsound' : FeaturedSound s m := by simpa [featuredInv, pending] using hsound
    simp only [step]
    split
    · next hnone =>
      obtain ⟨p, hp, hof⟩ := hsound'.intent hx
      have hsettled := Table.tryModify_eq_none.1 hnone p hp
      rw [Bool.not_eq_false'] at hsettled
      refine featuredInv_kept ?_ ⟨.refl FeaturedPurchase.Stays.refl _,
        .modify FeaturedIntent.Stays.refl fun x _ => ⟨rfl, fun h => h⟩⟩ fun a ha => by cases ha
      rw [CallInv.weigh_none, zero_add]
      exact hsound'.answered hx hp hsettled
    · next purchases hsome =>
      obtain ⟨p, hp, hopen, rfl⟩ := Table.tryModify_eq_some.1 hsome
      refine featuredInv_kept (hsound'.claim hx hp hstatus (by simpa using hopen) rfl rfl)
        ⟨.modify FeaturedPurchase.Stays.refl fun p _ => ⟨rfl, fun _ => rfl⟩,
          .modify FeaturedIntent.Stays.refl fun x _ => ⟨rfl, fun h => h⟩⟩ fun a ha => ?_
      cases ha
      exact trivial
  | adding id seen =>
    have hadded : FeaturedSound (s.move id seen .added (addDays s.now seen.days)) m := hsound.add _
    refine featuredInv_kept ?_ ⟨.modify FeaturedPurchase.Stays.refl fun p _ => ⟨rfl, fun h => h⟩,
      .refl FeaturedIntent.Stays.refl _⟩ fun a ha => by cases ha; exact trivial
    simpa [featuredInv, pending, step] using hadded
  | dating id featuredUntil =>
    have hbalanced : ∀ p, s.purchases.get? id = some p → p.Balanced _ _ :=
      fun p hp => hsound.balanced hp
    refine featuredInv_kept ?_ ⟨.modify FeaturedPurchase.Stays.refl fun p _ => ⟨rfl, fun h => h⟩,
      .refl FeaturedIntent.Stays.refl _⟩ fun a ha => by cases ha
    exact hsound.repurchase (f := fun p => { p with featuredUntil := featuredUntil })
      (fun p hp => ⟨rfl, rfl, rfl, rfl, hbalanced p hp⟩) (fun _ => rfl) (fun _ _ _ => rfl) rfl rfl
  | revoking i =>
    obtain ⟨x, hx, hstatus⟩ := hknown
    obtain ⟨p, hp, hof⟩ := hsound.intent hx
    have hsettled : p.status.settled = true := by simpa [keepsPaid, hx, hp] using hkeeps
    -- the only purchase with the intent is its own
    have hfind : s.purchases.find? (fun _ p => p.stripePaymentIntentId == some i) =
        some (x.purchaseId, p) := by
      cases hfound : s.purchases.find? fun _ p => p.stripePaymentIntentId == some i with
      | none =>
        have hnot := Table.find?_none.1 hfound _ p hp
        simp [(hof.settled hsettled).2] at hnot
      | some found =>
        obtain ⟨id, q⟩ := found
        obtain ⟨hq, hi⟩ := Table.find?_some hfound
        obtain ⟨y, hy, rfl⟩ := hsound.stored hq (beq_iff_eq.1 hi)
        obtain rfl := Option.some.inj (hx.symm.trans hy)
        obtain rfl := Option.some.inj (hp.symm.trans hq)
        rfl
    simp only [step, hfind]
    split
    · exact hstay _ rfl fun a ha => by cases ha; exact ⟨rfl, x, p, hx, rfl, hp, hsettled⟩
    · next hnot =>
      have hrefunded : p.status = .refunded := by
        cases hs : p.status <;> simp [hs, FeaturedStatus.settled] at hsettled hnot ⊢
      refine featuredInv_kept (hsound.revokedBy hx hp hrefunded)
        ⟨.refl FeaturedPurchase.Stays.refl _,
          .modify FeaturedIntent.Stays.refl fun x _ => ⟨rfl, fun h => h⟩⟩ fun a ha => by cases ha
  | claimingBack i id seen =>
    obtain ⟨x, p, hx, rfl, hp, hsettled⟩ := hknown
    have hsound' : FeaturedSound s m := by simpa [featuredInv, pending] using hsound
    simp only [step]
    split
    · next hnone =>
      have hnot := Table.tryModify_eq_none.1 hnone p hp
      have hrefunded : p.status = .refunded := by
        cases hs : p.status <;> simp [hs, FeaturedStatus.settled] at hsettled hnot ⊢
      refine featuredInv_kept ?_ ⟨.refl FeaturedPurchase.Stays.refl _,
        .modify FeaturedIntent.Stays.refl fun x _ => ⟨rfl, fun h => h⟩⟩ fun a ha => by cases ha
      rw [CallInv.weigh_none, zero_add]
      exact hsound'.revokedBy hx hp hrefunded
    · next purchases hsome =>
      obtain ⟨q, hq, hpaid, rfl⟩ := Table.tryModify_eq_some.1 hsome
      refine featuredInv_kept (hsound'.claimBack hx hq (beq_iff_eq.1 hpaid) rfl rfl)
        ⟨.modify FeaturedPurchase.Stays.refl fun p _ => ⟨rfl, fun _ => rfl⟩,
          .modify FeaturedIntent.Stays.refl fun x _ => ⟨rfl, fun h => h⟩⟩ fun a ha => ?_
      cases ha
      exact trivial
  | takingBack id seen =>
    have hthere : ∀ p, s.purchases.get? id = some p → p.moves.contains .added = true := by
      intro p hp
      simpa [keepsPaid, hp] using hkeeps
    have htaken : FeaturedSound (s.move id seen .takenBack (takeDays s.now seen.days)) m :=
      FeaturedSound.takeBack hsound hthere _
    refine featuredInv_kept ?_ ⟨.modify FeaturedPurchase.Stays.refl fun p _ => ⟨rfl, fun h => h⟩,
      .refl FeaturedIntent.Stays.refl _⟩ fun a ha => by cases ha
    simpa [featuredInv, pending, step] using htaken

theorem FeaturedEvent.keeps {e : FeaturedEvent} {r : FeaturedBooks × Option FeaturedCall}
    (hr : (featuredCalls site).event e s = some r) : featuredInv.Keeps s none r := by
  intro m hsound _
  have hbegin : ∀ c' : Option FeaturedCall, (∀ a ∈ c', a.pending = 0 ∧ a.Known s) →
      featuredInv.Kept s none m s c' := by
    intro c' hc'
    refine featuredInv_stay hsound ?_ fun a ha => (hc' a ha).2
    cases c' with
    | none => rfl
    | some a => exact (hc' a rfl).1
  simp only [featuredCalls] at hr
  cases e with
  | start userId ownerType ownerId =>
    obtain rfl := Option.some.inj hr
    refine hbegin _ fun a ha => ?_
    obtain ⟨t, -, rfl⟩ := Option.map_eq_some_iff.1 ha
    exact ⟨rfl, trivial⟩
  | confirm userId purchaseId =>
    obtain rfl := Option.some.inj hr
    refine hbegin _ fun a ha => ?_
    obtain ⟨i, -, rfl⟩ := Option.map_eq_some_iff.1 ha
    exact ⟨rfl, trivial⟩
  | deliver i =>
    obtain ⟨hsucceeded, hr⟩ := Option.ite_none_right_eq_some.1 hr
    obtain rfl := Option.some.inj hr
    obtain ⟨x, hx, hstatus⟩ := (Option.any_eq_true _ _).1 hsucceeded
    exact hbegin _ fun a ha => by cases ha; exact ⟨rfl, x, hx, beq_iff_eq.1 hstatus⟩
  | revoke i =>
    obtain ⟨hsucceeded, hr⟩ := Option.ite_none_right_eq_some.1 hr
    obtain rfl := Option.some.inj hr
    obtain ⟨x, hx, hstatus⟩ := (Option.any_eq_true _ _).1 hsucceeded
    exact hbegin _ fun a ha => by cases ha; exact ⟨rfl, x, hx, beq_iff_eq.1 hstatus⟩
  | approve i =>
    obtain ⟨-, hr⟩ := Option.ite_none_right_eq_some.1 hr
    obtain rfl := Option.some.inj hr
    refine featuredInv_kept ?_ ⟨.refl FeaturedPurchase.Stays.refl _,
      .modify FeaturedIntent.Stays.refl fun x _ => ⟨rfl, fun _ => rfl⟩⟩ fun a ha => by cases ha
    exact hsound.setStatus fun x _ => ⟨rfl, rfl, rfl, rfl, fun _ => rfl⟩
  | setPricing offer =>
    obtain rfl := Option.some.inj hr
    refine featuredInv_kept ?_ ⟨.refl FeaturedPurchase.Stays.refl _,
      .refl FeaturedIntent.Stays.refl _⟩ fun a ha => by cases ha
    exact ⟨hsound.balanced, hsound.settled, hsound.stored, hsound.intent, hsound.one,
      hsound.charging, hsound.uncharged, hsound.fresh⟩
  | pass time =>
    obtain rfl := Option.some.inj hr
    refine featuredInv_kept ?_ ⟨.refl FeaturedPurchase.Stays.refl _,
      .refl FeaturedIntent.Stays.refl _⟩ fun a ha => by cases ha
    exact ⟨hsound.balanced, hsound.settled, hsound.stored, hsound.intent, hsound.one,
      hsound.charging, hsound.uncharged, hsound.fresh⟩

/-- Before the first purchase. -/
structure FeaturedBooks.Start (s : FeaturedBooks) : Prop where
  purchases : s.purchases = .empty
  intents : s.intents = .empty

theorem FeaturedBooks.Start.sound (hs : s.Start) : FeaturedSound s 0 := by
  constructor
  · intro id p hp
    rw [hs.purchases] at hp
    cases hp
  · intro id p hp
    rw [hs.purchases] at hp
    cases hp
  · intro id p i hp
    rw [hs.purchases] at hp
    cases hp
  · intro i x hx
    rw [hs.intents] at hx
    cases hx
  · intro i j x y hx
    rw [hs.intents] at hx
    cases hx
  · exact fun _ => Nat.zero_le 1
  · exact fun _ => rfl
  · exact fun _ _ => rfl

/-- What is done for a purchase is that its days are added, and then taken back. -/
theorem FeaturedPurchase.Balanced.moves {p : FeaturedPurchase} {a t : ℕ} (h : p.Balanced a t) :
    p.moves <+: [.added, .takenBack] := by
  unfold Balanced at h
  cases hs : p.status <;> simp only [hs] at h
  · rw [h.1]
    exact List.nil_prefix
  · rcases h.2 with ⟨hmoves, -⟩ | ⟨hmoves, -⟩
    · rw [hmoves]
      exact List.nil_prefix
    · rw [hmoves]
      exact ⟨[.takenBack], rfl⟩
  · rw [h.1]
    exact List.nil_prefix
  · rcases h with ⟨hmoves, -⟩ | ⟨hmoves, -⟩ | ⟨hmoves, -⟩
    · rw [hmoves]
      exact List.nil_prefix
    · rw [hmoves]
      exact ⟨[.takenBack], rfl⟩
    · exact hmoves ▸ List.prefix_rfl

/-- At rest, a purchase and its intent meet the law. -/
theorem FeaturedIntent.Of.once {x : FeaturedIntent} {i : ℕ} {p : FeaturedPurchase} (h : x.Of i p)
    (hbalanced : p.Balanced 0 0) : FeaturedOnce x p := by
  have hhandled := h.handled
  have hrevoked := h.revoked
  have hsettled := h.settled
  unfold FeaturedPurchase.Balanced at hbalanced
  constructor
  · intro hx
    rw [hx] at hhandled
    have hsucceeded := (hsettled hhandled.symm).1
    cases hs : p.status <;> simp [hs, FeaturedStatus.settled] at hhandled hbalanced hrevoked
    · simp [hsucceeded, hbalanced, hrevoked]
    · simp [hsucceeded, hbalanced, hrevoked]
  · intro hx
    rw [hx] at hhandled
    cases hs : p.status <;> simp [hs, FeaturedStatus.settled] at hhandled hbalanced hrevoked
    · exact ⟨hbalanced, hrevoked⟩
    · exact ⟨hbalanced, hrevoked⟩

/-- In every run whose steps meet `keepsPaid`: the days of a purchase are added at most once, and
then taken back at most once; at rest, exactly as its intent was handled and revoked. -/
theorem featured_bought_once {moves : List (Move FeaturedEvent Bool)}
    {x : Calls FeaturedBooks FeaturedCall} (hs : s.Start)
    (hmeets : (featuredCalls site).machine.Meets (CallSystem.When (fun _ _ => True)
      fun _ c s => c.keepsPaid s = true) (.idle s) moves)
    (hrun : (featuredCalls site).machine.run (.idle s) moves = some x) :
    (∀ {id p}, x.shared.purchases.get? id = some p → p.moves <+: [.added, .takenBack]) ∧
      (x.quiet = true → ∀ {i intent}, x.shared.intents.get? i = some intent →
        ∃ p, x.shared.purchases.get? intent.purchaseId = some p ∧ FeaturedOnce intent p) := by
  have hidle : featuredInv.Holds (.idle s) := CallInv.holds_idle hs.sound
  have hend := hidle.run (fun _ he => FeaturedEvent.keeps he) (fun hk hc => FeaturedCall.keeps hk hc)
    hmeets hrun
  refine ⟨fun hp => (hend.whole.balanced hp).moves, fun hquiet i intent hi => ?_⟩
  have hsound : FeaturedSound x.shared 0 := hend.quiet hquiet
  obtain ⟨p, hp, hof⟩ := hsound.intent hi
  exact ⟨p, hp, hof.once (hsound.balanced hp)⟩

end Runs

/-! ## Two runs -/

/-- Every unit is listed, and its manager is the user of its number. -/
def listedShops : FeaturedSite where
  manages userId shop := userId == shop
  listed _ := some true
  professional _ := none

def noPurchases : FeaturedBooks where
  now := 0
  offer _ := ⟨4900, 30⟩
  purchases := .empty
  intents := .empty
  featuredUntil _ _ := none

theorem noPurchases_start : noPurchases.Start := ⟨rfl, rfl⟩

/-- A tab of the manager of unit 1, of so many steps. -/
def buys (i n : ℕ) : List (Move FeaturedEvent Bool) :=
  .event (.start 1 .barbershop (some 1)) :: List.replicate n (.step i true)

def delivered (i n : ℕ) : List (Move FeaturedEvent Bool) :=
  .event (.deliver 1) :: List.replicate n (.step i true)

/-- A purchase is paid, delivered twice and revoked. -/
def boughtAndRevoked : List (Move FeaturedEvent Bool) :=
  buys 1 4 ++ .event (.approve 1) :: delivered 2 4 ++ delivered 3 1 ++ .event (.revoke 1) ::
    List.replicate 3 (.step 4 true)

theorem boughtAndRevoked_once : ∃ x intent p,
    (featuredCalls listedShops).machine.run (.idle noPurchases) boughtAndRevoked = some x ∧
      x.shared.intents.get? 1 = some intent ∧ intent.handled = true ∧ intent.revoked = true ∧
      x.shared.purchases.get? intent.purchaseId = some p ∧ FeaturedOnce intent p := by
  have hmeets : (featuredCalls listedShops).machine.Meets (CallSystem.When (fun _ _ => True)
      fun _ c s => c.keepsPaid s = true) (.idle noPurchases) boughtAndRevoked := by
    decide +kernel
  have hsome : ((featuredCalls listedShops).machine.run (.idle noPurchases) boughtAndRevoked).any
      (fun x => x.quiet && (x.shared.intents.get? 1).any fun intent =>
        intent.handled && intent.revoked) = true := by
    decide +kernel
  obtain ⟨x, hrun, hx⟩ := (Option.any_eq_true _ _).1 hsome
  rw [Bool.and_eq_true, Option.any_eq_true] at hx
  obtain ⟨hquiet, intent, hintent, hmarks⟩ := hx
  rw [Bool.and_eq_true] at hmarks
  obtain ⟨p, hp, honce⟩ :=
    (featured_bought_once noPurchases_start hmeets hrun).2 hquiet hintent
  exact ⟨x, intent, p, hrun, hintent, hmarks.1, hmarks.2, hp, honce⟩

/-- The price changes while a purchase is open. A second tab has read the open intent and is about
to replace the purchase when it is paid and delivered; its update comes after. Stripe delivers the
payment again. -/
def paidWhileReplaced : List (Move FeaturedEvent Bool) :=
  buys 1 4 ++ .event (.setPricing fun _ => ⟨5900, 30⟩) :: buys 2 2 ++ .event (.approve 1) ::
    delivered 3 4 ++ List.replicate 5 (.step 2 true) ++ delivered 4 4

theorem paidWhileReplaced_twice : noPurchases.Start ∧ ∃ x intent p,
    (featuredCalls listedShops).machine.run (.idle noPurchases) paidWhileReplaced = some x ∧
      x.quiet = true ∧ x.shared.intents.get? 1 = some intent ∧
      x.shared.purchases.get? intent.purchaseId = some p ∧ p.moves = [.added, .added] ∧
      x.shared.featuredUntil .barbershop 1 = some (60 * oneDay) ∧ ¬ FeaturedOnce intent p := by
  have hsome : ((featuredCalls listedShops).machine.run (.idle noPurchases)
      paidWhileReplaced).any (fun x => x.quiet &&
        x.shared.featuredUntil .barbershop 1 == some (60 * oneDay) &&
        (x.shared.intents.get? 1).any fun intent => intent.handled && !intent.revoked &&
          (x.shared.purchases.get? intent.purchaseId).any fun p =>
            p.moves == [.added, .added]) = true := by
    decide +kernel
  obtain ⟨x, hrun, hx⟩ := (Option.any_eq_true _ _).1 hsome
  simp only [Bool.and_eq_true, Option.any_eq_true, Bool.not_eq_true', beq_iff_eq] at hx
  obtain ⟨⟨hquiet, huntil⟩, intent, hintent, ⟨hhandled, hrevoked⟩, p, hp, hmoves⟩ := hx
  refine ⟨noPurchases_start, x, intent, p, hrun, hquiet, hintent, hp, hmoves, huntil, fun h => ?_⟩
  have hbought := (h.bought hhandled).2.1
  rw [hmoves, hrevoked] at hbought
  cases hbought

end Barbershop
