import Barbershop.Rent.Payment

/-!
# The terms of the rent

What a professional pays for the chair is in two places: the amount of the link, and the price of the
subscription in Stripe. The space sets the amount, lowers it or proposes to raise it; the professional
answers a proposal and authorises the subscription; Stripe tells when a subscription has ended. Each
call reads the link once and goes by what it read, over several writes to Stripe and to the link.

The state is one link, with the prices and subscriptions that Stripe has for it.
-/

namespace Barbershop

open Lib

/-! ## Rows -/

inductive LinkStatus where
  | pending | active | declined | cancelled | removed
  deriving DecidableEq

/-- `RentBillingMode` -/
inductive RentBillingMode where
  | card | manual
  deriving DecidableEq

/-- The link with the terms of its rent; prices and subscriptions are keys of Stripe's. -/
structure RentTerms extends RentLink where
  status : LinkStatus
  rentAmount : Option ℚ
  rentBillingMode : RentBillingMode
  rentStripePriceId : Option ℕ
  rentStripeSubscriptionId : Option ℕ
  rentStartedAt : Option ℤ
  rentPendingAmount : Option ℚ
  rentPendingAt : Option ℤ

inductive RentSubStatus where
  | incomplete | active | pastDue | canceled | incompleteExpired
  deriving DecidableEq

/-- A subscription that Stripe may still charge. -/
def RentSubStatus.live : RentSubStatus → Bool
  | incomplete | active | pastDue => true
  | canceled | incompleteExpired => false

/-- `key` is the price in the idempotency key it was created with. -/
structure RentSub where
  price : ℕ
  status : RentSubStatus
  key : ℕ

/-- `prices` are the amounts of Stripe's prices; `locked` is the advisory lock of the link; `accepted`
are the increases that were accepted, kept beside the rows. -/
structure RentDeal where
  link : RentTerms
  prices : Table ℤ
  subs : Table RentSub
  locked : Bool
  accepted : List ℚ

def MIN_RENT : ℚ := 1

def MAX_RENT : ℚ := 100000

namespace RentDeal

variable (s : RentDeal)

/-- What Stripe charges for a subscription. -/
def priceOf (id : ℕ) : Option ℤ := (s.subs.get? id).bind fun sub => s.prices.get? sub.price

def lives (id : ℕ) : Bool := (s.subs.get? id).any (·.status.live)

/-- `updateSubscription` with a price; Stripe changes no subscription that has ended. -/
def reprice (id price : ℕ) : Option RentDeal :=
  (s.subs.tryModify id (·.status.live) ({ · with price := price })).map fun t => { s with subs := t }

/-- `cancelSubscription`; one that has ended is missing to Stripe, which the caller ignores. -/
def cancelSubscription (id : ℕ) : RentDeal :=
  { s with subs := s.subs.modify id fun sub =>
      if sub.status.live then { sub with status := .canceled } else sub }

def setLink (f : RentTerms → RentTerms) : RentDeal := { s with link := f s.link }

def unlock : RentDeal := { s with locked := false }

end RentDeal

/-! ## The host sets the rent -/

/-- What the price of a subscription changes to: the host's amount, or an increase the professional
accepted. -/
inductive RentChange where
  | set (cents : ℤ)
  | accepted (pending : ℚ)

section Currency

/- The currency of the host. -/
variable (currency : String)

/-- `link.rentCurrency ?? link.host.currency` -/
def RentTerms.currencyOr (link : RentTerms) : String := link.rentCurrency.getD currency

namespace RentChange

def cents (seen : RentTerms) : RentChange → ℤ
  | set cents => cents
  | accepted pending => toMinorUnits pending (seen.currencyOr currency)

/-- What the link is given with the change; `price` is the new price of its subscription. -/
def save (seen : RentTerms) (price : Option ℕ) (by' : RentChange) (link : RentTerms) : RentTerms :=
  match by' with
  | set cents => { link with
      rentAmount := some (fromMinorUnits cents currency)
      rentCurrency := some currency
      rentStripePriceId := price
      rentStatus :=
        if seen.rentStripeSubscriptionId.isSome then seen.rentStatus else .awaitingPayment
      rentPendingAmount := none
      rentPendingAt := none }
  | accepted pending => { link with
      rentAmount := some pending
      rentStripePriceId := price }

end RentChange

namespace RentTerms

/-- The rent ends. -/
def clear (link : RentTerms) : RentTerms :=
  { link with
    rentAmount := none
    rentStripePriceId := none
    rentStatus := .none
    rentStartedAt := none
    rentPendingAmount := none
    rentPendingAt := none }

/-- The rent is paid to the host from now on; `today` is the day it begins. -/
def toManual (seen : RentTerms) (cents today : ℤ) (link : RentTerms) : RentTerms :=
  { link with
    rentAmount := some (fromMinorUnits cents currency)
    rentCurrency := some currency
    rentBillingMode := .manual
    rentStripePriceId := none
    rentStatus := .active
    rentPendingAmount := none
    rentPendingAt := none
    rentStartedAt :=
      if seen.rentBillingMode = .manual ∧ seen.rentStartedAt.isSome then seen.rentStartedAt
      else some today }

/-- The rent is by card again. -/
def toCard (link : RentTerms) : RentTerms :=
  { link with
    rentBillingMode := .card
    rentStartedAt := none
    rentStatus := .none }

def propose (cents now : ℤ) (link : RentTerms) : RentTerms :=
  { link with
    rentPendingAmount := some (fromMinorUnits cents currency)
    rentPendingAt := some now }

/-- What `cancelChairRentsOfBarbershops` leaves. -/
def withoutSubscription (link : RentTerms) : RentTerms :=
  { link with
    rentStripeSubscriptionId := none
    rentStatus := .none }

/-- The amount it has, in minor units; 0 without one. -/
def currentCents (link : RentTerms) : ℤ := link.rentAmount.elim 0 (toMinorUnits · currency)

end RentTerms

/-- The input of `setRent`; a mode that is given may be a text that is none. -/
structure RentInput where
  amount : Option ℚ
  mode : Option (Option RentBillingMode)

/-! ## The calls, step by step -/

/-- What a call that cancels the subscription goes on with. -/
inductive AfterCancel where
  | clear
  | toManual (cents : ℤ)

/-- What the professional authorises with. -/
structure RentCard where
  hasCustomer : Bool
  ownCard : Bool

/-- Where a call is; `seen` is the link that it read. -/
inductive TermsCall where
  | setRent (ctx : Caller) (data : RentInput)
  | findingSub (seen : RentTerms) (after : AfterCancel)
  | canceling (seen : RentTerms) (id : ℕ) (after : AfterCancel)
  | canceled (seen : RentTerms) (after : AfterCancel)
  | ending (seen : RentTerms) (after : AfterCancel)
  | backToCard (seen : RentTerms) (cents : ℤ)
  | proposing (cents : ℤ)
  | pricing (seen : RentTerms) (id : ℕ) (by' : RentChange)
  | repricing (seen : RentTerms) (id price : ℕ) (by' : RentChange)
  | saving (seen : RentTerms) (new : Option (ℕ × ℕ)) (by' : RentChange)
  | respond (ctx : Caller) (accept : Bool)
  | claiming (seen : RentTerms) (pending : ℚ) (accept : Bool)
  | authorize (ctx : Caller) (card : RentCard)
  | locking (ctx : Caller)
  | loading (ctx : Caller)
  | payingInvoice
  | resuming (seen : RentTerms) (id userId : ℕ)
  | activating
  | firstPrice (seen : RentTerms) (userId : ℕ)
  | keepingPrice (seen : RentTerms) (price userId : ℕ)
  | subscribing (seen : RentTerms) (price userId : ℕ)
  | droppingPrice
  | linking (seen : RentTerms) (price id : ℕ) (status : RentSubStatus) (userId : ℕ)
  | deleted (id : ℕ)
  | forgetting (seen : RentTerms)

/-- How a call ends; it fails when Stripe refuses or its transaction is over. -/
inductive TermsEnd where
  | ok
  | refused (r : Refusal)
  | failed

/-- What a step meets: the time and the day of the space, the period that Stripe has been paid to, what
the card's bank says, how a new subscription begins, whether Stripe has forgotten an idempotency key,
whether it answers as it did when the subscription was new, and whether the transaction has been
running for too long. -/
structure TermsChance where
  now : ℤ
  today : ℤ
  paidUntil : ℤ
  declined : Option String
  active : Bool
  keyExpired : Bool
  repeated : Bool
  timesOut : Bool

namespace TermsCall

abbrev Goes := Progress TermsCall TermsEnd

def refuse (r : Refusal) : Goes := .done (.refused r)

/-- The call goes on unless a check threw. -/
def goOn (x : Result TermsCall) : Goes :=
  match x with
  | .error r => refuse r
  | .ok c => .next c

/-- Where `setRent` goes from a link that is by card, for an amount that it has checked. -/
def change (seen : RentTerms) (cents : ℤ) : TermsCall :=
  match seen.rentStripeSubscriptionId with
  | none => saving seen none (.set cents)
  | some id =>
    if seen.currentCents currency < cents then proposing cents else pricing seen id (.set cents)

/-- The checks of `setRent`; `none`: there is nothing to change. -/
def checkSetRent (ctx : Caller) (data : RentInput) (link : RentTerms) :
    Result (Option TermsCall) := do
  ctx.ensureBarbershopAccess .manager
  refuseIf (link.hostBarbershopId ≠ ctx.shop.id) (.notFound "Vínculo não encontrado")
  refuseIf (link.status ≠ .active)
    (.badRequest "O profissional precisa aceitar o convite antes do aluguel")
  match data.amount.filter (· != 0) with
  | none => return some (findingSub link .clear)
  | some amount =>
    refuseIf (amount < MIN_RENT ∨ MAX_RENT < amount)
      (.badRequest "O aluguel precisa ficar entre 1 e 100000")
    let cents := toMinorUnits amount currency
    let mode ← orRefuse (data.mode.getD (some link.rentBillingMode))
      (.badRequest "Forma de cobrança inválida")
    let sameAmount := link.rentAmount.any fun a => toMinorUnits a currency == cents
    if sameAmount = true ∧ mode = link.rentBillingMode ∧ link.rentStatus ≠ .none then return none
    else match mode, link.rentBillingMode with
      | .manual, _ => return some (findingSub link (.toManual cents))
      | .card, .manual => return some (backToCard link cents)
      | .card, .card => return some (change currency link cents)

def checkRespond (ctx : Caller) (accept : Bool) (link : RentTerms) : Result TermsCall := do
  ctx.ensureBarbershopAccess .owner
  refuseIf (link.memberBarbershopId ≠ ctx.shop.id) (.notFound "Vínculo não encontrado")
  let pending ← orRefuse link.rentPendingAmount
    (.badRequest "Não há aumento do aluguel esperando resposta")
  return claiming link pending accept

def checkCard (ctx : Caller) (card : RentCard) : Result TermsCall := do
  ctx.ensureBarbershopAccess .owner
  refuseIf (card.hasCustomer = false) (.badRequest "Salve um cartão antes")
  refuseIf (card.ownCard = false) (.badRequest "Cartão não encontrado na sua conta")
  return locking ctx

/-- `authorize` from a link without a subscription that is left to confirm. -/
def firstCharge (seen : RentTerms) (userId : ℕ) : Result TermsCall := do
  refuseIf (seen.rentStatus ≠ .awaitingPayment ∨ seen.rentAmount = none) (.badRequest
    (if seen.rentStatus = .none then "O espaço ainda não definiu um aluguel"
      else "A cobrança do aluguel já está autorizada"))
  match seen.rentStripePriceId with
  | none => return firstPrice seen userId
  | some price => return subscribing seen price userId

/-- The checks of `authorize` on the link that it reads under the lock. -/
def checkAuthorize (ctx : Caller) (link : RentTerms) : Result TermsCall := do
  refuseIf (link.memberBarbershopId ≠ ctx.shop.id) (.notFound "Vínculo não encontrado")
  refuseIf (link.status ≠ .active) (.badRequest "Esse vínculo não está ativo")
  refuseIf (link.rentBillingMode = .manual)
    (.badRequest "Este aluguel é pago direto ao espaço (PIX, dinheiro ou transferência)")
  match link.rentStripeSubscriptionId, link.rentStatus with
  | some _, .pastDue => return payingInvoice
  | some id, .incomplete => return resuming link id ctx.userId
  | _, _ => firstCharge link ctx.userId

/-- The link as `authorize` goes on with it once a first charge has expired. -/
def expired (seen : RentTerms) : RentTerms :=
  { seen with
    rentStripeSubscriptionId := none
    rentStatus := .awaitingPayment
    rentStripePriceId := none }

/-- A check that ends the transaction of `authorize` gives its lock back. -/
def goOnLocked (x : Result TermsCall) (s : RentDeal) : RentDeal × Goes :=
  match x with
  | .error r => (s.unlock, refuse r)
  | .ok c => (s, .next c)

/-- `createSubscription`: Stripe gives back the subscription it has under the key. -/
def subscribe (k : TermsChance) (price : ℕ) (s : RentDeal) : RentDeal × ℕ × RentSubStatus :=
  let status : RentSubStatus := if k.active then .active else .incomplete
  match if k.keyExpired then none else s.subs.find? fun _ sub => sub.key == price with
  | some (id, sub) => (s, id, if k.repeated then status else sub.status)
  | none => ({ s with subs := s.subs.insert ⟨price, status, price⟩ }, s.subs.next, status)

/-- `none`: the call waits for the lock. -/
def step (k : TermsChance) (c : TermsCall) (s : RentDeal) : Option (RentDeal × Goes) :=
  match c with
  | setRent ctx data => match checkSetRent currency ctx data s.link with
    | .error r => some (s, refuse r)
    | .ok none => some (s, .done .ok)
    | .ok (some c) => some (s, .next c)
  | findingSub seen after => match s.link.rentStripeSubscriptionId with
    | none => some (s, .next (ending seen after))
    | some id => some (s, .next (canceling seen id after))
  | canceling seen id after => some (s.cancelSubscription id, .next (canceled seen after))
  | canceled seen after => some (s.setLink (·.withoutSubscription), .next (ending seen after))
  | ending _ .clear => some (s.setLink (·.clear), .done .ok)
  | ending seen (.toManual cents) =>
    some (s.setLink (RentTerms.toManual currency seen cents k.today), .done .ok)
  | backToCard seen cents =>
    let seen := { seen with rentBillingMode := .card, rentStatus := .none }
    some (s.setLink (·.toCard), .next (change currency seen cents))
  | proposing cents => some (s.setLink (·.propose currency cents k.now), .done .ok)
  | pricing seen id by' =>
    some ({ s with prices := s.prices.insert (by'.cents currency seen) },
      .next (repricing seen id s.prices.next by'))
  | repricing seen id price by' => match s.reprice id price with
    | none => some (s, .done .failed)
    | some s' => some (s', .next (saving seen (some (id, price)) by'))
  | saving seen new by' =>
    some (s.setLink (by'.save currency seen (new.map (·.2))), .done .ok)
  | respond ctx accept => some (s, goOn (checkRespond ctx accept s.link))
  | claiming seen pending accept =>
    if s.link.rentPendingAt = seen.rentPendingAt then
      let s' := s.setLink fun link => { link with rentPendingAmount := none, rentPendingAt := none }
      if accept then
        let s' := { s' with accepted := pending :: s.accepted }
        match seen.rentStripeSubscriptionId with
        | some id => some (s', .next (pricing seen id (.accepted pending)))
        | none => some (s', .next (saving seen none (.accepted pending)))
      else some (s', .done .ok)
    else some (s, refuse (.badRequest "Não há aumento do aluguel esperando resposta"))
  | authorize ctx card => some (s, goOn (checkCard ctx card))
  | locking ctx => if s.locked then none else some ({ s with locked := true }, .next (loading ctx))
  | loading ctx => some (goOnLocked (checkAuthorize ctx s.link) s)
  | payingInvoice => match k.declined with
    | some message =>
      some (s.unlock, refuse (.badRequest s!"O cartão foi recusado: {message}"))
    | none => some (s.unlock, .done .ok)
  | resuming seen id userId => match s.subs.get? id with
    | none => some (s.unlock, .done .failed)
    | some sub =>
      if sub.status = .incomplete then some (s.unlock, .done .ok)
      else if sub.status = .active then some (s, .next activating)
      else some (goOnLocked (firstCharge (expired seen) userId) s)
  | activating => some ((s.setLink fun link => { link with
      rentStatus := .active
      rentPaidUntil := some k.paidUntil }).unlock, .done .ok)
  | firstPrice seen userId =>
    let cents := toMinorUnits (seen.rentAmount.getD 0) (seen.rentCurrency.getD "BRL")
    some ({ s with prices := s.prices.insert cents },
      .next (keepingPrice seen s.prices.next userId))
  -- not by the transaction: after an expired first charge it waits for the row that this one holds
  | keepingPrice seen price userId =>
    some (s.setLink fun link => { link with rentStripePriceId := some price },
      .next (subscribing seen price userId))
  | subscribing seen price userId =>
    let r := subscribe k price s
    some (r.1, .next (if r.2.2.live then linking seen price r.2.1 r.2.2 userId else droppingPrice))
  | droppingPrice =>
    some ((s.setLink fun link => { link with rentStripePriceId := none }).unlock,
      refuse (.badRequest "A cobrança anterior do aluguel foi encerrada. Tente autorizar de novo."))
  | linking _ _ id status userId =>
    if k.timesOut then some (s.unlock, .done .failed)
    else some ((s.setLink fun link => { link with
      rentStripeSubscriptionId := some id
      rentPayerUserId := some userId
      rentStatus := if status = .active then .active else .incomplete
      rentPaidUntil := if status = .active then some k.paidUntil else none }).unlock, .done .ok)
  | deleted id =>
    if s.link.rentStripeSubscriptionId = some id then some (s, .next (forgetting s.link))
    else some (s, .done .ok)
  | forgetting seen =>
    some (s.setLink fun link => { link with
      rentStripeSubscriptionId := none
      rentStatus := if seen.rentAmount.isSome ∧ seen.status = .active then .awaitingPayment
        else .none
      rentStripePriceId := none
      rentPendingAmount := none
      rentPendingAt := none }, .done .ok)

/-- A call of a person, as it arrives. -/
def starts : TermsCall → Bool
  | setRent .. | respond .. | authorize .. => true
  | _ => false

end TermsCall

end Currency

/-- What happens beside the calls: one arrives, Stripe changes the status of a subscription, tells that
one has ended or that an invoice was paid or not, the link is answered, and a transaction that has been
running for too long loses its lock. -/
inductive TermsEvent where
  | arrive (c : TermsCall)
  | status (id : ℕ) (status : RentSubStatus)
  | subscriptionDeleted (id : ℕ)
  | invoice (i : RentInvoice) (id : ℕ) (paid : Bool)
  | answer (status : LinkStatus)
  | timeout

def TermsEvent.apply (e : TermsEvent) (s : RentDeal) : Option (RentDeal × Option TermsCall) :=
  match e with
  | arrive c => if c.starts then some (s, some c) else none
  | status id next =>
    if s.lives id then
      some ({ s with subs := s.subs.modify id ({ · with status := next }) }, none)
    else none
  | subscriptionDeleted id => if s.lives id then none else some (s, some (.deleted id))
  | invoice i id paid =>
    if s.link.rentStripeSubscriptionId = some id then
      some (s.setLink fun link => { link with toRentLink := i.linkAfter paid link.toRentLink }, none)
    else some (s, none)
  | answer next => some (s.setLink ({ · with status := next }), none)
  | timeout => some (s.unlock, none)

/-- The calls about the rent of one link, side by side. -/
def termsCalls (currency : String) : CallSystem RentDeal TermsCall TermsEvent TermsChance where
  event := TermsEvent.apply
  step k c s := (c.step currency k s).map fun r => (r.1, r.2.running)

/-- A link without rent between two businesses. -/
def RentDeal.initial (hostBarbershopId memberBarbershopId : ℕ) (memberOwnerUserId : Option ℕ) :
    RentDeal where
  link := {
    hostBarbershopId := hostBarbershopId
    memberBarbershopId := memberBarbershopId
    memberOwnerUserId := memberOwnerUserId
    rentPayerUserId := none
    rentCurrency := none
    rentStatus := .none
    rentPaidUntil := none
    status := .pending
    rentAmount := none
    rentBillingMode := .card
    rentStripePriceId := none
    rentStripeSubscriptionId := none
    rentStartedAt := none
    rentPendingAmount := none
    rentPendingAt := none }
  prices := .empty
  subs := .empty
  locked := false
  accepted := []

end Barbershop
