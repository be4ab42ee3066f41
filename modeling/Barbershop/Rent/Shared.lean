import Barbershop.Rent.Terms

/-!
# A shared location

The link between a space and the business of a professional: the space invites, the professional
accepts or declines and may block further invites, and either side ends the link. Each of these calls
reads the link, checks its status and then writes without looking at it again; the end of an active
link first cancels the subscription of the rent. They run beside the calls about the rent, of which
only `authorize` takes the link's lock.

The state is one link. `moves` is no column: every status it has had, with the one before.
-/

namespace Barbershop

open Lib

structure SharedLink where
  deal : RentDeal
  respondedAt : Option ℤ
  invitesBlockedAt : Option ℤ
  moves : List (LinkStatus × LinkStatus)

def REINVITE_AFTER_MS : ℤ := 30 * 86400000

/-- The business that an invite is for, as its page has it. -/
structure InvitedShop where
  id : ℕ
  networkId : ℕ
  isActive : Bool

/-- What a step finds beside the link: that of the rent, whether a call to Stripe fails, and when the
row was last written. -/
structure SharedChance where
  terms : TermsChance
  fails : Bool
  updatedAt : ℤ

/-! ## Calls to Stripe -/

namespace TermsCall

/-- The next step is a call to Stripe. -/
def callsStripe : TermsCall → Bool
  | canceling .. | pricing .. | repricing .. | payingInvoice | resuming .. | firstPrice ..
  | subscribing .. => true
  | _ => false

/-- `authorize` in its transaction. -/
def inTransaction : TermsCall → Bool
  | loading _ | payingInvoice | resuming .. | activating | firstPrice .. | keepingPrice ..
  | subscribing .. | droppingPrice | linking .. => true
  | _ => false

end TermsCall

/-! ## The calls, step by step -/

/-- Where a call is; `seen` is the status that it read. -/
inductive SharedCall where
  -- `setRent`, `authorize` and the others about the rent
  | rent (c : TermsCall)
  | invite (ctx : Caller) (member : Option InvitedShop)
  | inviting (seen : LinkStatus)
  | respond (ctx : Caller) (accept : Bool)
  | responding (accept : Bool)
  | endLink (ctx : Caller)
  | cancelling
  -- `cancelChairRentsOfBarbershops`
  | findingSub
  | cancelingSub (id : ℕ)
  | unlinking
  | removing
  | setInviteBlock (ctx : Caller) (blocked : Bool)
  | blocking (blocked declining : Bool)

namespace SharedLink

variable (s : SharedLink)

def status : LinkStatus := s.deal.link.status

def setLink (f : RentTerms → RentTerms) : SharedLink := { s with deal := s.deal.setLink f }

/-- Writes the status. -/
def setStatus (status : LinkStatus) : SharedLink :=
  { s with
    deal := s.deal.setLink ({ · with status := status })
    moves := if status = s.status then s.moves else (s.status, status) :: s.moves }

end SharedLink

namespace SharedCall

/-- The checks of `invite`; `answeredAt` is when the link was answered or, without that, written. -/
def checkInvite (ctx : Caller) (member : Option InvitedShop) (now updatedAt : ℤ)
    (existing : SharedLink) : Result SharedCall := do
  ctx.ensureBarbershopAccess .manager
  let member ← orRefuse (member.filter (·.isActive))
    (.notFound "Não achamos essa unidade. Confira o link da página dela.")
  refuseIf (member.id = ctx.shop.id) (.badRequest "Esse é o seu próprio espaço")
  refuseIf (member.networkId = ctx.shop.networkId) (.badRequest
    "Essa unidade é da sua própria rede. Para trabalhar nas duas, adicione a pessoa à equipe.")
  refuseIf (existing.status = .active ∨ existing.status = .pending) (.badRequest
    (if existing.status = .active then "Esse profissional já atende no seu espaço"
      else "Já existe um convite pendente para esse profissional"))
  refuseIf (existing.invitesBlockedAt ≠ none)
    (.badRequest "Este profissional bloqueou convites deste espaço.")
  refuseIf ((existing.status = .declined ∨ existing.status = .removed) ∧
      now < existing.respondedAt.getD updatedAt + REINVITE_AFTER_MS)
    (.badRequest "Só dá para convidar de novo 30 dias depois de recusar ou encerrar.")
  return inviting existing.status

/-- The checks of `respond`; `ctx` is the caller in the business of the link. -/
def checkRespond (ctx : Caller) (accept : Bool) (link : RentTerms) : Result SharedCall := do
  ctx.ensureBarbershopAccess .manager
  refuseIf (link.status ≠ .pending) (.badRequest "Esse convite já foi respondido")
  return responding accept

def checkEnd (ctx : Caller) (link : RentTerms) : Result SharedCall := do
  refuseIf (link.hostBarbershopId ≠ ctx.shop.id ∧ link.memberBarbershopId ≠ ctx.shop.id)
    (.notFound "Vínculo não encontrado")
  ctx.ensureBarbershopAccess .manager
  refuseIf (link.status ≠ .active ∧ link.status ≠ .pending)
    (.badRequest "Esse vínculo já foi encerrado")
  return if link.status = .pending then cancelling else findingSub

def checkInviteBlock (ctx : Caller) (blocked : Bool) (link : RentTerms) : Result SharedCall := do
  refuseIf (link.memberBarbershopId ≠ ctx.shop.id) (.notFound "Vínculo não encontrado")
  ctx.ensureBarbershopAccess .manager
  refuseIf (blocked = true ∧ link.status = .active)
    (.badRequest "Saia do espaço antes de bloquear novos convites.")
  return blocking blocked (blocked && link.status == .pending)

/-- What `end` writes in the end. -/
def ended (link : RentTerms) : RentTerms :=
  { link with
    rentStatus := .none
    rentAmount := none
    rentStripePriceId := none }

def step (currency : String) (k : SharedChance) (c : SharedCall) (s : SharedLink) :
    Option (SharedLink × Option SharedCall) :=
  match c with
  | rent c =>
    if k.fails && c.callsStripe then
      some ({ s with deal := if c.inTransaction then s.deal.unlock else s.deal }, none)
    else (c.step currency k.terms s.deal).map fun r =>
      ({ s with deal := r.1 }, r.2.running.map rent)
  | invite ctx member =>
    some (s, (checkInvite ctx member k.terms.now k.updatedAt s).toOption)
  | inviting _ => some ({ s.setStatus .pending with respondedAt := none }, none)
  | respond ctx accept => some (s, (checkRespond ctx accept s.deal.link).toOption)
  | responding accept =>
    some ({ s.setStatus (if accept then .active else .declined) with
      respondedAt := some k.terms.now }, none)
  | endLink ctx => some (s, (checkEnd ctx s.deal.link).toOption)
  | cancelling => some ({ s.setStatus .cancelled with respondedAt := none }, none)
  | findingSub => some (s, some (s.deal.link.rentStripeSubscriptionId.elim removing cancelingSub))
  | cancelingSub id =>
    if k.fails then some (s, none)
    else some ({ s with deal := s.deal.cancelSubscription id }, some unlinking)
  | unlinking => some (s.setLink (·.withoutSubscription), some removing)
  -- the months that are due to the space are not in this state
  | removing =>
    some ({ (s.setStatus .removed).setLink ended with respondedAt := some k.terms.now }, none)
  | setInviteBlock ctx blocked => some (s, (checkInviteBlock ctx blocked s.deal.link).toOption)
  | blocking blocked declining =>
    let s' := if declining then { s.setStatus .declined with respondedAt := some k.terms.now } else s
    some ({ s' with invitesBlockedAt := if blocked then some k.terms.now else none }, none)

end SharedCall

/-- What happens beside the calls; the status of the link changes only by calls. -/
inductive SharedEvent where
  | rent (e : TermsEvent)
  | invite (ctx : Caller) (member : Option InvitedShop)
  | respond (ctx : Caller) (accept : Bool)
  | endLink (ctx : Caller)
  | setInviteBlock (ctx : Caller) (blocked : Bool)

def SharedEvent.apply (e : SharedEvent) (s : SharedLink) :
    Option (SharedLink × Option SharedCall) :=
  match e with
  | rent (.answer _) => none
  | rent e => (e.apply s.deal).map fun r => ({ s with deal := r.1 }, r.2.map .rent)
  | invite ctx member => some (s, some (.invite ctx member))
  | respond ctx accept => some (s, some (.respond ctx accept))
  | endLink ctx => some (s, some (.endLink ctx))
  | setInviteBlock ctx blocked => some (s, some (.setInviteBlock ctx blocked))

/-- The calls about one link, side by side. -/
def sharedCalls (currency : String) : CallSystem SharedLink SharedCall SharedEvent SharedChance :=
  ⟨SharedEvent.apply, SharedCall.step currency⟩

/-- A link as its first invite makes it. -/
def SharedLink.initial (hostBarbershopId memberBarbershopId : ℕ)
    (memberOwnerUserId : Option ℕ) : SharedLink where
  deal := .initial hostBarbershopId memberBarbershopId memberOwnerUserId
  respondedAt := none
  invitesBlockedAt := none
  moves := []

end Barbershop
