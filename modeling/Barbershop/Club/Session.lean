import Barbershop.Sale.Create
import Barbershop.Sale.Delete

/-!
# Club sessions

A membership counts the sessions of its cycle (`usedThisCycle`) and limits them; each session has a
row with the start of the cycle it was used in. The counter goes back to zero when the invoice of a
new cycle is paid. A session comes back while its cycle lasts: at the desk by the cycle its row
records, with a deleted sale by the instant of the sale.
-/

namespace Barbershop

open Lib

/-! ## Joining -/

/-- A plan of a unit's club. -/
structure ClientSubscriptionPlan where
  barbershopId : ℕ
  serviceId : ℕ
  sessionsPerCycle : Option ℕ

/-- A Stripe subscription as it was created; its instants are in seconds. -/
structure StripeSubscription where
  active : Bool
  current_period_start : ℤ

/-- An instant of Stripe's, in seconds, as a date. -/
def fromSeconds (sec : ℤ) : ℤ := sec * 1000

/-- The row `subscribeToPlan` creates. -/
def subscribeToPlan (clientAccountId : ℕ) (plan : ClientSubscriptionPlan)
    (stripeSubscription : StripeSubscription) : ClientSubscription where
  barbershopId := plan.barbershopId
  clientAccountId := clientAccountId
  serviceId := plan.serviceId
  sessionsPerCycle := plan.sessionsPerCycle
  usedThisCycle := 0
  status := if stripeSubscription.active then .active else .other
  currentPeriodStart := some (fromSeconds stripeSubscription.current_period_start)

/-! ## Using a session -/

/-- The conditional debit of one session, and its row (`recordClubUse`). -/
def redeemSession (subscriptionId : ℕ) (limit : Option ℕ) (userId : ℕ) (saleId : Option ℕ)
    (subscriptions : Table ClientSubscription) (uses : Table ClientSubscriptionUse) :
    Result (Table ClientSubscription × Table ClientSubscriptionUse) := do
  let subscriptions ← orRefuse (subscriptions.tryModify subscriptionId
      (fun s => decide (s.status = .active) && limit.all fun l => decide (s.usedThisCycle < l))
      fun s => { s with usedThisCycle := s.usedThisCycle + 1 })
    (.badRequest "Assinatura não tem sessões restantes neste ciclo")
  return (subscriptions, uses.insert {
    clientSubscriptionId := subscriptionId
    saleId := saleId
    usedByUserId := userId
    periodStart := (subscriptions.get? subscriptionId).bind (·.currentPeriodStart)
    undoneAt := none
    undoneByUserId := none })

def redeemClientSubscriptionSession (ctx : Caller) (subscriptionId : ℕ) (seen db : Db) :
    Result Db := do
  ctx.ensureBarbershopAccess .reception
  let subscription ← orRefuse ((seen.subscriptions.get? subscriptionId).filter
    (·.barbershopId == ctx.shop.id)) (.notFound "Assinatura não encontrada")
  refuseIf (subscription.status ≠ .active) (.badRequest "Assinatura não está ativa")
  let club ← redeemSession subscriptionId subscription.sessionsPerCycle ctx.userId none
    db.subscriptions db.subscriptionUses
  return { db with subscriptions := club.1, subscriptionUses := club.2 }

/-! ## Undoing it at the desk -/

def CLUB_USE_IN_SALE_MESSAGE : String :=
  "Esta sessão do clube está numa venda. Apague a venda para desfazer."

def CLUB_UNDO_OLD_CYCLE_MESSAGE : String :=
  "Esta sessão é de um ciclo do clube que já acabou: não volta."

def ClientSubscriptionUse.undo (now : ℤ) (userId : ℕ) (u : ClientSubscriptionUse) :
    ClientSubscriptionUse :=
  { u with undoneAt := some now, undoneByUserId := some userId }

/-- `decrement: 1` where `usedThisCycle > 0`. -/
def ClientSubscription.giveBack (s : ClientSubscription) : ClientSubscription :=
  if 0 < s.usedThisCycle then { s with usedThisCycle := s.usedThisCycle - 1 } else s

/-- The checks of `undoClientSubscriptionUse`, and the use it found. -/
def checkClubUndo (ctx : Caller) (useId : ℕ) (seen : Db) : Result ClientSubscriptionUse := do
  ctx.ensureBarbershopAccess .reception
  let use ← orRefuse ((seen.subscriptionUses.get? useId).filter fun u =>
      (seen.subscriptions.get? u.clientSubscriptionId).any (·.barbershopId == ctx.shop.id))
    (.notFound "Baixa não encontrada")
  refuseIf (use.undoneAt.isSome) (.badRequest "Esta baixa já foi desfeita.")
  refuseIf (use.saleId.isSome) (.badRequest CLUB_USE_IN_SALE_MESSAGE)
  refuseIf (use.periodStart ≠
      (seen.subscriptions.get? use.clientSubscriptionId).bind (·.currentPeriodStart))
    (.badRequest CLUB_UNDO_OLD_CYCLE_MESSAGE)
  return use

def undoClientSubscriptionUse (ctx : Caller) (useId : ℕ) (seen db : Db) : Result Db := do
  let use ← checkClubUndo ctx useId seen
  let uses ← orRefuse (db.subscriptionUses.tryModify useId (·.undoneAt.isNone)
    (·.undo ctx.now ctx.userId)) (.badRequest "Esta baixa já foi desfeita.")
  return { db with
    subscriptionUses := uses
    subscriptions := db.subscriptions.modify use.clientSubscriptionId (·.giveBack) }

/-! ## The paid invoice -/

structure ClientSubscriptionPayment where
  subscriptionId : ℕ
  stripeInvoiceId : String
  amount : ℚ
  succeeded : Bool
  periodStart : Option ℤ

/-- A paid invoice of the club; Stripe's instants are in seconds. -/
structure ClubInvoice where
  id : String
  /-- The membership with the Stripe subscription of the invoice. -/
  subscriptionId : ℕ
  /-- `line.period?.end` of its lines. -/
  lines : List (Option ℤ)
  period_end : Option ℤ
  amount_paid : ℤ
  currency : String

/-- The end of the period of an invoice: of its lines, or its own. -/
def clientInvoicePeriodEnd (invoice : ClubInvoice) : Option ℤ :=
  let fromLines := invoice.lines.foldl (fun latest line => max latest (line.getD 0)) 0
  let sec := if fromLines ≠ 0 then fromLines else invoice.period_end.getD 0
  if sec ≠ 0 then some (fromSeconds sec) else none

/-- The database beside the payments of the club and the current period of each Stripe
subscription. -/
structure ClubBooks where
  db : Db
  payments : Table ClientSubscriptionPayment
  current_period_start : ℕ → ℤ

namespace ClubInvoice

variable (invoice : ClubInvoice)

/-- The reads before the transaction. -/
inductive Read where
  | subscription | stripeSubscription
  deriving DecidableEq

/-- An invoice of a cycle that is over only records its payment. -/
def advancesCycle (seen : ClientSubscription) : Bool :=
  seen.currentPeriodStart.all fun start =>
    (clientInvoicePeriodEnd invoice).any fun e => decide (start < e)

def recorded (p : ClientSubscriptionPayment) : Bool := p.stripeInvoiceId == invoice.id

/-- The invoice was recorded as paid before. -/
def already (payments : Table ClientSubscriptionPayment) : Bool :=
  payments.any fun _ p => invoice.recorded p && p.succeeded

/-- The `upsert` of the payment. -/
def record (periodStart : ℤ) (payments : Table ClientSubscriptionPayment) :
    Table ClientSubscriptionPayment :=
  if payments.any (fun _ p => invoice.recorded p) then
    payments.modifyAll fun _ p => if invoice.recorded p then { p with succeeded := true } else p
  else payments.insert {
    subscriptionId := invoice.subscriptionId
    stripeInvoiceId := invoice.id
    amount := fromMinorUnits invoice.amount_paid invoice.currency
    succeeded := true
    periodStart := some periodStart }

end ClubInvoice

/-- A new cycle: no session used, active. -/
def ClientSubscription.renew (start : ℤ) (s : ClientSubscription) : ClientSubscription :=
  { s with status := .active, usedThisCycle := 0, currentPeriodStart := some start }

/-- The period start an invoice resets the counter to, if it does: judged by the row and the Stripe
subscription that were read, and by the payments at the commit. -/
def ClubInvoice.resets (invoice : ClubInvoice) (reads : ClubInvoice.Read → ClubBooks)
    (b : ClubBooks) : Option ℤ :=
  if ((reads .subscription).db.subscriptions.get? invoice.subscriptionId).any
      invoice.advancesCycle ∧ invoice.already b.payments = false then
    some (fromSeconds ((reads .stripeSubscription).current_period_start invoice.subscriptionId))
  else none

/-- The reset, if there is one. -/
def ClubInvoice.resetCycle (invoice : ClubInvoice) (reset : Option ℤ)
    (subscriptions : Table ClientSubscription) : Result (Table ClientSubscription) :=
  match reset with
  | none => pure subscriptions
  | some start => orRefuse (subscriptions.tryModify invoice.subscriptionId (fun _ => true)
      (·.renew start)) (.notFound "Registro não encontrado")

/-- A membership that is not found, or an invoice that was recorded before, changes nothing. -/
def handleClientSubscriptionInvoiceSucceeded (invoice : ClubInvoice)
    (reads : ClubInvoice.Read → ClubBooks) (b : ClubBooks) : Result ClubBooks :=
  match (reads .subscription).db.subscriptions.get? invoice.subscriptionId with
  | none => return b
  | some _ =>
    if invoice.already b.payments then return b
    else do
      let subscriptions ← invoice.resetCycle (invoice.resets reads b) b.db.subscriptions
      let periodStart :=
        fromSeconds ((reads .stripeSubscription).current_period_start invoice.subscriptionId)
      return { b with
        db := { b.db with subscriptions := subscriptions }
        payments := invoice.record periodStart b.payments }

/-! ## The other events -/

/-- The statuses of a Stripe subscription. -/
inductive StripeSubscriptionStatus where
  | active | past_due | incomplete_expired | canceled | unpaid
  | incomplete | trialing | paused
  deriving DecidableEq

def ClientSubscription.withStatus (status : SubscriptionStatus) (s : ClientSubscription) :
    ClientSubscription :=
  { s with status := status }

def handleClientSubscriptionInvoiceFailed (subscriptionId : ℕ)
    (subscriptions : Table ClientSubscription) : Table ClientSubscription :=
  subscriptions.modify subscriptionId (·.withStatus .pastDue)

def StripeSubscriptionStatus.club : StripeSubscriptionStatus → Option SubscriptionStatus
  | active => some .active
  | past_due => some .pastDue
  | incomplete_expired | canceled | unpaid => some .canceled
  | _ => none

def syncClientClub (subscriptionId : ℕ) (status : StripeSubscriptionStatus)
    (subscriptions : Table ClientSubscription) : Table ClientSubscription :=
  status.club.elim subscriptions fun status =>
    subscriptions.modify subscriptionId (·.withStatus status)

/-! ## What each does to the two tables -/

/-- The row of a session used by a membership in a state. -/
structure ClientSubscriptionUse.IsUse (u : ClientSubscriptionUse) (subscriptionId : ℕ)
    (saleId : Option ℕ) (s : ClientSubscription) : Prop where
  subscription : u.clientSubscriptionId = subscriptionId
  sale : u.saleId = saleId
  period : u.periodStart = s.currentPeriodStart
  active : u.undoneAt = none

theorem redeemSession_ok {subscriptionId : ℕ} {limit : Option ℕ} {userId : ℕ} {saleId : Option ℕ}
    {subscriptions : Table ClientSubscription} {uses : Table ClientSubscriptionUse}
    {club : Table ClientSubscription × Table ClientSubscriptionUse}
    (h : redeemSession subscriptionId limit userId saleId subscriptions uses = .ok club) :
    ∃ s u, subscriptions.get? subscriptionId = some s ∧ (∀ l ∈ limit, s.usedThisCycle < l) ∧
      u.IsUse subscriptionId saleId s ∧
      club = (subscriptions.modify subscriptionId fun s =>
        { s with usedThisCycle := s.usedThisCycle + 1 }, uses.insert u) := by
  simp only [redeemSession, bind_eq_ok, orRefuse_eq_ok, pure_eq_ok] at h
  obtain ⟨t, ht, rfl⟩ := h
  obtain ⟨s, hs, hc, rfl⟩ := Table.tryModify_eq_some.1 ht
  simp only [Bool.and_eq_true, decide_eq_true_eq, Option.all_eq_true] at hc
  refine ⟨s, _, hs, hc.2, ⟨rfl, rfl, ?_, rfl⟩, rfl⟩
  dsimp only
  rw [Table.get?_modify_self, hs]
  rfl

theorem redeemClientSubscriptionSession_ok {ctx : Caller} {subscriptionId : ℕ} {seen db db' : Db}
    (h : redeemClientSubscriptionSession ctx subscriptionId seen db = .ok db') :
    ∃ s club, seen.subscriptions.get? subscriptionId = some s ∧
      redeemSession subscriptionId s.sessionsPerCycle ctx.userId none db.subscriptions
        db.subscriptionUses = .ok club ∧
      db' = { db with subscriptions := club.1, subscriptionUses := club.2 } := by
  simp only [redeemClientSubscriptionSession, bind_eq_ok, exists_punit, orRefuse_eq_ok, pure_eq_ok,
    Option.filter_eq_some_iff] at h
  obtain ⟨-, s, ⟨hs, -⟩, -, club, hclub, rfl⟩ := h
  exact ⟨s, club, hs, hclub, rfl⟩

theorem checkClubUndo_ok {ctx : Caller} {useId : ℕ} {seen : Db} {use : ClientSubscriptionUse}
    (h : checkClubUndo ctx useId seen = .ok use) :
    seen.subscriptionUses.get? useId = some use ∧ use.saleId = none ∧
      use.periodStart =
        (seen.subscriptions.get? use.clientSubscriptionId).bind (·.currentPeriodStart) := by
  simp only [checkClubUndo, bind_eq_ok, exists_punit, orRefuse_eq_ok, refuseIf_eq_ok, pure_eq_ok,
    Option.filter_eq_some_iff] at h
  obtain ⟨-, u, ⟨hu, -⟩, -, hsale, hperiod, rfl⟩ := h
  exact ⟨hu, by simpa using hsale, by simpa using hperiod⟩

theorem undoClientSubscriptionUse_ok {ctx : Caller} {useId : ℕ} {seen db db' : Db}
    (h : undoClientSubscriptionUse ctx useId seen db = .ok db') :
    ∃ use u, checkClubUndo ctx useId seen = .ok use ∧ db.subscriptionUses.get? useId = some u ∧
      u.undoneAt = none ∧
      db' = { db with
        subscriptionUses := db.subscriptionUses.modify useId (·.undo ctx.now ctx.userId)
        subscriptions := db.subscriptions.modify use.clientSubscriptionId (·.giveBack) } := by
  simp only [undoClientSubscriptionUse, bind_eq_ok, orRefuse_eq_ok, pure_eq_ok] at h
  obtain ⟨use, hcheck, uses, huses, rfl⟩ := h
  obtain ⟨u, hu, hactive, rfl⟩ := Table.tryModify_eq_some.1 huses
  exact ⟨use, u, hcheck, hu, by simpa using hactive, rfl⟩

/-- The club session of a sale: debited under the limit that was read, with a row of the sale. -/
theorem commitSale_club {cat : Catalog} {ctx : Caller} {plan : SalePlan} {db db' : Db}
    (h : commitSale cat ctx plan db = .ok db') :
    db'.sales = db.sales.insert (plan.sale ctx) ∧
      ((plan.club = none ∧ db'.subscriptions = db.subscriptions ∧
        db'.subscriptionUses = db.subscriptionUses) ∨
      ∃ id limit, plan.club = some (id, limit) ∧
        redeemSession id limit ctx.userId (some db.sales.next) db.subscriptions
          db.subscriptionUses = .ok (db'.subscriptions, db'.subscriptionUses)) := by
  obtain ⟨_, club, _, _, -, hclub, -, -, rfl⟩ := commitSale_ok h
  refine ⟨rfl, ?_⟩
  unfold SalePlan.debitClub at hclub
  split at hclub
  · next hnone =>
    obtain rfl := pure_eq_ok.1 hclub
    exact .inl ⟨hnone, rfl, rfl⟩
  · next id limit hsome => exact .inr ⟨id, limit, hsome, hclub⟩

/-- The limit a sale goes by is the one of the membership it read. -/
theorem prepareSale_club {cat : Catalog} {ctx : Caller} {data : SaleInput} {reads : SaleRead → Db}
    {plan : SalePlan} (h : prepareSale cat ctx data reads = .ok plan) {id : ℕ} {limit : Option ℕ}
    (hclub : plan.club = some (id, limit)) :
    ∃ s, (reads .club).subscriptions.get? id = some s ∧ s.sessionsPerCycle = limit := by
  simp only [prepareSale, bind_eq_ok, exists_punit, pure_eq_ok] at h
  obtain ⟨_, _, _, _, _, _, _, _, _, _, _, _, _, _, club, hprepare, _, _, _, _, _, _, _, _, rfl⟩ := h
  rcases ifGiven_eq_ok.1 hprepare with ⟨-, rfl⟩ | ⟨k, c, -, hc, rfl⟩
  · cases hclub
  · simp only [prepareClubSession, bind_eq_ok, exists_punit, orRefuse_eq_ok, pure_eq_ok,
      Option.filter_eq_some_iff] at hc
    obtain ⟨-, s, ⟨hs, -⟩, -, -, -, rfl⟩ := hc
    simp only [Option.map_some, Option.some.injEq, Prod.mk.injEq] at hclub
    obtain ⟨rfl, rfl⟩ := hclub
    exact ⟨s, hs, rfl⟩

/-- The memberships after the reset of an invoice, if there is one. -/
def ClubInvoice.renewed (invoice : ClubInvoice) (reset : Option ℤ)
    (subscriptions : Table ClientSubscription) : Table ClientSubscription :=
  reset.elim subscriptions fun start => subscriptions.modify invoice.subscriptionId (·.renew start)

theorem ClubInvoice.resetCycle_ok {invoice : ClubInvoice} {reset : Option ℤ}
    {subscriptions subscriptions' : Table ClientSubscription}
    (h : invoice.resetCycle reset subscriptions = .ok subscriptions') :
    subscriptions' = invoice.renewed reset subscriptions := by
  cases reset with
  | none => exact (pure_eq_ok.1 h).symm
  | some start =>
    obtain ⟨_, -, -, rfl⟩ := Table.tryModify_eq_some.1 (orRefuse_eq_ok.1 h)
    rfl

theorem handleInvoice_ok {invoice : ClubInvoice} {reads : ClubInvoice.Read → ClubBooks}
    {b b' : ClubBooks} (h : handleClientSubscriptionInvoiceSucceeded invoice reads b = .ok b') :
    b' = b ∨
      ∃ payments, b' = { b with
        db := { b.db with
          subscriptions := invoice.renewed (invoice.resets reads b) b.db.subscriptions }
        payments := payments } := by
  unfold handleClientSubscriptionInvoiceSucceeded at h
  split at h
  · exact .inl (pure_eq_ok.1 h).symm
  · split at h
    · exact .inl (pure_eq_ok.1 h).symm
    · simp only [bind_eq_ok, pure_eq_ok] at h
      obtain ⟨subscriptions, hsub, rfl⟩ := h
      obtain rfl := ClubInvoice.resetCycle_ok hsub
      exact .inr ⟨_, rfl⟩

end Barbershop
