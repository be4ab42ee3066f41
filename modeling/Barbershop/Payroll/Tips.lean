import Mathlib.Data.Set.Function
import Barbershop.Payment.Deposit
import Barbershop.Payroll.Payout

/-!
# Tips and pay entries

A tip that the unit receives for a professional is two rows: the tip of the appointment, and an entry
of the professional's pay, which `payEntryId` points to. They are made in one transaction and deleted
in one, and a change of the professional of the appointment moves both.

Each transaction is a step; what it writes goes by rows that were read before. The tables hold the
rows of one unit.
-/

namespace Barbershop

open Lib

/-! ## Rows -/

inductive TipDestination where
  | professional | unit
  deriving DecidableEq

structure StaffTip extends AppointmentTip where
  appointmentId : ℕ
  barbershopId : ℕ
  barberId : Option ℕ
  destination : TipDestination
  receivedByUnit : Bool
  payEntryId : Option ℕ
  createdByUserId : Option ℕ

/-- `ofTip`: created with a tip of an appointment. It is kept beside the columns. -/
structure StaffEntry where
  barberId : ℕ
  entry : BarberPayEntry
  ofTip : Bool

structure StaffPayout where
  barberId : ℕ
  payout : BarberPayout

/-- What tips of a unit go by. -/
structure TipRules where
  /-- `practiceKind` is `solo`. -/
  solo : Bool
  staffRecordsUnitTips : Bool
  /-- `moneyCap(MAX_TIP, currency)` -/
  cap : ℚ

/-- `paying` says whose advisory lock is taken. -/
structure TipBooks where
  rules : TipRules
  config : ℕ → Option BarberPayConfig
  appointments : Table Appointment
  tips : Table StaffTip
  entries : Table StaffEntry
  payouts : Table StaffPayout
  expenses : Table Expense
  cashSessions : Table CashSession
  paying : ℕ → Bool

/-- A tip that the client gave in the app. -/
def STRIPE : PaymentMethod := .unknown "STRIPE"

def TIP_METHODS : List PaymentMethod := [.cash, .pix, .card]

namespace TipBooks

variable (s : TipBooks)

/-- `loadAppointment` -/
def loadAppointment (ctx : Caller) (id : ℕ) : Result Appointment :=
  orRefuse ((s.appointments.get? id).filter (·.barbershopId == ctx.shop.id))
    (.notFound "Agendamento não encontrado")

def openCashSession (shopId : ℕ) : Option ℕ :=
  (s.cashSessions.find? fun _ c => c.barbershopId == shopId && c.status == .opened).map (·.1)

def closedSession (cashSessionId : Option ℕ) : Bool :=
  (cashSessionId.bind s.cashSessions.get?).any (·.status == .closed)

/-- An entry that is in a payout. -/
def paidEntry (id : Option ℕ) : Bool :=
  (id.bind s.entries.get?).any (·.entry.payoutId.isSome)

/-- The tips of an appointment for its professional. -/
def tipsFor (appointmentId : ℕ) : List (ℕ × StaffTip) :=
  s.tips.filter fun _ t => t.appointmentId == appointmentId && t.destination == .professional

/-- The entries that `compute` takes. -/
def openEntries (barberId : ℕ) (stop : ℤ) : List (ℕ × BarberPayEntry) :=
  (s.entries.filter fun _ e => e.barberId == barberId && e.entry.payoutId.isNone &&
    decide (e.entry.date ≤ stop)).map fun r => (r.1, r.2.entry)

/-- `overlapping` -/
def overlapping (barberId : ℕ) (start stop : ℤ) : Option (ℕ × StaffPayout) :=
  s.payouts.find? fun _ p => p.barberId == barberId && p.payout.overlaps start stop

end TipBooks

/-- Whether the caller is of the desk; a professional manages the tips of what is his. -/
def Caller.ensureCanManage (ctx : Caller) (barberUserId : Option ℕ) : Result Bool :=
  if AccessLevel.reception.rank ≤ ctx.accessLevel.rank then .ok true
  else if barberUserId = some ctx.userId then .ok false
  else .error (.forbidden "Você não pode registrar caixinha deste atendimento")

/-! ## A tip is recorded -/

structure TipInput where
  /-- `none`: a text that is no destination. -/
  destination : Option TipDestination
  method : PaymentMethod
  amount : ℚ
  receivedByUnit : Bool

/-- A tip that has passed the checks of `add`; `seen` is the appointment they read. -/
structure TipOrder where
  ctx : Caller
  appointmentId : ℕ
  seen : Appointment
  destination : TipDestination
  method : PaymentMethod
  amount : ℚ
  receivedByUnit : Bool

section Checks

variable (barbers : Table Barber)

/-- The user of the professional of an appointment. -/
def Appointment.barberUserId (a : Appointment) : Option ℕ :=
  (barbers.get? a.barberId).bind (·.userId)

def checkTip (ctx : Caller) (appointmentId : ℕ) (data : TipInput) (s : TipBooks) :
    Result TipOrder := do
  let destination ← orRefuse data.destination (.badRequest "Destino da caixinha inválido")
  refuseIf (data.method ∉ TIP_METHODS) (.badRequest "Forma da caixinha inválida")
  let appt ← s.loadAppointment ctx appointmentId
  refuseIf (¬ 0 < data.amount ∨ s.rules.cap < data.amount)
    (.badRequest "Valor da caixinha inválido")
  refuseIf (appt.status ≠ .completed)
    (.badRequest "Só dá pra registrar caixinha de atendimento concluído")
  let desk ← ctx.ensureCanManage (appt.barberUserId barbers)
  refuseIf (destination = .unit ∧ s.rules.solo = true)
    (.badRequest "No modo solo a caixinha é do profissional")
  let receivedByUnit :=
    destination == .professional && (data.method == .card || data.receivedByUnit)
  refuseIf (receivedByUnit = true ∧ desk = false ∧ s.rules.staffRecordsUnitTips = false) (.forbidden
    "Nesta unidade, a caixinha recebida pela unidade (cartão, maquininha) é registrada pela recepção")
  return ⟨ctx, appointmentId, appt, destination, data.method, data.amount, receivedByUnit⟩

namespace TipOrder

variable (o : TipOrder)

/-- Money that stays in the drawer. -/
def inDrawer : Bool := o.method == .cash && (o.destination == .unit || o.receivedByUnit)

def entry : StaffEntry where
  barberId := o.seen.barberId
  entry := tipEntry o.amount o.method o.seen.startAt
  ofTip := true

def tip (payEntryId cashSessionId : Option ℕ) : StaffTip where
  cashSessionId := cashSessionId
  method := o.method
  amount := round2 o.amount
  appointmentId := o.appointmentId
  barbershopId := o.ctx.shop.id
  barberId := if o.destination = .professional then some o.seen.barberId else none
  destination := o.destination
  receivedByUnit := o.receivedByUnit
  payEntryId := payEntryId
  createdByUserId := some o.ctx.userId

/-- The transaction of `add`. -/
def commit (s : TipBooks) : TipBooks :=
  let cashSessionId := if o.inDrawer then s.openCashSession o.ctx.shop.id else none
  if o.receivedByUnit then
    { s with
      entries := s.entries.insert o.entry
      tips := s.tips.insert (o.tip (some s.entries.next) cashSessionId) }
  else { s with tips := s.tips.insert (o.tip none cashSessionId) }

end TipOrder

/-! ## A tip is removed -/

def TipBooks.findTip (s : TipBooks) (ctx : Caller) (id : ℕ) : Result StaffTip := do
  let tip ← orRefuse ((s.tips.get? id).filter (·.barbershopId == ctx.shop.id))
    (.notFound "Caixinha não encontrada")
  refuseIf (tip.method = STRIPE) (.badRequest
    "Caixinha paga pelo app não se apaga aqui: o estorno é pelo painel do Stripe")
  return tip

/-- May the caller remove a tip that was read? -/
def TipBooks.ensureMayRemove (s : TipBooks) (ctx : Caller) (tip : StaffTip) : Result Unit := do
  let appt ← s.loadAppointment ctx tip.appointmentId
  let desk ← ctx.ensureCanManage (appt.barberUserId barbers)
  refuseIf (desk = false ∧ (tip.createdByUserId ≠ some ctx.userId ∨ tip.destination = .unit ∨
      (tip.receivedByUnit = true ∧ s.rules.staffRecordsUnitTips = false)))
    (.forbidden "Essa caixinha só a recepção (ou quem registrou) pode apagar")

/-- What the transaction of `remove` writes. -/
def TipBooks.dropTip (s : TipBooks) (id : ℕ) (tip : StaffTip) : TipBooks :=
  { s with
    tips := s.tips.erase id
    entries := tip.payEntryId.elim s.entries s.entries.erase }

/-! ## The appointment moves -/

/-- The data of `updateAppointment` that the tips depend on. -/
structure AppointmentPatch where
  barberId : Option ℕ
  startAt : Option ℤ
  endAt : Option ℤ
  status : Option AppointmentStatus

def NO_SHOW_GRACE_MINUTES : ℤ := 5

def IN_PROGRESS_EARLY_MINUTES : ℤ := 30

def assertStatusFitsTime (status : AppointmentStatus) (startAt now : ℤ) : Result Unit := do
  refuseIf (status = .noShow ∧ now < startAt + NO_SHOW_GRACE_MINUTES * 60000) (.badRequest
    "Só dá para marcar falta 5 minutos depois do início do horário. Antes disso, cancele o horário (o cliente é avisado).")
  refuseIf (status = .inProgress ∧ now < startAt - IN_PROGRESS_EARLY_MINUTES * 60000) (.badRequest
    "Só dá para pôr em atendimento a partir de 30 minutos antes do início do horário.")
  refuseIf (status = .completed ∧ now < startAt) (.badRequest
    "Só dá para marcar como concluído depois do início do horário. Antes disso, cancele ou remarque.")

/-- A change of an appointment that was `seen`. -/
structure MoveOrder where
  ctx : Caller
  appointmentId : ℕ
  seen : Appointment
  data : AppointmentPatch

def checkMove (ctx : Caller) (appointmentId : ℕ) (data : AppointmentPatch) (s : TipBooks) :
    Result MoveOrder := do
  ctx.ensureBarbershopAccess .basic
  let appointment ← s.loadAppointment ctx appointmentId
  refuseIf (ctx.ownBarberId.any (· != appointment.barberId) = true)
    (.notFound "Agendamento não encontrado")
  refuseIf (ctx.ownBarberId.any (fun own => data.barberId.any (· != own)) = true)
    (.forbidden "Seu cargo só permite mexer na sua própria agenda.")
  return ⟨ctx, appointmentId, appointment, data⟩

namespace MoveOrder

variable (o : MoveOrder)

def barberId : ℕ := o.data.barberId.getD o.seen.barberId

def barberChanged : Bool := o.data.barberId.any (· != o.seen.barberId)

def newStart : ℤ := o.data.startAt.getD o.seen.startAt

/-- A new start without a new end keeps the duration. -/
def newEnd : ℤ :=
  match o.data.endAt, o.data.startAt with
  | some stop, _ => stop
  | none, some start => start + (o.seen.endAt - o.seen.startAt)
  | none, none => o.seen.endAt

/-- `ensureBarberOfBarbershop`, for an active one -/
def ensureBarber : Result Unit :=
  refuseIf ((barbers.get? o.barberId).any (fun b =>
      b.barbershopId == o.ctx.shop.id && b.bookable && b.isActive) = false)
    (.notFound "Profissional não encontrado")

/-- `ensureTipsCanMove`, from the tips it read -/
def ensureTipsCanMove (tips : List (ℕ × StaffTip)) (s : TipBooks) : Result Unit :=
  refuseIf (tips.any (fun r => s.paidEntry r.2.payEntryId) ∨
      tips.any (fun r => !r.2.receivedByUnit || r.2.method == STRIPE)) (.badRequest
    "A caixinha deste atendimento já ficou com o profissional. Apague a caixinha antes de trocar o profissional.")

/-- The checks on the status and the times. -/
def check : Result Unit := do
  let status := o.data.status.filter (· != o.seen.status)
  refuseIf (status.any (fun status => !status.staff) = true)
    (.badRequest "Situação do agendamento inválida")
  refuseIf (o.newEnd ≤ o.newStart) (.badRequest "O fim tem que ser depois do início")
  status.elim (.ok ()) fun status => assertStatusFitsTime status o.newStart o.ctx.now

/-- The tip goes with the appointment. -/
def moveTip (t : StaffTip) : StaffTip :=
  if t.appointmentId = o.appointmentId ∧ t.destination = .professional then
    { t with barberId := some o.barberId }
  else t

/-- So does its entry, unless it is in a payout. -/
def moveEntry (ids : List (Option ℕ)) (id : ℕ) (e : StaffEntry) : StaffEntry :=
  if some id ∈ ids ∧ e.entry.payoutId = none then { e with barberId := o.barberId } else e

def moveAppointment (a : Appointment) : Appointment :=
  { a with
    barberId := o.data.barberId.getD a.barberId
    startAt := o.data.startAt.getD a.startAt
    endAt := if o.data.startAt.isSome ∨ o.data.endAt.isSome then o.newEnd else a.endAt
    status := o.data.status.getD a.status
    linkVersion := if o.data.status = some .cancelled ∧ o.seen.status ≠ .cancelled then
        a.linkVersion + 1 else a.linkVersion }

/-- The transaction of `updateAppointment`. -/
def commit (s : TipBooks) : TipBooks :=
  let appointments := s.appointments.modify o.appointmentId o.moveAppointment
  if o.barberChanged then
    { s with
      tips := s.tips.modifyAll fun _ => o.moveTip
      entries := s.entries.modifyAll
        (o.moveEntry ((s.tipsFor o.appointmentId).map (·.2.payEntryId)))
      appointments := appointments }
  else { s with appointments := appointments }

end MoveOrder

/-! ## Pay -/

/-- `barberOf` -/
def barberOf (ctx : Caller) (barberId : ℕ) : Result Barber :=
  orRefuse ((barbers.get? barberId).filter (·.barbershopId == ctx.shop.id))
    (.notFound "Profissional não encontrado")

end Checks

/-- The transaction of `pay`; the lock ends with it. -/
def PayoutOrder.commitFor (o : PayoutOrder) (barberId : ℕ) (r : PayComputation) (s : TipBooks) :
    TipBooks :=
  let pays := decide (0 < PayoutOrder.toPay r)
  let expenseId := if pays then some s.expenses.next else none
  let attached := s.entries.modifyAll fun id e =>
    { e with entry := e.entry.attach (r.entries.map (·.1)) s.payouts.next id }
  let carryOverEntryId := if r.total < 0 then some s.entries.next else none
  { s with
    expenses := if pays then s.expenses.insert (o.expense r) else s.expenses
    payouts := s.payouts.insert ⟨barberId, o.payout r expenseId carryOverEntryId⟩
    entries := if r.total < 0 then attached.insert ⟨barberId, o.carryOver r, false⟩ else attached
    paying := Function.update s.paying barberId false }

/-- What the transaction of `undoPayout` writes. -/
def TipBooks.dropPayout (s : TipBooks) (id : ℕ) (p : StaffPayout) : TipBooks :=
  { s with
    expenses := p.payout.expenseId.elim s.expenses s.expenses.erase
    entries := (p.payout.carryOverEntryId.elim s.entries s.entries.erase).modifyAll fun _ e =>
      { e with entry := e.entry.detach id }
    payouts := s.payouts.erase id }

/-! ## The calls, step by step -/

/-- Where a call is. -/
inductive TipCall where
  | add (ctx : Caller) (appointmentId : ℕ) (data : TipInput)
  | adding (o : TipOrder)
  | remove (ctx : Caller) (id : ℕ)
  | checkingAccess (ctx : Caller) (id : ℕ) (tip : StaffTip)
  | checkingCash (id : ℕ) (tip : StaffTip)
  | checkingEntry (id : ℕ) (tip : StaffTip)
  | removing (id : ℕ) (tip : StaffTip)
  | update (ctx : Caller) (appointmentId : ℕ) (data : AppointmentPatch)
  | findingTips (o : MoveOrder)
  | countingPaid (o : MoveOrder) (tips : List (ℕ × StaffTip))
  | moving (o : MoveOrder)
  | pay (ctx : Caller) (barberId : ℕ) (data : PayInput)
  | findingSession (ctx : Caller) (barberId : ℕ) (data : PayInput) (period : ℤ × ℤ)
  | locking (barberId : ℕ) (o : PayoutOrder)
  | overlapping (barberId : ℕ) (o : PayoutOrder)
  | computing (barberId : ℕ) (o : PayoutOrder)
  | committing (barberId : ℕ) (o : PayoutOrder) (r : PayComputation)
  | undoPayout (ctx : Caller) (id : ℕ)
  | checkingPayoutCash (id : ℕ) (p : StaffPayout)
  | checkingCarryOver (id : ℕ) (p : StaffPayout)
  | undoing (id : ℕ) (p : StaffPayout)

/-- What a step meets: `computeCommissions` gives a row, or the call ends, refused by a check beside
the model (on the customer, the resource, the sale, the schedule) or cut off. -/
inductive TipStep where
  | next (row : Option CommissionRow)
  | ends

namespace TipCall

abbrev Goes := Progress TipCall PayrollEnd

def refuse (r : Refusal) : Goes := .done (.refused r)

/-- The call goes on unless a check threw. -/
def goOn {α : Type} (x : Result α) (f : α → TipCall) : Goes :=
  match x with
  | .error r => refuse r
  | .ok a => .next (f a)

/-- The lock that ends with the transaction of the call. -/
def holds : TipCall → Option ℕ
  | overlapping barberId _ | computing barberId _ | committing barberId _ _ => some barberId
  | _ => none

def unlock (barberId : ℕ) (s : TipBooks) : TipBooks :=
  { s with paying := Function.update s.paying barberId false }

variable (cal : ShopCalendar) (barbers : Table Barber)

/-- `none`: the call waits for the lock. -/
def run (row : Option CommissionRow) (c : TipCall) (s : TipBooks) : Option (TipBooks × Goes) :=
  match c with
  | add ctx appointmentId data =>
    some (s, goOn (checkTip barbers ctx appointmentId data s) adding)
  | adding o => some (o.commit s, .done .ok)
  | remove ctx id => some (s, goOn (s.findTip ctx id) (checkingAccess ctx id))
  | checkingAccess ctx id tip =>
    some (s, goOn (s.ensureMayRemove barbers ctx tip) fun _ => checkingCash id tip)
  | checkingCash id tip =>
    some (s, goOn (refuseIf (s.closedSession tip.cashSessionId = true)
        (.badRequest "Essa caixinha é de um caixa já fechado; não dá pra apagar"))
      fun _ => checkingEntry id tip)
  | checkingEntry id tip =>
    some (s, goOn (refuseIf (s.paidEntry tip.payEntryId = true)
        (.badRequest "Essa caixinha já entrou num pagamento do profissional; não dá pra apagar"))
      fun _ => removing id tip)
  | removing id tip =>
    if (s.tips.get? id).isNone then some (s, .done .failed)
    else some (s.dropTip id tip, .done .ok)
  | update ctx appointmentId data =>
    some (s, goOn (do
      let o ← checkMove ctx appointmentId data s
      if o.barberChanged then o.ensureBarber barbers
      else o.check
      return o) fun o => if o.barberChanged then findingTips o else moving o)
  | findingTips o => some (s, .next (countingPaid o (s.tipsFor o.appointmentId)))
  | countingPaid o tips =>
    some (s, goOn (do
      MoveOrder.ensureTipsCanMove tips s
      o.check) fun _ => moving o)
  | moving o =>
    if (s.appointments.get? o.appointmentId).isNone ∨ (barbers.get? o.barberId).isNone then
      some (s, .done .failed)
    else some (o.commit s, .done .ok)
  | pay ctx barberId data =>
    some (s, goOn (do
      ctx.ensureBarbershopAccess .manager
      let barber ← barberOf barbers ctx barberId
      checkPay cal barber.userId ctx data) (findingSession ctx barberId data))
  | findingSession ctx barberId data period =>
    some (s, .next (locking barberId {
      ctx := ctx
      start := period.1
      stop := period.2
      method := data.method
      cashSessionId := if data.method = .cash then s.openCashSession ctx.shop.id else none }))
  | locking barberId o =>
    if s.paying barberId then none
    else some ({ s with paying := Function.update s.paying barberId true },
      .next (overlapping barberId o))
  | overlapping barberId o =>
    match s.overlapping barberId o.start o.stop with
    | some (_, clash) => some (unlock barberId s, refuse (cal.alreadyPaid clash.payout))
    | none => some (s, .next (computing barberId o))
  | computing barberId o => some (s, .next (committing barberId o
      (compute (s.config barberId) row (s.openEntries barberId o.stop) o.start o.stop)))
  | committing barberId o r => some (o.commitFor barberId r s, .done .ok)
  | undoPayout ctx id =>
    some (s, goOn (do
      ctx.ensureBarbershopAccess .manager
      let p ← orRefuse (s.payouts.get? id) (.notFound "Pagamento não encontrado")
      let barber ← barberOf barbers ctx p.barberId
      ctx.ensureNotOwnPay barber.userId
      return p) (checkingPayoutCash id))
  | checkingPayoutCash id p =>
    some (s, goOn (refuseIf (s.closedSession p.payout.cashSessionId = true) (.badRequest
        "O caixa em que esse dinheiro saiu já foi fechado. Lance a correção no caixa."))
      fun _ => checkingCarryOver id p)
  | checkingCarryOver id p =>
    some (s, goOn (refuseIf (s.paidEntry p.payout.carryOverEntryId = true) (.badRequest
        "O vale que sobrou deste pagamento já entrou no pagamento seguinte. Desfaça aquele antes."))
      fun _ => undoing id p)
  | undoing id p =>
    if (s.payouts.get? id).isNone then some (s, .done .failed)
    else some (s.dropPayout id p, .done .ok)

def step (k : TipStep) (c : TipCall) (s : TipBooks) : Option (TipBooks × Goes) :=
  match k with
  | .next row => c.run cal barbers row s
  | .ends => some (c.holds.elim s (unlock · s), .done .failed)

/-- A call as it arrives. -/
def starts : TipCall → Bool
  | add .. | remove .. | update .. | pay .. | undoPayout .. => true
  | _ => false

end TipCall

/-- What happens beside the calls: one arrives, an appointment is made or gets a status, the client
tips in the app, an entry is written by hand, the pay and the unit are configured, cash sessions open
and close. -/
inductive TipEvent where
  | arrive (c : TipCall)
  | book (a : Appointment)
  | status (appointmentId : ℕ) (status : AppointmentStatus)
  | appTip (appointmentId barbershopId : ℕ) (barberId : Option ℕ) (destination : TipDestination)
      (amount : ℚ)
  | enter (barberId : ℕ) (e : BarberPayEntry)
  | configure (barberId : ℕ) (config : BarberPayConfig)
  | rules (rules : TipRules)
  | cash (sessions : Table CashSession)

/-- A tip that the app records; nobody of the unit holds it. -/
def appTip (appointmentId barbershopId : ℕ) (barberId : Option ℕ) (destination : TipDestination)
    (amount : ℚ) : StaffTip where
  cashSessionId := none
  method := STRIPE
  amount := amount
  appointmentId := appointmentId
  barbershopId := barbershopId
  barberId := barberId
  destination := destination
  receivedByUnit := false
  payEntryId := none
  createdByUserId := none

def TipEvent.apply (e : TipEvent) (s : TipBooks) : Option (TipBooks × Option TipCall) :=
  match e with
  | arrive c => if c.starts then some (s, some c) else none
  | book a => some ({ s with appointments := s.appointments.insert a }, none)
  | status id next =>
    some ({ s with appointments := s.appointments.modify id fun a => { a with status := next } },
      none)
  | appTip appointmentId barbershopId barberId destination amount =>
    let tip := Barbershop.appTip appointmentId barbershopId barberId destination amount
    some ({ s with tips := s.tips.insert tip }, none)
  | enter barberId e =>
    some ({ s with entries := s.entries.insert ⟨barberId, { e with payoutId := none }, false⟩ },
      none)
  | configure barberId config =>
    some ({ s with config := Function.update s.config barberId (some config) }, none)
  | rules r => some ({ s with rules := r }, none)
  | cash sessions => some ({ s with cashSessions := sessions }, none)

/-- The calls about tips and pay of a unit, side by side. -/
def tipCalls (cal : ShopCalendar) (barbers : Table Barber) :
    CallSystem TipBooks TipCall TipEvent TipStep where
  event := TipEvent.apply
  step k c s := (c.step cal barbers k s).map fun r => (r.1, r.2.running)

/-- A unit before its first appointment. -/
def TipBooks.initial (rules : TipRules) (sessions : Table CashSession) : TipBooks where
  rules := rules
  config _ := none
  appointments := .empty
  tips := .empty
  entries := .empty
  payouts := .empty
  expenses := .empty
  cashSessions := sessions
  paying _ := false

end Barbershop
