import Mathlib.Data.List.Sort
import Barbershop.Agenda.AppointmentUpdate
import Barbershop.Agenda.Link
import Barbershop.Lib.Machine

/-!
# The chat of an appointment

An appointment has two threads: one of the client with the unit, and one with the professional.
Messages hang on the threads. Who may read is worked out at each read, from the appointment as it is
then (`ChatBooks.allowedKinds`); only the thread with the professional keeps whose it is
(`ChatBooks.professionalOf`).

Three readers hand messages out: `ChatBooks.threads`, `ChatBooks.staffInbox` and
`ChatBooks.clientInbox`. The inboxes are lists of rows with the last message of each thread.

`ChatMessage.exchangedWith` is no column: it is the record that the appointment belonged to when the
message was written, for the statements.
-/

namespace Barbershop

open Lib

/-! ## Rows -/

inductive ChatKind where
  | unit | professional
  deriving DecidableEq, Repr

inductive ChatSide where
  | client | staff
  deriving DecidableEq, Repr

/-- `Barber.staffType`, where it is one of `STAFF_TYPES`. -/
inductive StaffType where
  | basic | barber | reception | manager
  deriving DecidableEq, Repr

def StaffType.level : StaffType → AccessLevel
  | basic => .basic
  | barber => .barber
  | reception => .reception
  | manager => .manager

structure ChatShop where
  name : String
  ownerUserId : Option ℕ
  networkOwnerUserId : Option ℕ
  /-- `practiceKind = 'solo'` -/
  solo : Bool
  closedAt : Option ℤ
  /-- Of the unit or of its network. -/
  suspended : Bool

/-- A row of `barbers`. -/
structure StaffMember where
  barbershopId : ℕ
  name : String
  userId : Option ℕ
  staffType : Option StaffType
  isActive : Bool
  accessStartsAt : Option ℤ
  accessEndsAt : Option ℤ

structure ChatCustomer where
  name : String
  clientAccountId : Option ℕ
  blockedAt : Option ℤ

structure ClientAccount where
  deletedAt : Option ℤ
  suspendedAt : Option ℤ

structure ChatThread where
  appointmentId : ℕ
  kind : ChatKind
  barbershopId : ℕ
  customerId : ℕ
  /-- The professional of the time when the thread was opened. -/
  barberId : Option ℕ
  lastMessageAt : Option ℤ
  clientReadAt : Option ℤ
  staffReadAt : Option ℤ
  retainUntil : Option ℤ
  closedAt : Option ℤ

/-- Opening a thread marks what the other side wrote as read. -/
def ChatThread.read (now : ℤ) (side : ChatSide) (t : ChatThread) : ChatThread :=
  match side with
  | .client => { t with clientReadAt := some now }
  | .staff => { t with staffReadAt := some now }

structure ChatMessage where
  createdAt : ℤ
  threadId : ℕ
  senderSide : ChatSide
  senderUserId : Option ℕ
  body : List Char
  /-- Not a column. -/
  exchangedWith : ℕ

structure ChatBooks where
  shops : Table ChatShop
  staff : Table StaffMember
  customers : Table ChatCustomer
  accounts : Table ClientAccount
  appointments : Table Appointment
  chatThreads : Table ChatThread
  chatMessages : Table ChatMessage

inductive ChatViewer where
  | client (clientAccountId : Option ℕ) (manageToken : Option LinkText)
  | staff (userId : ℕ)

def ChatViewer.side : ChatViewer → ChatSide
  | client _ _ => .client
  | staff _ => .staff

/-! ## Access of the staff -/

/-- `currentEngagement` -/
def StaffMember.engaged (now : ℤ) (b : StaffMember) : Bool :=
  b.isActive && b.accessStartsAt.all (· ≤ now) && b.accessEndsAt.all (now ≤ ·)

namespace ChatBooks

variable (mac : Mac) (now : ℤ) (s : ChatBooks)

/-- `getMyAccessLevel` -/
def accessLevelOf (userId barbershopId : ℕ) : Option AccessLevel := do
  let shop ← s.shops.get? barbershopId
  if shop.closedAt.isSome then none
  else if shop.ownerUserId = some userId ∨ shop.networkOwnerUserId = some userId then some .owner
  else
    let (_, staff) ← s.staff.find? fun _ b =>
      b.barbershopId == barbershopId && b.userId == some userId && b.engaged now
    return staff.staffType.elim .barber StaffType.level

/-- `DESK_LEVELS` -/
def desk (level : AccessLevel) : Bool :=
  level == .reception || level == .manager || level == .owner

/-! ## Reading the threads of an appointment -/

/-- What `loadAppointment` selects; `professional` is that of the thread of this kind, if there is
one. -/
structure Loaded where
  id : ℕ
  row : Appointment
  shop : ChatShop
  barber : StaffMember
  customer : ChatCustomer
  account : Option ClientAccount
  professional : Option ℕ

def threadOf (appointmentId : ℕ) (kind : ChatKind) : Option (ℕ × ChatThread) :=
  s.chatThreads.find? fun _ t => t.appointmentId == appointmentId && t.kind == kind

def loadAppointment (id : ℕ) : Option Loaded := do
  let row ← s.appointments.get? id
  let shop ← s.shops.get? row.barbershopId
  let barber ← s.staff.get? row.barberId
  let customer ← s.customers.get? row.customerId
  return {
    id := id
    row := row
    shop := shop
    barber := barber
    customer := customer
    account := customer.clientAccountId.bind s.accounts.get?
    professional := (s.threadOf id .professional).bind (·.2.barberId) }

def kindsOf (appt : Loaded) : List ChatKind :=
  if appt.shop.solo then [.professional] else [.unit, .professional]

/-- Whose the thread with the professional is. -/
structure Professional where
  id : ℕ
  name : String
  userId : Option ℕ
  current : Bool

def professionalOf (appt : Loaded) : Professional :=
  let present : Professional := ⟨appt.row.barberId, appt.barber.name, appt.barber.userId, true⟩
  match appt.professional with
  | none => present
  | some pinned =>
    if pinned = appt.row.barberId then present
    else
      let barber := s.staff.get? pinned
      ⟨pinned, (barber.map (·.name)).getD "", barber.bind (·.userId), false⟩

def CHAT_OPEN_DAYS_AFTER : ℤ := 7

/-- Past the days in which a thread takes messages. -/
def Loaded.expired (appt : Loaded) : Bool :=
  decide (appt.row.endAt + CHAT_OPEN_DAYS_AFTER * 86400000 < now)

def allowedKinds (appt : Loaded) : ChatViewer → List ChatKind
  | .client clientAccountId manageToken =>
    if appt.account.any (fun account => account.deletedAt.isSome || account.suspendedAt.isSome) then
      []
    else
      let byToken := manageToken.any (!·.isEmpty) &&
        appointmentLinkCovers mac manageToken .manage appt.id appt.row now
      let byAccount := clientAccountId.isSome && appt.customer.clientAccountId == clientAccountId
      if byToken || byAccount then kindsOf appt else []
  | .staff userId =>
    let level := s.accessLevelOf now userId appt.row.barbershopId
    (kindsOf appt).filter fun
      | .unit => level.any desk
      | .professional => (s.professionalOf appt).userId == some userId && level.isSome

def appointmentFor (id : ℕ) (viewer : ChatViewer) (barbershopId : Option ℕ) :
    Result (Loaded × List ChatKind) := do
  let appt ← orRefuse ((s.loadAppointment id).filter fun appt =>
    barbershopId.all (· == appt.row.barbershopId)) (.notFound "Agendamento não encontrado")
  let kinds := s.allowedKinds mac now appt viewer
  refuseIf (kinds = []) (.notFound "Agendamento não encontrado")
  return (appt, kinds)

/-- The messages of a thread, the oldest first. -/
def messagesOf (threadId : ℕ) : List (ℕ × ChatMessage) :=
  (s.chatMessages.filter fun _ m => m.threadId == threadId).insertionSort fun a b =>
    a.2.createdAt ≤ b.2.createdAt

structure MessageView where
  id : ℕ
  createdAt : ℤ
  side : ChatSide
  body : List Char
  mine : Bool

structure ThreadView where
  appointmentId : ℕ
  kind : ChatKind
  title : String
  startAt : ℤ
  canSend : Bool
  reported : Bool
  closed : Bool
  blocked : Bool
  messages : List MessageView

def titleFor (appt : Loaded) (kind : ChatKind) (side : ChatSide) (professionalName : String) :
    String :=
  match side, kind with
  | .staff, _ => appt.customer.name
  | .client, .unit => appt.shop.name
  | .client, .professional => professionalName

def view (appt : Loaded) (side : ChatSide) (kind : ChatKind) : ThreadView :=
  let professional := s.professionalOf appt
  let thread := s.threadOf appt.id kind
  { appointmentId := appt.id
    kind := kind
    title := titleFor appt kind side professional.name
    startAt := appt.row.startAt
    canSend := decide (appt.row.status ≠ .cancelled) && !thread.any (·.2.closedAt.isSome) &&
      !appt.expired now && !(kind == .professional && !professional.current) &&
      !(side == .client && appt.customer.blockedAt.isSome)
    reported := thread.any (·.2.retainUntil.isSome)
    closed := thread.any (·.2.closedAt.isSome)
    blocked := appt.customer.blockedAt.isSome
    messages := (thread.elim [] fun t => s.messagesOf t.1).map fun m => {
      id := m.1
      createdAt := m.2.createdAt
      side := m.2.senderSide
      body := m.2.body
      mine := m.2.senderSide == side } }

def threads (appointmentId : ℕ) (viewer : ChatViewer) (barbershopId : Option ℕ) :
    Result (List ThreadView × ChatBooks) := do
  let (appt, kinds) ← s.appointmentFor mac now appointmentId viewer barbershopId
  let opened (id : ℕ) (t : ChatThread) : Bool :=
    t.appointmentId == appointmentId && kinds.contains t.kind &&
      s.chatMessages.any fun _ m => m.threadId == id
  return (kinds.map (s.view now appt viewer.side), { s with
    chatThreads := s.chatThreads.modifyAll fun id t =>
      if opened id t then t.read now viewer.side else t })

/-! ## Writing a message -/

/-- The length of a text in the units of the source. -/
def utf16Length (text : List Char) : ℕ := (text.map fun c => if c.toNat < 0x10000 then 1 else 2).sum

def MAX_BODY : ℕ := 2000

/-- What stands in the way of a message in this thread. -/
def sendChecks (appt : Loaded) (kinds : List ChatKind) (kind : ChatKind) (side : ChatSide) :
    Result Unit := do
  refuseIf (kind ∉ kinds) (.forbidden "Conversa indisponível")
  refuseIf (appt.row.status = .cancelled)
    (.badRequest "Atendimento cancelado: a conversa não recebe mensagens.")
  refuseIf (side = .client ∧ appt.customer.blockedAt.isSome)
    (.forbidden "A unidade não recebe mensagens deste cliente.")
  -- `assertShopInService`
  refuseIf (side = .client ∧ (appt.shop.closedAt.isSome ∨ appt.shop.suspended)) (.badRequest
    "Esta unidade não está recebendo pelo app no momento. Fale diretamente com ela.")
  refuseIf (appt.expired now) (.badRequest "A conversa deste atendimento foi encerrada.")
  refuseIf (kind = .professional ∧ (s.professionalOf appt).current = false)
    (.badRequest "O profissional deste horário mudou. Fale com a unidade.")
  refuseIf ((s.threadOf appt.id kind).any (·.2.closedAt.isSome))
    (.badRequest "Conversa encerrada pela moderação.")

/-- The upsert of the thread, with its key. -/
def upsertThread (appt : Loaded) (kind : ChatKind) (side : ChatSide) : ℕ × Table ChatThread :=
  match s.threadOf appt.id kind with
  | some (id, _) =>
    (id, s.chatThreads.modify id fun t => { t.read now side with lastMessageAt := some now })
  | none =>
    let fresh : ChatThread := {
      appointmentId := appt.id
      kind := kind
      barbershopId := appt.row.barbershopId
      customerId := appt.row.customerId
      barberId := match kind with
        | .professional => some appt.row.barberId
        | .unit => none
      lastMessageAt := some now
      clientReadAt := none
      staffReadAt := none
      retainUntil := none
      closedAt := none }
    (s.chatThreads.next, s.chatThreads.insert (fresh.read now side))

def send (appointmentId : ℕ) (kind : ChatKind) (body : List Char) (viewer : ChatViewer)
    (barbershopId : Option ℕ) : Result ChatBooks := do
  let text := trimmed body
  refuseIf (text = []) (.badRequest "Escreva a mensagem")
  refuseIf (MAX_BODY < utf16Length text) (.badRequest "Mensagem com no máximo 2000 caracteres")
  let (appt, kinds) ← s.appointmentFor mac now appointmentId viewer barbershopId
  s.sendChecks now appt kinds kind viewer.side
  let (threadId, chatThreads) := s.upsertThread now appt kind viewer.side
  return { s with
    chatThreads := chatThreads
    chatMessages := s.chatMessages.insert {
      createdAt := now
      threadId := threadId
      senderSide := viewer.side
      senderUserId := match viewer with
        | .staff userId => some userId
        | .client _ _ => none
      body := text
      exchangedWith := appt.row.customerId } }

/-! ## The inboxes -/

def INBOX_SIZE : ℕ := 50

/-- A thread of an inbox, with its appointment and its last message. -/
structure InboxRow where
  threadId : ℕ
  thread : ChatThread
  appointment : Appointment
  lastMessage : Option (ℕ × ChatMessage)

/-- Threads with messages that satisfy `p`, the last written first. -/
def inboxRows (p : ℕ → ChatThread → Bool) (size : ℕ) : List InboxRow :=
  let found := s.chatThreads.filter fun id t => t.lastMessageAt.isSome && p id t
  let sorted := found.insertionSort fun a b => b.2.lastMessageAt.getD 0 ≤ a.2.lastMessageAt.getD 0
  (sorted.take size).filterMap fun t => (s.appointments.get? t.2.appointmentId).map fun appt =>
    { threadId := t.1, thread := t.2, appointment := appt, lastMessage := (s.messagesOf t.1).getLast? }

/-- The rows of the staff in which the user works now. -/
def engagements (userId : ℕ) : List (ℕ × StaffMember) :=
  s.staff.filter fun _ b => b.userId == some userId && b.engaged now

def staffRows (userId : ℕ) (onlyAppointmentId : Option ℕ) : List InboxRow :=
  let shops := s.engagements now userId
  let owned := s.shops.filter fun _ shop => shop.ownerUserId == some userId
  let shopIds := (shops.map (·.2.barbershopId) ++ owned.map (·.1)).dedup
  let deskShops := shopIds.filter fun id => (s.accessLevelOf now userId id).any desk
  s.inboxRows (fun _ t => onlyAppointmentId.all (· == t.appointmentId) && match t.kind with
      | .unit => deskShops.contains t.barbershopId
      | .professional => t.barberId.any fun id => (shops.map (·.1)).contains id)
    (if onlyAppointmentId.isSome then 5 else INBOX_SIZE)

def clientRows (clientAccountId : ℕ) : List InboxRow :=
  s.inboxRows (fun _ t => ((s.appointments.get? t.appointmentId).bind fun a =>
    s.customers.get? a.customerId).any fun c => c.clientAccountId == some clientAccountId) INBOX_SIZE

/-- What the other side wrote since this side last read. -/
def unreadCount (row : InboxRow) (side : ChatSide) : ℕ :=
  let readAt := match side with
    | .client => row.thread.clientReadAt
    | .staff => row.thread.staffReadAt
  ((s.messagesOf row.threadId).filter fun m =>
    m.2.senderSide != side && readAt.all (· < m.2.createdAt)).length

structure InboxView where
  appointmentId : ℕ
  barbershopId : ℕ
  kind : ChatKind
  title : String
  subtitle : String
  startAt : ℤ
  lastMessageAt : Option ℤ
  lastMessage : Option (List Char)
  unread : ℕ

def inboxView (side : ChatSide) (title : InboxRow → String) (row : InboxRow) : InboxView where
  appointmentId := row.thread.appointmentId
  barbershopId := row.appointment.barbershopId
  kind := row.thread.kind
  title := title row
  subtitle := ((s.shops.get? row.appointment.barbershopId).map (·.name)).getD ""
  startAt := row.appointment.startAt
  lastMessageAt := row.thread.lastMessageAt
  lastMessage := row.lastMessage.map (·.2.body)
  unread := s.unreadCount row side

def staffInbox (userId : ℕ) (onlyAppointmentId : Option ℕ) : List InboxView :=
  (s.staffRows now userId onlyAppointmentId).map <| s.inboxView .staff fun row =>
    ((s.customers.get? row.appointment.customerId).map (·.name)).getD ""

def clientInbox (clientAccountId : ℕ) : List InboxView :=
  (s.clientRows clientAccountId).map <| s.inboxView .client fun row =>
    match row.thread.kind with
    | .unit => ((s.shops.get? row.appointment.barbershopId).map (·.name)).getD ""
    | .professional =>
      let pinned := (row.thread.barberId.bind s.staff.get?).map (·.name)
      (pinned.filter (· ≠ "")).getD
        (((s.staff.get? row.appointment.barberId).map (·.name)).getD "")

end ChatBooks

/-! ## Steps -/

/-- The columns of `updateBarber` and `deleteBarber` that decide about access. -/
structure EngagementEdit where
  staffType : Option (Option StaffType)
  isActive : Option Bool
  accessStartsAt : Option (Option ℤ)
  accessEndsAt : Option (Option ℤ)

def EngagementEdit.apply (e : EngagementEdit) (b : StaffMember) : StaffMember :=
  { b with
    staffType := e.staffType.getD b.staffType
    isActive := e.isActive.getD b.isActive
    accessStartsAt := e.accessStartsAt.getD b.accessStartsAt
    accessEndsAt := e.accessEndsAt.getD b.accessEndsAt }

inductive ChatEvent where
  | send (now : ℤ) (appointmentId : ℕ) (kind : ChatKind) (body : List Char) (viewer : ChatViewer)
    (barbershopId : Option ℕ)
  | threads (now : ℤ) (appointmentId : ℕ) (viewer : ChatViewer) (barbershopId : Option ℕ)
  | updateAppointment (ctx : Caller) (id : ℕ) (data : AppointmentChange) (ans : UpdateAnswers)
  | updateBarber (barberId : ℕ) (data : EngagementEdit)
  /-- The account of a user is deleted. -/
  | deleteUser (userId : ℕ)
  | deleteBarbershop (now : ℤ) (barbershopId : ℕ)
  | reportChatThread (threadId : ℕ)
  /-- `setHidden` of a thread: to end it, or to open it again. -/
  | setHidden (threadId : ℕ) (closedAt : Option ℤ)
  /-- A report was decided. -/
  | resolve (threadId : ℕ)

/-- `2100-01-01T00:00:00Z` -/
def HOLD_UNTIL : ℤ := 4102444800000

/-- The professional to whom an appointment goes is one of the unit. -/
def ChatBooks.answers (s : ChatBooks) (ctx : Caller) (data : AppointmentChange)
    (ans : UpdateAnswers) : UpdateAnswers :=
  { ans with
    ensureBarberOfBarbershop := do
      refuseIf (¬data.barberId.all fun id =>
          (s.staff.get? id).any fun b => b.barbershopId == ctx.shop.id && b.isActive)
        (.notFound "Profissional não encontrado")
      ans.ensureBarberOfBarbershop }

/-- `none`: the request is refused. -/
def ChatEvent.step (mac : Mac) (s : ChatBooks) : ChatEvent → Option ChatBooks
  | send now appointmentId kind body viewer barbershopId =>
    (s.send mac now appointmentId kind body viewer barbershopId).toOption
  | threads now appointmentId viewer barbershopId =>
    (s.threads mac now appointmentId viewer barbershopId).toOption.map Prod.snd
  | updateAppointment ctx id data ans => do
    let a ← s.appointments.get? id
    let a' ← (Barbershop.updateAppointment ctx data (s.answers ctx data ans) a).toOption
    return { s with appointments := s.appointments.modify id fun _ => a' }
  | updateBarber barberId data => do
    let b ← s.staff.get? barberId
    let shop ← s.shops.get? b.barbershopId
    -- nobody has access to a unit that is closed
    guard (shop.closedAt = none)
    return { s with staff := s.staff.modify barberId data.apply }
  | deleteUser userId => some { s with
      staff := s.staff.modifyAll fun _ b => if b.userId = some userId then { b with userId := none } else b }
  | deleteBarbershop now barbershopId => some { s with
      shops := s.shops.modify barbershopId fun shop => { shop with closedAt := some now }
      staff := s.staff.modifyAll fun _ b =>
        if b.barbershopId = barbershopId then { b with isActive := false } else b }
  | reportChatThread threadId => some { s with
      chatThreads := s.chatThreads.modify threadId fun t => { t with retainUntil := some HOLD_UNTIL } }
  | setHidden threadId closedAt => some { s with
      chatThreads := s.chatThreads.modify threadId fun t => { t with closedAt := closedAt } }
  | resolve threadId => some { s with
      chatThreads := s.chatThreads.modify threadId fun t => { t with retainUntil := none } }

def chat (mac : Mac) : Machine ChatBooks ChatEvent := ⟨ChatEvent.step mac⟩

end Barbershop
