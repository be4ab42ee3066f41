import Barbershop.Agenda.Chat
import Barbershop.Service

/-!
# Who reads the messages of a chat

`ChatBooks.Private` is the confidentiality of the chat: what its three readers hand to a viewer was
written while the appointment belonged to the viewer's record, for a client, and is in a thread that
is the viewer's to read, for the staff.

For the staff it holds of every state a run reaches. For clients it fails: access goes by the
present record of the appointment, and the messages of the record before stay in the threads. It
holds in the runs in which no appointment with messages goes to another record
(`ChatEvent.keepsParties`). What the readers rely on is `ChatBooks.Sound`.
-/

namespace Barbershop

open Lib

namespace ChatBooks

/-! ## The law -/

/-- A thread that a member of the staff may read: the one with the professional, who has access to
the unit; the one with the unit, from the reception upwards. -/
def MayRead (now : ℤ) (s : ChatBooks) (userId : ℕ) (t : ChatThread) : Prop :=
  match t.kind with
  | .unit => (s.accessLevelOf now userId t.barbershopId).any desk = true
  | .professional => (s.accessLevelOf now userId t.barbershopId).isSome = true ∧
      ∃ id b, t.barberId = some id ∧ s.staff.get? id = some b ∧ b.userId = some userId

/-- The record of an appointment is the viewer's: of the viewer's account, or the viewer has a link
that is accepted now. -/
def ViewerOf (mac : Mac) (now : ℤ) (s : ChatBooks) (id : ℕ) (a : Appointment)
    (account : Option ℕ) (token : Option LinkText) : Prop :=
  (∃ c, s.customers.get? a.customerId = some c ∧ account.isSome ∧ c.clientAccountId = account) ∨
    appointmentLinkCovers mac token .manage id a now = true

structure Private (mac : Mac) (s : ChatBooks) : Prop where
  clientThreads : ∀ now id account token unit views s',
    s.threads mac now id (.client account token) unit = .ok (views, s') → ∃ a,
      s.appointments.get? id = some a ∧ s.ViewerOf mac now id a account token ∧
      ∀ v ∈ views, ∀ m ∈ v.messages, ∃ row, s.chatMessages.get? m.id = some row ∧
        row.exchangedWith = a.customerId
  clientInbox : ∀ account, ∀ row ∈ s.clientRows account, ∀ m ∈ row.lastMessage,
    ∃ c, s.customers.get? m.2.exchangedWith = some c ∧ c.clientAccountId = some account
  staffThreads : ∀ now id userId unit views s',
    s.threads mac now id (.staff userId) unit = .ok (views, s') →
      ∀ v ∈ views, ∀ m ∈ v.messages, ∃ row t, s.chatMessages.get? m.id = some row ∧
        s.chatThreads.get? row.threadId = some t ∧ s.MayRead now userId t
  staffInbox : ∀ now userId only, ∀ row ∈ s.staffRows now userId only, ∀ m ∈ row.lastMessage,
    ∃ t, s.chatThreads.get? m.2.threadId = some t ∧ s.MayRead now userId t

/-- What the readers rely on. -/
structure Sound (s : ChatBooks) : Prop where
  /-- Who works in a unit works in one that is open. -/
  opened : ∀ {id b}, s.staff.get? id = some b → b.isActive = true →
    ∃ shop, s.shops.get? b.barbershopId = some shop ∧ shop.closedAt = none
  barber : ∀ {id a}, s.appointments.get? id = some a →
    ∃ b, s.staff.get? a.barberId = some b ∧ b.barbershopId = a.barbershopId
  thread : ∀ {k t}, s.chatThreads.get? k = some t →
    ∃ a, s.appointments.get? t.appointmentId = some a ∧ t.barbershopId = a.barbershopId
  pinned : ∀ {k t}, s.chatThreads.get? k = some t → t.kind = .professional →
    ∃ id b, t.barberId = some id ∧ s.staff.get? id = some b ∧ b.barbershopId = t.barbershopId
  /-- A message is of the record that its appointment has now. -/
  message : ∀ {k m}, s.chatMessages.get? k = some m → ∃ t a, s.chatThreads.get? m.threadId = some t ∧
    s.appointments.get? t.appointmentId = some a ∧ m.exchangedWith = a.customerId

/-! ## What the readers rely on gives privacy -/

variable {mac : Mac} {now : ℤ} {s s' : ChatBooks}

theorem mem_messagesOf {k : ℕ} {m : ℕ × ChatMessage} :
    m ∈ s.messagesOf k ↔ s.chatMessages.get? m.1 = some m.2 ∧ m.2.threadId = k := by
  rw [messagesOf, List.mem_insertionSort, Table.mem_filter, beq_iff_eq]

theorem threadOf_some {id : ℕ} {kind : ChatKind} {r : ℕ × ChatThread}
    (h : s.threadOf id kind = some r) :
    s.chatThreads.get? r.1 = some r.2 ∧ r.2.appointmentId = id ∧ r.2.kind = kind := by
  obtain ⟨hget, hp⟩ := Table.find?_some h
  simp only [Bool.and_eq_true, beq_iff_eq] at hp
  exact ⟨hget, hp.1, hp.2⟩

theorem loadAppointment_some {id : ℕ} {appt : Loaded} (h : s.loadAppointment id = some appt) :
    appt.id = id ∧ s.appointments.get? id = some appt.row ∧
      s.staff.get? appt.row.barberId = some appt.barber ∧
      s.customers.get? appt.row.customerId = some appt.customer ∧
      appt.professional = (s.threadOf id .professional).bind (·.2.barberId) := by
  simp only [loadAppointment, Option.bind_eq_bind, Option.bind_eq_some_iff] at h
  obtain ⟨row, hrow, shop, -, barber, hbarber, customer, hcustomer, hload⟩ := h
  obtain rfl := Option.some.inj hload
  exact ⟨rfl, hrow, hbarber, hcustomer, rfl⟩

theorem threads_ok {id : ℕ} {viewer : ChatViewer} {unit : Option ℕ} {views : List ThreadView}
    (h : s.threads mac now id viewer unit = .ok (views, s')) : ∃ appt,
    s.loadAppointment id = some appt ∧ s.allowedKinds mac now appt viewer ≠ [] ∧
      views = (s.allowedKinds mac now appt viewer).map (s.view now appt viewer.side) ∧
      ∃ f : ℕ → ChatThread → ChatThread, (∀ k t, f k t = t ∨ f k t = t.read now viewer.side) ∧
        s' = { s with chatThreads := s.chatThreads.modifyAll f } := by
  simp only [threads, appointmentFor, bind_eq_ok, orRefuse_eq_ok, refuseIf_eq_ok, exists_punit,
    pure_eq_ok, Option.filter_eq_some_iff] at h
  obtain ⟨⟨appt, kinds⟩, ⟨appt', ⟨hload, -⟩, hkinds, hpair⟩, hviews⟩ := h
  obtain ⟨rfl, rfl⟩ := Prod.mk.inj hpair
  obtain ⟨rfl, rfl⟩ := Prod.mk.inj hviews
  refine ⟨appt', hload, hkinds, rfl, _, fun k t => ?_, rfl⟩
  split
  · exact .inr rfl
  · exact .inl rfl

/-- A message of a view is a row of the thread of this kind. -/
theorem mem_view {appt : Loaded} {side : ChatSide} {kind : ChatKind} {m : MessageView}
    (h : m ∈ (s.view now appt side kind).messages) : ∃ r row, s.threadOf appt.id kind = some r ∧
      s.chatMessages.get? m.id = some row ∧ row.threadId = r.1 := by
  simp only [view, List.mem_map] at h
  obtain ⟨row, hrow, rfl⟩ := h
  cases hthread : s.threadOf appt.id kind with
  | none => simp [hthread] at hrow
  | some r =>
    rw [hthread, Option.elim_some, mem_messagesOf] at hrow
    exact ⟨r, row.2, rfl, hrow.1, hrow.2⟩

theorem mem_inboxRows {p : ℕ → ChatThread → Bool} {size : ℕ} {row : InboxRow}
    (h : row ∈ s.inboxRows p size) : s.chatThreads.get? row.threadId = some row.thread ∧
      p row.threadId row.thread = true ∧
      s.appointments.get? row.thread.appointmentId = some row.appointment ∧
      ∀ m ∈ row.lastMessage, s.chatMessages.get? m.1 = some m.2 ∧ m.2.threadId = row.threadId := by
  simp only [inboxRows, List.mem_filterMap, Option.map_eq_some_iff] at h
  obtain ⟨t, ht, a, ha, rfl⟩ := h
  have hmem := List.mem_of_mem_take ht
  rw [List.mem_insertionSort, Table.mem_filter] at hmem
  obtain ⟨hget, hp⟩ := hmem
  simp only [Bool.and_eq_true] at hp
  exact ⟨hget, hp.2, ha, fun m hm => mem_messagesOf.1 (List.mem_of_getLast? hm)⟩

theorem Sound.client_threads (hs : s.Sound) {id : ℕ} {account : Option ℕ} {token : Option LinkText}
    {unit : Option ℕ} {views : List ThreadView}
    (h : s.threads mac now id (.client account token) unit = .ok (views, s')) : ∃ a,
    s.appointments.get? id = some a ∧ s.ViewerOf mac now id a account token ∧
      ∀ v ∈ views, ∀ m ∈ v.messages, ∃ row, s.chatMessages.get? m.id = some row ∧
        row.exchangedWith = a.customerId := by
  obtain ⟨appt, hload, hkinds, rfl, -⟩ := threads_ok h
  obtain ⟨rfl, hrow, -, hcustomer, -⟩ := loadAppointment_some hload
  refine ⟨appt.row, hrow, ?_, ?_⟩
  · simp only [allowedKinds] at hkinds
    split at hkinds
    · exact absurd rfl hkinds
    · split at hkinds
      · next hby =>
        simp only [Bool.or_eq_true, Bool.and_eq_true, beq_iff_eq] at hby
        rcases hby with ⟨-, hcovers⟩ | ⟨hsome, haccount⟩
        · exact .inr hcovers
        · exact .inl ⟨appt.customer, hcustomer, hsome, haccount⟩
      · exact absurd rfl hkinds
  · intro v hv m hm
    obtain ⟨kind, -, rfl⟩ := List.mem_map.1 hv
    obtain ⟨r, row, hthread, hmessage, hof⟩ := mem_view hm
    obtain ⟨hget, hid, -⟩ := threadOf_some hthread
    obtain ⟨t, a, ht, ha, hwith⟩ := hs.message hmessage
    rw [hof, hget] at ht
    obtain rfl := Option.some.inj ht
    rw [hid, hrow] at ha
    obtain rfl := Option.some.inj ha
    exact ⟨row, hmessage, hwith⟩

theorem Sound.client_inbox (hs : s.Sound) {account : ℕ} {row : InboxRow}
    (h : row ∈ s.clientRows account) {m : ℕ × ChatMessage} (hm : m ∈ row.lastMessage) :
    ∃ c, s.customers.get? m.2.exchangedWith = some c ∧ c.clientAccountId = some account := by
  obtain ⟨hget, hp, ha, hlast⟩ := mem_inboxRows h
  obtain ⟨hmessage, hof⟩ := hlast m hm
  obtain ⟨t, a, ht, ha', hwith⟩ := hs.message hmessage
  rw [hof, hget] at ht
  obtain rfl := Option.some.inj ht
  obtain rfl := Option.some.inj (ha.symm.trans ha')
  rw [ha, Option.bind_some] at hp
  obtain ⟨c, hc, haccount⟩ := (Option.any_eq_true _ _).1 hp
  exact ⟨c, hwith ▸ hc, eq_of_beq haccount⟩

/-- Whoever works in a unit has access to it. -/
theorem Sound.access (hs : s.Sound) {id userId : ℕ} {b : StaffMember}
    (hget : s.staff.get? id = some b) (huser : b.userId = some userId)
    (hengaged : b.engaged now = true) :
    (s.accessLevelOf now userId b.barbershopId).isSome = true := by
  have hactive : b.isActive = true := by
    simp only [StaffMember.engaged, Bool.and_eq_true] at hengaged
    exact hengaged.1.1
  obtain ⟨shop, hshop, hopen⟩ := hs.opened hget hactive
  simp only [accessLevelOf, hshop, Option.bind_eq_bind, Option.bind_some, hopen, Option.isSome_none,
    Bool.false_eq_true, if_false]
  split
  · rfl
  · cases hfind : s.staff.find? fun _ b' =>
        b'.barbershopId == b.barbershopId && b'.userId == some userId && b'.engaged now with
    | some r => rfl
    | none =>
      have hnot := Table.find?_none.1 hfind id b hget
      simp [huser, hengaged] at hnot

theorem Sound.staff_threads (hs : s.Sound) {id userId : ℕ} {unit : Option ℕ}
    {views : List ThreadView} (h : s.threads mac now id (.staff userId) unit = .ok (views, s')) :
    ∀ v ∈ views, ∀ m ∈ v.messages, ∃ row t, s.chatMessages.get? m.id = some row ∧
      s.chatThreads.get? row.threadId = some t ∧ s.MayRead now userId t := by
  obtain ⟨appt, hload, -, rfl, -⟩ := threads_ok h
  obtain ⟨rfl, hrow, hbarber, -, hpinned⟩ := loadAppointment_some hload
  intro v hv m hm
  obtain ⟨kind, hkind, rfl⟩ := List.mem_map.1 hv
  obtain ⟨⟨k, t⟩, row, hthread, hmessage, hof⟩ := mem_view hm
  obtain ⟨hget, hid, rfl⟩ := threadOf_some hthread
  obtain ⟨a, ha, hunit⟩ := hs.thread hget
  rw [hid, hrow] at ha
  obtain rfl := Option.some.inj ha
  refine ⟨row, t, hmessage, by rw [hof, hget], ?_⟩
  have hallowed := (List.mem_filter.1 hkind).2
  cases hk : t.kind with
  | unit =>
    simp only [MayRead, hk]
    rw [hunit]
    simpa only [hk] using hallowed
  | professional =>
    simp only [hk, Bool.and_eq_true, beq_iff_eq] at hallowed
    obtain ⟨hprofessional, hlevel⟩ := hallowed
    obtain ⟨id, b, hid, hb, -⟩ := hs.pinned hget hk
    simp only [MayRead, hk]
    rw [hunit]
    refine ⟨hlevel, id, b, hid, hb, ?_⟩
    -- the thread is the one that pins the professional
    rw [hk] at hthread
    have hpin : appt.professional = some id := by rw [hpinned, hthread, Option.bind_some, hid]
    simp only [professionalOf, hpin] at hprofessional
    split at hprofessional
    · next heq =>
      rw [heq, hbarber] at hb
      rw [← Option.some.inj hb]
      exact hprofessional
    · simpa only [hb, Option.bind_some] using hprofessional

theorem Sound.staff_inbox (hs : s.Sound) {userId : ℕ} {only : Option ℕ} {row : InboxRow}
    (h : row ∈ s.staffRows now userId only) {m : ℕ × ChatMessage} (hm : m ∈ row.lastMessage) :
    ∃ t, s.chatThreads.get? m.2.threadId = some t ∧ s.MayRead now userId t := by
  obtain ⟨hget, hp, -, hlast⟩ := mem_inboxRows h
  obtain ⟨-, hof⟩ := hlast m hm
  refine ⟨row.thread, by rw [hof, hget], ?_⟩
  simp only [Bool.and_eq_true] at hp
  replace hp := hp.2
  cases hk : row.thread.kind with
  | unit =>
    simp only [hk, List.contains_iff_mem, List.mem_filter] at hp
    simp only [MayRead, hk]
    exact hp.2
  | professional =>
    simp only [hk] at hp
    obtain ⟨id, hid, hmem⟩ := (Option.any_eq_true _ _).1 hp
    simp only [List.contains_iff_mem, List.mem_map, engagements] at hmem
    obtain ⟨⟨id, b⟩, hb, rfl⟩ := hmem
    obtain ⟨hb, hworks⟩ := Table.mem_filter.1 hb
    simp only [Bool.and_eq_true, beq_iff_eq] at hworks
    obtain ⟨id', b', hid', hb', hunit⟩ := hs.pinned hget hk
    obtain rfl := Option.some.inj (hid.symm.trans hid')
    obtain rfl := Option.some.inj (hb.symm.trans hb')
    simp only [MayRead, hk]
    exact ⟨hunit ▸ hs.access hb hworks.1 hworks.2, id, b, hid, hb, hworks.1⟩

theorem Sound.private (hs : s.Sound) : s.Private mac where
  clientThreads _ _ _ _ _ _ _ h := hs.client_threads h
  clientInbox _ _ h _ hm := hs.client_inbox h hm
  staffThreads _ _ _ _ _ _ h := hs.staff_threads h
  staffInbox _ _ _ _ h _ hm := hs.staff_inbox h hm

/-! ## What the steps keep -/

/-- A write of a thread that leaves whose it is. -/
structure SameThread (t t' : ChatThread) : Prop where
  appointmentId : t'.appointmentId = t.appointmentId
  kind : t'.kind = t.kind
  barbershopId : t'.barbershopId = t.barbershopId
  barberId : t'.barberId = t.barberId

theorem SameThread.read (now : ℤ) (side : ChatSide) (t : ChatThread) :
    SameThread t (t.read now side) := by
  cases side <;> exact ⟨rfl, rfl, rfl, rfl⟩

theorem Sound.write_threads (hs : s.Sound) {f : ℕ → ChatThread → ChatThread}
    (hf : ∀ k t, SameThread t (f k t)) :
    ({ s with chatThreads := s.chatThreads.modifyAll f } : ChatBooks).Sound where
  opened := hs.opened
  barber := hs.barber
  thread {k t'} h := by
    rw [Table.get?_modifyAll] at h
    obtain ⟨t, ht, rfl⟩ := Option.map_eq_some_iff.1 h
    rw [(hf k t).appointmentId, (hf k t).barbershopId]
    exact hs.thread ht
  pinned {k t'} h hkind := by
    rw [Table.get?_modifyAll] at h
    obtain ⟨t, ht, rfl⟩ := Option.map_eq_some_iff.1 h
    rw [(hf k t).barberId, (hf k t).barbershopId]
    exact hs.pinned ht ((hf k t).kind ▸ hkind)
  message {k m} h := by
    obtain ⟨t, a, ht, ha, hwith⟩ := hs.message h
    refine ⟨f m.threadId t, a, ?_, ?_, hwith⟩
    · rw [Table.get?_modifyAll, ht, Option.map_some]
    · rw [(hf _ t).appointmentId]
      exact ha

/-- A write of one thread. -/
theorem Sound.write_thread (hs : s.Sound) (k : ℕ) {f : ChatThread → ChatThread}
    (hf : ∀ t, SameThread t (f t)) :
    ({ s with chatThreads := s.chatThreads.modify k f } : ChatBooks).Sound := by
  refine hs.write_threads fun j t => ?_
  split
  · exact hf t
  · exact ⟨rfl, rfl, rfl, rfl⟩

/-- A write of the staff that leaves everyone in the unit they are in. -/
theorem Sound.write_staff (hs : s.Sound) {shops : Table ChatShop} {g : ℕ → StaffMember → StaffMember}
    (hunit : ∀ k b, (g k b).barbershopId = b.barbershopId)
    (hopened : ∀ k b, s.staff.get? k = some b → (g k b).isActive = true →
      ∃ shop, shops.get? b.barbershopId = some shop ∧ shop.closedAt = none) :
    ({ s with shops := shops, staff := s.staff.modifyAll g } : ChatBooks).Sound where
  opened {k b'} h hactive := by
    rw [Table.get?_modifyAll] at h
    obtain ⟨b, hb, rfl⟩ := Option.map_eq_some_iff.1 h
    rw [hunit]
    exact hopened k b hb hactive
  barber {id a} h := by
    obtain ⟨b, hb, hin⟩ := hs.barber h
    exact ⟨g _ b, by rw [Table.get?_modifyAll, hb, Option.map_some], by rw [hunit, hin]⟩
  thread := hs.thread
  pinned h hkind := by
    obtain ⟨id, b, hid, hb, hin⟩ := hs.pinned h hkind
    exact ⟨id, g id b, hid, by rw [Table.get?_modifyAll, hb, Option.map_some], by rw [hunit, hin]⟩
  message := hs.message

/-- Someone wrote to a thread of the appointment. -/
def hasMessages (s : ChatBooks) (id : ℕ) : Bool :=
  s.chatMessages.any fun _ m => (s.chatThreads.get? m.threadId).any (·.appointmentId == id)

theorem Sound.write_appointment (hs : s.Sound) {id : ℕ} {a a' : Appointment}
    (hget : s.appointments.get? id = some a) (hunit : a'.barbershopId = a.barbershopId)
    (hbarber : ∃ b, s.staff.get? a'.barberId = some b ∧ b.barbershopId = a'.barbershopId)
    (hcustomer : a'.customerId = a.customerId ∨ s.hasMessages id = false) :
    ({ s with appointments := s.appointments.modify id fun _ => a' } : ChatBooks).Sound := by
  have hnew : ∀ {j b}, (s.appointments.modify id fun _ => a').get? j = some b →
      j = id ∧ b = a' ∨ s.appointments.get? j = some b := by
    intro j b h
    rw [Table.get?_modify] at h
    split at h
    · next hj =>
      subst hj
      rw [hget] at h
      exact .inl ⟨rfl, (Option.some.inj h).symm⟩
    · exact .inr h
  have hold : ∀ {j b}, s.appointments.get? j = some b → ∃ b',
      (s.appointments.modify id fun _ => a').get? j = some b' ∧
        b'.barbershopId = b.barbershopId ∧ (j = id ∧ b = a ∧ b' = a' ∨ b' = b) := by
    intro j b h
    by_cases hj : j = id
    · subst hj
      obtain rfl := Option.some.inj (hget.symm.trans h)
      exact ⟨a', by rw [Table.get?_modify_self, hget, Option.map_some], hunit, .inl ⟨rfl, rfl, rfl⟩⟩
    · exact ⟨b, by rw [Table.get?_modify_of_ne _ _ hj, h], rfl, .inr rfl⟩
  constructor
  · exact hs.opened
  · intro j b h
    rcases hnew h with ⟨rfl, rfl⟩ | h
    · exact hbarber
    · exact hs.barber h
  · intro k t h
    obtain ⟨b, hb, hin⟩ := hs.thread h
    obtain ⟨b', hb', hunit', -⟩ := hold hb
    exact ⟨b', hb', by rw [hin, hunit']⟩
  · exact hs.pinned
  · intro k m h
    obtain ⟨t, b, ht, hb, hwith⟩ := hs.message h
    obtain ⟨b', hb', -, ⟨hid, rfl, rfl⟩ | rfl⟩ := hold hb
    · refine ⟨t, b', ht, hb', ?_⟩
      rcases hcustomer with hsame | hnone
      · rw [hwith, hsame]
      · -- there is this message
        have hnot := Table.any_eq_false.1 hnone k m h
        simp [ht, hid] at hnot
    · exact ⟨t, b', ht, hb', hwith⟩

theorem Sound.insert_thread (hs : s.Sound) {t : ChatThread} {a : Appointment}
    (ha : s.appointments.get? t.appointmentId = some a) (hunit : t.barbershopId = a.barbershopId)
    (hpinned : t.kind = .professional → t.barberId = some a.barberId) :
    ({ s with chatThreads := s.chatThreads.insert t } : ChatBooks).Sound where
  opened := hs.opened
  barber := hs.barber
  thread h := by
    rcases Table.get?_insert_cases h with ⟨-, rfl⟩ | h
    · exact ⟨a, ha, hunit⟩
    · exact hs.thread h
  pinned h hkind := by
    rcases Table.get?_insert_cases h with ⟨-, rfl⟩ | h
    · obtain ⟨b, hb, hin⟩ := hs.barber ha
      exact ⟨a.barberId, b, hpinned hkind, hb, by rw [hin, hunit]⟩
    · exact hs.pinned h hkind
  message h := by
    obtain ⟨t', a', ht, hrest⟩ := hs.message h
    exact ⟨t', a', Table.get?_insert_of_some t ht, hrest⟩

theorem Sound.insert_message (hs : s.Sound) {m : ChatMessage} {t : ChatThread} {a : Appointment}
    (ht : s.chatThreads.get? m.threadId = some t)
    (ha : s.appointments.get? t.appointmentId = some a) (hwith : m.exchangedWith = a.customerId) :
    ({ s with chatMessages := s.chatMessages.insert m } : ChatBooks).Sound where
  opened := hs.opened
  barber := hs.barber
  thread := hs.thread
  pinned := hs.pinned
  message h := by
    rcases Table.get?_insert_cases h with ⟨-, rfl⟩ | h
    · exact ⟨t, a, ht, ha, hwith⟩
    · exact hs.message h

/-- The thread that a message is written to is of its appointment, found or opened. -/
theorem Sound.upsert (hs : s.Sound) {id : ℕ} {appt : Loaded}
    (hload : s.loadAppointment id = some appt) (kind : ChatKind) (side : ChatSide) :
    ({ s with chatThreads := (s.upsertThread now appt kind side).2 } : ChatBooks).Sound ∧
      ∃ t, (s.upsertThread now appt kind side).2.get? (s.upsertThread now appt kind side).1 = some t ∧
        t.appointmentId = id := by
  obtain ⟨rfl, hrow, -⟩ := loadAppointment_some hload
  unfold upsertThread
  cases hthread : s.threadOf appt.id kind with
  | some r =>
    obtain ⟨hget, hid, -⟩ := threadOf_some hthread
    have hsame : ∀ t : ChatThread, SameThread t { t.read now side with lastMessageAt := some now } :=
      fun t => ⟨(SameThread.read now side t).appointmentId, (SameThread.read now side t).kind,
        (SameThread.read now side t).barbershopId, (SameThread.read now side t).barberId⟩
    refine ⟨hs.write_thread r.1 hsame, _, by rw [Table.get?_modify_self, hget, Option.map_some], ?_⟩
    rw [(hsame r.2).appointmentId, hid]
  | none =>
    dsimp only
    refine ⟨hs.insert_thread (a := appt.row) ?_ ?_ ?_, _, Table.get?_insert_self _ _, ?_⟩
    · cases side <;> exact hrow
    · cases side <;> rfl
    · intro hkind
      cases side <;> cases kind <;> first | rfl | cases hkind
    · cases side <;> rfl

theorem Sound.send (hs : s.Sound) {id : ℕ} {kind : ChatKind} {body : List Char}
    {viewer : ChatViewer} {unit : Option ℕ}
    (h : s.send mac now id kind body viewer unit = .ok s') : s'.Sound := by
  simp only [ChatBooks.send, appointmentFor, bind_eq_ok, orRefuse_eq_ok, refuseIf_eq_ok,
    exists_punit, pure_eq_ok, Option.filter_eq_some_iff] at h
  obtain ⟨-, -, ⟨appt, kinds⟩, ⟨appt', ⟨hload, -⟩, -, hpair⟩, -, rfl⟩ := h
  obtain ⟨rfl, rfl⟩ := Prod.mk.inj hpair
  obtain ⟨hsound, t, ht, hid⟩ := hs.upsert hload kind viewer.side
  obtain ⟨-, hrow, -⟩ := loadAppointment_some hload
  exact hsound.insert_message ht (hid ▸ hrow) rfl

end ChatBooks

/-- An appointment in whose threads someone wrote stays with its client. -/
def ChatEvent.keepsParties (s : ChatBooks) : ChatEvent → Bool
  | updateAppointment _ id data _ =>
    !((s.appointments.get? id).any data.changesCustomer && s.hasMessages id)
  | _ => true

namespace ChatBooks

variable {mac : Mac} {s s' : ChatBooks} {e : ChatEvent}

theorem Sound.updateAppointment (hs : s.Sound) {ctx : Caller} {id : ℕ} {data : AppointmentChange}
    {ans : UpdateAnswers} {a a' : Appointment} (hget : s.appointments.get? id = some a)
    (hkeeps : (ChatEvent.updateAppointment ctx id data ans).keepsParties s = true)
    (h : Barbershop.updateAppointment ctx data (s.answers ctx data ans) a = .ok a') :
    ({ s with appointments := s.appointments.modify id fun _ => a' } : ChatBooks).Sound := by
  obtain ⟨hchecks, rfl⟩ := updateAppointment_ok h
  obtain ⟨hunit, hbarber⟩ := updateAppointmentChecks_ok hchecks
  refine hs.write_appointment hget (data.write_barbershopId a _) ?_ ?_
  · rw [data.write_barbershopId]
    cases hchanges : data.changesBarber a with
    | true =>
      have hof := hbarber hchanges
      simp only [answers, bind_eq_ok, refuseIf_eq_ok, not_not, exists_punit] at hof
      obtain ⟨id', hid, -⟩ := (Option.any_eq_true _ _).1 hchanges
      obtain ⟨b, hb, hin⟩ := (Option.any_eq_true _ _).1 (by simpa [hid] using hof.1)
      simp only [Bool.and_eq_true, beq_iff_eq] at hin
      refine ⟨b, ?_, by rw [hin.1, hunit]⟩
      rw [data.write_barberId, hid, Option.getD_some, hb]
    | false =>
      rw [data.write_barberId_of_same a _ hchanges]
      exact hs.barber hget
  · simp only [ChatEvent.keepsParties, hget, Option.any_some, Bool.not_eq_true', Bool.and_eq_false_iff]
      at hkeeps
    rcases hkeeps with hsame | hnone
    · exact .inl (by_contra fun hne => by simp [(data.changesCustomer_iff a _).2 hne] at hsame)
    · exact .inr hnone

/-- Every step under the condition keeps what the readers rely on. -/
theorem Sound.step (hs : s.Sound) (hkeeps : e.keepsParties s = true)
    (h : e.step mac s = some s') : s'.Sound := by
  cases e with
  | send now id kind body viewer unit => exact hs.send (toOption_eq_some.1 h)
  | threads now id viewer unit =>
    obtain ⟨⟨views, s₁⟩, hok, rfl⟩ := Option.map_eq_some_iff.1 h
    obtain ⟨appt, -, -, -, f, hf, rfl⟩ := threads_ok (toOption_eq_some.1 hok)
    refine hs.write_threads fun k t => ?_
    rcases hf k t with heq | heq
    · rw [heq]
      exact ⟨rfl, rfl, rfl, rfl⟩
    · rw [heq]
      exact SameThread.read now _ t
  | updateAppointment ctx id data ans =>
    simp only [ChatEvent.step, Option.bind_eq_bind, Option.bind_eq_some_iff] at h
    obtain ⟨a, hget, a', hok, hs'⟩ := h
    obtain rfl := Option.some.inj hs'
    exact hs.updateAppointment hget hkeeps (toOption_eq_some.1 hok)
  | updateBarber barberId data =>
    simp only [ChatEvent.step, Option.bind_eq_bind, Option.bind_eq_some_iff] at h
    obtain ⟨b, hb, shop, hshop, u, hguard, hs'⟩ := h
    obtain rfl := Option.some.inj hs'
    refine hs.write_staff (fun k b => ?_) fun k b' hb' hactive => ?_
    · split <;> rfl
    · split at hactive
      · next hk =>
        subst hk
        obtain rfl := Option.some.inj (hb.symm.trans hb')
        exact ⟨shop, hshop, by simpa using hguard⟩
      · exact hs.opened hb' hactive
  | deleteUser userId =>
    obtain rfl := Option.some.inj h
    refine hs.write_staff (fun k b => ?_) fun k b hb hactive => ?_
    · split <;> rfl
    · split at hactive <;> exact hs.opened hb hactive
  | deleteBarbershop now barbershopId =>
    obtain rfl := Option.some.inj h
    refine hs.write_staff (fun k b => ?_) fun k b hb hactive => ?_
    · split <;> rfl
    · split at hactive
      · cases hactive
      · next hne =>
        rw [Table.get?_modify_of_ne _ _ hne]
        exact hs.opened hb hactive
  | reportChatThread threadId | setHidden threadId closedAt | resolve threadId =>
    obtain rfl := Option.some.inj h
    exact hs.write_thread threadId fun t => ⟨rfl, rfl, rfl, rfl⟩

/-- No one has written yet; who works in a unit works in one that is open, and appointments are with
a professional of their unit. -/
structure Fresh (s : ChatBooks) : Prop where
  threads : s.chatThreads = .empty
  messages : s.chatMessages = .empty
  opened : ∀ id b, s.staff.get? id = some b → b.isActive = true →
    ∃ shop, s.shops.get? b.barbershopId = some shop ∧ shop.closedAt = none
  barber : ∀ id a, s.appointments.get? id = some a →
    ∃ b, s.staff.get? a.barberId = some b ∧ b.barbershopId = a.barbershopId

theorem Fresh.sound (h : s.Fresh) : s.Sound where
  opened := h.opened _ _
  barber := h.barber _ _
  thread ht := by simp [h.threads] at ht
  pinned ht := by simp [h.threads] at ht
  message hm := by simp [h.messages] at hm

/-- **The chat stays between its parties** in every run in which no appointment that someone wrote
about goes to another client: whoever reads, by whatever reader, is handed what was written while
the appointment was of the reader's record, and from the staff's side only from a thread that is the
reader's. -/
theorem chat_private {mac : Mac} {s₀ s : ChatBooks} {events : List ChatEvent} (hfresh : s₀.Fresh)
    (hkeeps : (chat mac).Meets (fun s e => e.keepsParties s = true) s₀ events)
    (hrun : (chat mac).run s₀ events = some s) : s.Private mac :=
  Sound.private <| (chat mac).run_inv_of_meets (I := Sound) Sound.step hfresh.sound hkeeps hrun

/-! ## A unit with a chat -/

/-- Two clients with accounts, and the appointment of the first. -/
def twoClients : ChatBooks where
  shops := Table.empty.insert {
    name := "Corner"
    ownerUserId := some 1
    networkOwnerUserId := some 1
    solo := false
    closedAt := none
    suspended := false }
  staff := Table.empty.insert {
    barbershopId := 1
    name := "Leo"
    userId := some 2
    staffType := some .barber
    isActive := true
    accessStartsAt := none
    accessEndsAt := none }
  customers := (Table.empty.insert ⟨"Ana", some 1, none⟩).insert ⟨"Bia", some 2, none⟩
  accounts := (Table.empty.insert ⟨none, none⟩).insert ⟨none, none⟩
  appointments := Table.empty.insert visit
  chatThreads := .empty
  chatMessages := .empty

theorem twoClients_fresh : twoClients.Fresh where
  threads := rfl
  messages := rfl
  opened id b h _ := by
    rcases Table.get?_insert_cases h with ⟨-, rfl⟩ | h
    · exact ⟨_, rfl, rfl⟩
    · simp at h
  barber id a h := by
    rcases Table.get?_insert_cases h with ⟨-, rfl⟩ | h
    · exact ⟨_, rfl, rfl⟩
    · simp at h

/-- The appointment goes to the second client before anyone writes. -/
theorem movedFirst_private : ∃ s, (chat sampleMac).run twoClients
    [.updateAppointment (owner 0) 1 (toCustomer 2) noObjection,
      .send 0 1 .unit "Oi".toList (.client (some 2) none) none, .setHidden 1 (some 5)] = some s ∧
    (s.clientRows 2).length = 1 ∧ s.Private sampleMac := by
  have hrun : ((chat sampleMac).run twoClients
      [.updateAppointment (owner 0) 1 (toCustomer 2) noObjection,
        .send 0 1 .unit "Oi".toList (.client (some 2) none) none, .setHidden 1 (some 5)]).any
      (fun s => (s.clientRows 2).length == 1) = true := by decide +kernel
  obtain ⟨s, hs, hrows⟩ := (Option.any_eq_true _ _).1 hrun
  exact ⟨s, hs, eq_of_beq hrows, chat_private twoClients_fresh (by decide +kernel) hs⟩

/-- The second client is shown what the first one wrote. -/
theorem movedLater_shown : ∃ s, (chat sampleMac).run twoClients
    [.send 0 1 .unit "Oi".toList (.client (some 1) none) none,
      .updateAppointment (owner 0) 1 (toCustomer 2) noObjection] = some s ∧
    ¬ s.Private sampleMac := by
  have hrun : ((chat sampleMac).run twoClients
      [.send 0 1 .unit "Oi".toList (.client (some 1) none) none,
        .updateAppointment (owner 0) 1 (toCustomer 2) noObjection]).any (fun s =>
      ((s.clientRows 2).any fun row => row.lastMessage.any fun m =>
        ((s.customers.get? m.2.exchangedWith).all fun c => c.clientAccountId != some 2))) = true := by
    decide +kernel
  obtain ⟨s, hs, hrows⟩ := (Option.any_eq_true _ _).1 hrun
  refine ⟨s, hs, fun hprivate => ?_⟩
  obtain ⟨row, hrow, hlast⟩ := List.any_eq_true.1 hrows
  obtain ⟨m, hm, hother⟩ := (Option.any_eq_true _ _).1 hlast
  obtain ⟨c, hc, haccount⟩ := hprivate.clientInbox 2 row hrow m hm
  rw [hc, Option.all_some, haccount] at hother
  cases hother

end ChatBooks

end Barbershop
