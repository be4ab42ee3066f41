import Barbershop.Agenda.Queue
import Barbershop.Lib.Mirror
import Barbershop.Payment.Refund

/-!
# The service history

`ServiceHistory` is kept by row triggers on the appointments, their lines, the walk-ins and their
lines: after each statement the rows of what it touched are synced (`HistoryBooks.sync`).
`updateWalkInStatus` also inserts rows of its own when it completes a walk-in, in the same
transaction and after the trigger.

`HistoryBooks.Mirrored` is what the rows are to be: one for each service of what was completed. A
completion through `updateWalkInStatus` leaves them doubled
(`HistoryEvent.writesTwice`); every other step keeps them.
-/

namespace Barbershop

open Lib

/-! ## Rows -/

/-- A line of an appointment. -/
structure AppointmentService where
  appointmentId : ℕ
  serviceId : ℕ
  quantity : ℤ
  unitPrice : ℚ

/-- What a row of the history refers to: no writer fills both `appointmentId` and `walkInId`. -/
inductive HistorySource where
  | appointment (id : ℕ)
  | walkIn (id : ℕ)
  deriving DecidableEq

structure ServiceHistory where
  barbershopId : ℕ
  customerId : ℕ
  barberId : ℕ
  source : Option HistorySource
  serviceId : ℕ
  performedAt : ℤ
  priceCharged : ℚ
  durationMinutes : Option ℕ

/-- The walk-ins are those of the unit `barbershopId`. -/
structure HistoryBooks where
  now : ℤ
  barbershopId : ℕ
  appointments : Table Appointment
  lines : Table AppointmentService
  walkIns : Table WalkIn
  walkInServices : Table WalkInService
  history : Table ServiceHistory

/-! ## Work that was done -/

/-- What the history is to say of a source: a row for each of `services`. -/
structure Work where
  barbershopId : ℕ
  customerId : ℕ
  barberId : ℕ
  performedAt : ℤ
  /-- With repetitions. -/
  services : List ℕ
  charged : ℕ → ℚ
  durationMinutes : ℕ → Option ℕ

namespace HistoryBooks

variable (site : QueueSite) (s : HistoryBooks)

def linesOf (id : ℕ) : List AppointmentService :=
  (s.lines.filter fun _ line => line.appointmentId == id).map Prod.snd

def walkInLinesOf (id : ℕ) : List WalkInService :=
  (s.walkInServices.filter fun _ line => line.walkInId == id).map Prod.snd

/-- The appointment, if it is completed. -/
def appointmentWork (id : ℕ) : Option Work :=
  ((s.appointments.get? id).filter (·.status = .completed)).map fun a => {
    barbershopId := a.barbershopId
    customerId := a.customerId
    barberId := a.barberId
    performedAt := a.startAt
    services := (s.linesOf id).map (·.serviceId)
    charged := fun serviceId =>
      (((s.linesOf id).filter (·.serviceId = serviceId)).map fun l =>
        l.unitPrice * (l.quantity : ℚ)).sum
    durationMinutes := site.durationMinutes }

/-- The walk-in, if it is completed and has a customer and a professional. -/
def walkInWork (id : ℕ) : Option Work := do
  let w ← (s.walkIns.get? id).filter (·.status = .completed)
  let customerId ← w.customerId
  let barberId ← w.barberId
  return {
    barbershopId := s.barbershopId
    customerId := customerId
    barberId := barberId
    performedAt := w.servedAt.getD w.createdAt
    services := (s.walkInLinesOf id).map (·.serviceId)
    charged := fun serviceId => (((s.walkInLinesOf id).filter (·.serviceId = serviceId)).map fun l =>
      site.price l.serviceId * (l.quantity : ℚ)).sum
    durationMinutes := site.durationMinutes }

def workOf : HistorySource → Option Work
  | .appointment id => s.appointmentWork site id
  | .walkIn id => s.walkInWork site id

end HistoryBooks

/-! ## The triggers -/

namespace Work

variable (w : Work) (src : HistorySource)

def fresh (serviceId : ℕ) : ServiceHistory where
  barbershopId := w.barbershopId
  customerId := w.customerId
  barberId := w.barberId
  source := some src
  serviceId := serviceId
  performedAt := w.performedAt
  priceCharged := w.charged serviceId
  durationMinutes := w.durationMinutes serviceId

/-- The update of a row that stays; that of a walk-in keeps its price. -/
def refresh (h : ServiceHistory) : ServiceHistory where
  barbershopId := w.barbershopId
  customerId := w.customerId
  barberId := w.barberId
  source := h.source
  serviceId := h.serviceId
  performedAt := w.performedAt
  priceCharged := match src with
    | .appointment _ => w.charged h.serviceId
    | .walkIn _ => h.priceCharged
  durationMinutes := h.durationMinutes

def derivation : Derivation ServiceHistory ℕ where
  mine h := h.source == some src
  item h := h.serviceId
  wanted := w.services
  refresh := w.refresh src
  fresh := w.fresh src

end Work

namespace HistoryBooks

variable (site : QueueSite) (s : HistoryBooks)

def eraseHistory (src : HistorySource) : HistoryBooks :=
  { s with history := s.history.eraseAll fun _ h => h.source == some src }

/-- `service_history_sync_appointment` and `service_history_sync_walk_in` -/
def sync (src : HistorySource) : HistoryBooks :=
  match s.workOf site src with
  | none => s.eraseHistory src
  | some w => { s with history := (w.derivation src).sync s.history }

/-- The trigger, for each row that a statement touched. -/
def syncAll (srcs : List HistorySource) : HistoryBooks := srcs.foldl (sync site) s

/-- The unit's queue, for the requests on it. -/
def queue : WalkInQueue where
  now := s.now
  walkIns := s.walkIns
  services := s.walkInServices
  history := .empty
  locked := false

end HistoryBooks

/-- A row that `updateWalkInStatus` inserts itself. -/
def WalkInHistory.row (barbershopId : ℕ) (h : WalkInHistory) : ServiceHistory where
  barbershopId := barbershopId
  customerId := h.customerId
  barberId := h.barberId
  source := some (.walkIn h.walkInId)
  serviceId := h.serviceId
  performedAt := h.performedAt
  priceCharged := h.priceCharged
  durationMinutes := h.durationMinutes

/-! ## Steps -/

/-- The columns of an appointment that the trigger watches. -/
structure AppointmentEdit where
  status : Option AppointmentStatus
  customerId : Option ℕ
  barberId : Option ℕ
  startAt : Option ℤ

def AppointmentEdit.apply (e : AppointmentEdit) (a : Appointment) : Appointment :=
  { a with
    status := e.status.getD a.status
    customerId := e.customerId.getD a.customerId
    barberId := e.barberId.getD a.barberId
    startAt := e.startAt.getD a.startAt }

inductive HistoryEvent where
  | insertAppointment (a : Appointment)
  | updateAppointment (id : ℕ) (e : AppointmentEdit)
  | deleteAppointment (id : ℕ)
  | insertLines (rows : List AppointmentService)
  | updateLine (id : ℕ) (row : AppointmentService)
  | deleteLines (ids : List ℕ)
  | createWalkIn (ctx : Caller) (data : NewWalkIn)
  | updateWalkInStatus (ctx : Caller) (walkInId : ℕ) (status : Option WalkInStatus)
    (barberId : Option ℕ)
  | pass (time : ℕ)

namespace HistoryEvent

/-- `none`: a foreign key, or a check of the request, refuses. -/
def step (site : QueueSite) (s : HistoryBooks) (e : HistoryEvent) : Option HistoryBooks :=
  match e with
  | insertAppointment a =>
    some (({ s with appointments := s.appointments.insert a } : HistoryBooks).sync site
      (.appointment s.appointments.next))
  | updateAppointment id e =>
    if (s.appointments.get? id).isSome then
      some (({ s with appointments := s.appointments.modify id e.apply } : HistoryBooks).sync site
        (.appointment id))
    else some s
  | deleteAppointment id =>
    if (s.appointments.get? id).isSome then
      -- the rows go before the key turns null; then the lines, in cascade
      let s₁ := s.eraseHistory (.appointment id)
      let s₂ : HistoryBooks := { s₁ with
        appointments := s₁.appointments.erase id
        lines := s₁.lines.eraseAll fun _ line => line.appointmentId == id }
      some (s₂.syncAll site ((s.linesOf id).map fun _ => .appointment id))
    else some s
  | insertLines rows =>
    if ∀ row ∈ rows, (s.appointments.get? row.appointmentId).isSome then
      let s₁ : HistoryBooks := { s with lines := rows.foldl Table.insert s.lines }
      some (s₁.syncAll site (rows.map fun row => .appointment row.appointmentId))
    else none
  | updateLine id row =>
    if (s.appointments.get? row.appointmentId).isSome then
      match s.lines.get? id with
      | none => some s
      | some old =>
        let s₁ : HistoryBooks := { s with lines := s.lines.modify id fun _ => row }
        some (s₁.syncAll site (.appointment row.appointmentId ::
          if row.appointmentId ≠ old.appointmentId then [.appointment old.appointmentId] else []))
    else none
  | deleteLines ids =>
    let gone := s.lines.filter fun k _ => ids.contains k
    let s₁ : HistoryBooks := { s with lines := s.lines.eraseAll fun k _ => ids.contains k }
    some (s₁.syncAll site (gone.map fun row => .appointment row.2.appointmentId))
  | createWalkIn ctx data =>
    (createWalkInChecks site ctx data s.queue).toOption.map fun _ =>
      let position := s.queue.nextQueuePosition (site.queueDayStart s.now)
      let q := QueueRequest.write site position s.queue (.create data)
      let id := s.walkIns.next
      let s₁ := ({ s with walkIns := q.walkIns } : HistoryBooks).sync site (.walkIn id)
      let s₂ : HistoryBooks := { s₁ with walkInServices := q.services }
      s₂.syncAll site (data.services.map fun _ => .walkIn id)
  | updateWalkInStatus ctx walkInId status barberId =>
    (updateWalkInChecks site ctx walkInId status barberId s.queue).toOption.map fun u =>
      let position := if u.returns then
          some (s.queue.nextQueuePosition (site.queueDayStart s.now))
        else none
      let q := u.write site position s.queue
      let s₁ := ({ s with walkIns := q.walkIns } : HistoryBooks).sync site (.walkIn walkInId)
      let own := (u.lines site s.queue).map (·.row s.barbershopId)
      { s₁ with history := own.foldl Table.insert s₁.history }
  | pass time => some { s with now := s.now + time }

/-- The trigger and the request itself both write the rows of the walk-in that is completed. -/
def writesTwice (s : HistoryBooks) (e : HistoryEvent) : Bool :=
  match e with
  | updateWalkInStatus _ walkInId (some .completed) _ =>
    (s.walkIns.get? walkInId).any (fun w =>
      w.status == .inProgress && w.customerId.isSome && w.barberId.isSome) &&
      s.walkInServices.any fun _ line => line.walkInId == walkInId
  | _ => false

end HistoryEvent

def serviceHistory (site : QueueSite) : Machine HistoryBooks HistoryEvent :=
  ⟨HistoryEvent.step site⟩

/-! ## The law -/

/-- A row says what was done; of a walk-in it need not say the price. -/
structure Work.Shows (w : Work) (src : HistorySource) (h : ServiceHistory) : Prop where
  customer : h.customerId = w.customerId
  barber : h.barberId = w.barberId
  performed : h.performedAt = w.performedAt
  price : ∀ id, src = .appointment id → h.priceCharged = w.charged h.serviceId

/-- The rows of a source are one for each service of its work, and none if there is no work. -/
structure MirrorOf (src : HistorySource) (work : Option Work) (t : Table ServiceHistory) :
    Prop where
  sound : ∀ ⦃k h⦄, t.get? k = some h → h.source = some src →
    ∃ w, work = some w ∧ h.serviceId ∈ w.services ∧ w.Shows src h
  complete : ∀ w, work = some w → ∀ serviceId ∈ w.services,
    ∃ k h, t.get? k = some h ∧ h.source = some src ∧ h.serviceId = serviceId
  distinct : ∀ ⦃j k h h'⦄, t.get? j = some h → t.get? k = some h' → h.source = some src →
    h'.source = some src → h.serviceId = h'.serviceId → j = k

def HistoryBooks.Mirrored (site : QueueSite) (s : HistoryBooks) : Prop :=
  ∀ src, MirrorOf src (s.workOf site src) s.history

/-! ## One sync -/

theorem Work.derivation_lawful (w : Work) (src : HistorySource) : (w.derivation src).Lawful where
  mine_refresh _ h := h
  item_refresh _ := rfl
  mine_fresh _ := by simp [derivation, fresh]
  item_fresh _ := rfl

theorem Work.shows_refresh (w : Work) (src : HistorySource) (h : ServiceHistory) :
    w.Shows src (w.refresh src h) :=
  ⟨rfl, rfl, rfl, fun id hid => by subst hid; rfl⟩

theorem Work.shows_fresh (w : Work) (src : HistorySource) (serviceId : ℕ) :
    w.Shows src (w.fresh src serviceId) := ⟨rfl, rfl, rfl, fun _ _ => rfl⟩

/-- The rows of a source in two tables are the same. -/
def SameHistory (src : HistorySource) (t t' : Table ServiceHistory) : Prop :=
  ∀ ⦃k h⦄, h.source = some src → (t'.get? k = some h ↔ t.get? k = some h)

theorem MirrorOf.same {src : HistorySource} {work : Option Work} {t t' : Table ServiceHistory}
    (h : MirrorOf src work t) (hsame : SameHistory src t t') : MirrorOf src work t' where
  sound _ _ hk hsrc := h.sound ((hsame hsrc).1 hk) hsrc
  complete w hw serviceId hs := by
    obtain ⟨k, r, hk, hsrc, hitem⟩ := h.complete w hw serviceId hs
    exact ⟨k, r, (hsame hsrc).2 hk, hsrc, hitem⟩
  distinct _ _ _ _ hj hk ha hb hab := h.distinct ((hsame ha).1 hj) ((hsame hb).1 hk) ha hb hab

namespace HistoryBooks

variable {site : QueueSite} {s s' : HistoryBooks} {src src' : HistorySource}

/-- No two rows of a source are about one service. -/
def Distinct (s : HistoryBooks) : Prop :=
  ∀ src ⦃j k h h'⦄, s.history.get? j = some h → s.history.get? k = some h' →
    h.source = some src → h'.source = some src → h.serviceId = h'.serviceId → j = k

theorem Mirrored.distinct (h : s.Mirrored site) : s.Distinct := fun src => (h src).distinct

theorem erase_mirror (src : HistorySource) : MirrorOf src none (s.eraseHistory src).history := by
  have hnone : ∀ {k h}, (s.eraseHistory src).history.get? k = some h → h.source ≠ some src := by
    intro k h hk
    unfold eraseHistory at hk
    rw [Table.get?_eraseAll] at hk
    simpa using hk.2
  exact ⟨fun _ _ hk hsrc => absurd hsrc (hnone hk), fun _ hw => (by cases hw),
    fun _ _ _ _ hj _ ha _ _ => absurd ha (hnone hj)⟩

theorem erase_other (hne : src' ≠ src) : SameHistory src' s.history (s.eraseHistory src).history := by
  intro k h hsrc
  unfold eraseHistory
  rw [Table.get?_eraseAll]
  simp [hsrc, hne]

theorem sync_workOf (src : HistorySource) : (s.sync site src).workOf site = s.workOf site := by
  funext src'
  unfold sync
  cases s.workOf site src <;> cases src' <;> rfl

/-- A sync makes the rows of its source mirror the work. -/
theorem sync_mirror (site : QueueSite) (hs : s.Distinct) (src : HistorySource) :
    MirrorOf src (s.workOf site src) (s.sync site src).history := by
  unfold sync
  cases hw : s.workOf site src with
  | none => exact erase_mirror src
  | some w =>
    have hdistinct : (w.derivation src).Distinct s.history := fun j k h h' hj hk ha hb hab =>
      hs src hj hk (eq_of_beq ha) (eq_of_beq hb) hab
    have hmirror := Derivation.sync_mirrors (w.derivation_lawful src) (w.Shows src)
      (fun h _ => w.shows_refresh src h) (w.shows_fresh src) hdistinct
    constructor
    · intro k h hk hsrc
      obtain ⟨hwanted, hgood⟩ := hmirror.sound hk (by simp [Work.derivation, hsrc])
      exact ⟨w, rfl, hwanted, hgood⟩
    · rintro w' hw' serviceId hs'
      obtain rfl := Option.some.inj hw'
      obtain ⟨k, h, hk, hmine, hitem⟩ := hmirror.complete serviceId hs'
      exact ⟨k, h, hk, eq_of_beq hmine, hitem⟩
    · intro j k h h' hj hk ha hb hab
      exact hmirror.distinct hj hk (by simp [Work.derivation, ha]) (by simp [Work.derivation, hb])
        hab

theorem sync_other (hne : src' ≠ src) : SameHistory src' s.history (s.sync site src).history := by
  unfold sync
  cases s.workOf site src with
  | none => exact erase_other hne
  | some w =>
    intro k h hsrc
    exact Derivation.sync_other (w.derivation_lawful src) (by simp [Work.derivation, hsrc, hne])

theorem Distinct.of_mirror (hs : s.Distinct) {work : Option Work}
    (hmirror : MirrorOf src work s'.history)
    (hsame : ∀ src', src' ≠ src → SameHistory src' s.history s'.history) : s'.Distinct := by
  intro src' j k h h' hj hk ha hb hab
  by_cases hsrc : src' = src
  · subst hsrc
    exact hmirror.distinct hj hk ha hb hab
  · exact hs src' ((hsame src' hsrc ha).1 hj) ((hsame src' hsrc hb).1 hk) ha hb hab

/-- After the syncs of what a statement touched, all rows mirror the work: those of the sources that
were synced, and those whose work did not change. -/
theorem syncAll_mirrored (srcs : List HistorySource) (hs : s.Distinct)
    (hrest : ∀ src, src ∉ srcs → MirrorOf src (s.workOf site src) s.history) :
    (s.syncAll site srcs).Mirrored site := by
  induction srcs generalizing s with
  | nil => exact fun src => hrest src List.not_mem_nil
  | cons src srcs ih =>
    have hmirror := sync_mirror site hs src
    refine ih (hs.of_mirror hmirror fun _ hne => sync_other hne) fun src' hnot => ?_
    rw [sync_workOf]
    by_cases hsrc : src' = src
    · subst hsrc
      exact hmirror
    · apply (hrest src' _).same (sync_other hsrc)
      simp [hsrc, hnot]

theorem sync_mirrored (hs : s.Distinct)
    (hrest : ∀ src', src' ≠ src → MirrorOf src' (s.workOf site src') s.history) :
    (s.sync site src).Mirrored site :=
  syncAll_mirrored [src] hs fun src' hnot => hrest src' (by simpa using hnot)

/-! ## The work that a statement does not touch -/

theorem appointmentWork_congr {id : ℕ} (happt : s'.appointments.get? id = s.appointments.get? id)
    (hlines : s'.linesOf id = s.linesOf id) :
    s'.appointmentWork site id = s.appointmentWork site id := by
  simp only [appointmentWork, happt, hlines]

theorem walkInWork_congr {id : ℕ} (hunit : s'.barbershopId = s.barbershopId)
    (hwalk : s'.walkIns.get? id = s.walkIns.get? id)
    (hlines : s'.walkInLinesOf id = s.walkInLinesOf id) :
    s'.walkInWork site id = s.walkInWork site id := by
  simp only [walkInWork, hunit, hwalk, hlines]

/-- Lines of other appointments do not count. -/
theorem linesOf_insert_other {rows : List AppointmentService} {id : ℕ} (t : Table AppointmentService)
    (h : ∀ row ∈ rows, row.appointmentId ≠ id) :
    (rows.foldl Table.insert t).filter (fun _ line => line.appointmentId == id) =
      t.filter fun _ line => line.appointmentId == id := by
  induction rows generalizing t with
  | nil => rfl
  | cons row rows ih =>
    have hrow : (row.appointmentId == id) = false := by simpa using h row List.mem_cons_self
    rw [List.foldl_cons, ih _ fun r hr => h r (List.mem_cons_of_mem _ hr),
      Table.filter_insert_of_not hrow]

theorem walkInLinesOf_insert_other {rows : List WalkInService} {id : ℕ} (t : Table WalkInService)
    (h : ∀ row ∈ rows, row.walkInId ≠ id) :
    (rows.foldl Table.insert t).filter (fun _ line => line.walkInId == id) =
      t.filter fun _ line => line.walkInId == id := by
  induction rows generalizing t with
  | nil => rfl
  | cons row rows ih =>
    have hrow : (row.walkInId == id) = false := by simpa using h row List.mem_cons_self
    rw [List.foldl_cons, ih _ fun r hr => h r (List.mem_cons_of_mem _ hr),
      Table.filter_insert_of_not hrow]

/-! ## Each step -/

theorem Mirrored.insertAppointment (h : s.Mirrored site) (a : Appointment) :
    (({ s with appointments := s.appointments.insert a } : HistoryBooks).sync site
      (.appointment s.appointments.next)).Mirrored site := by
  refine sync_mirrored h.distinct fun src hne => ?_
  have hwork : ({ s with appointments := s.appointments.insert a } : HistoryBooks).workOf site src =
      s.workOf site src := by
    cases src with
    | appointment id =>
      refine appointmentWork_congr ?_ rfl
      have hid : id ≠ s.appointments.next := fun e => hne (e ▸ rfl)
      rw [Table.get?_insert, if_neg hid]
    | walkIn id => rfl
  rw [hwork]
  exact h src

theorem Mirrored.updateAppointment (h : s.Mirrored site) (id : ℕ)
    (f : Appointment → Appointment) :
    (({ s with appointments := s.appointments.modify id f } : HistoryBooks).sync site
      (.appointment id)).Mirrored site := by
  refine sync_mirrored h.distinct fun src hne => ?_
  have hwork : ({ s with appointments := s.appointments.modify id f } : HistoryBooks).workOf site
      src = s.workOf site src := by
    cases src with
    | appointment id' =>
      refine appointmentWork_congr ?_ rfl
      exact Table.get?_modify_of_ne _ _ fun e => hne (e ▸ rfl)
    | walkIn id' => rfl
  rw [hwork]
  exact h src

theorem Mirrored.deleteAppointment (h : s.Mirrored site) (id : ℕ) (srcs : List HistorySource) :
    (({ s.eraseHistory (.appointment id) with
      appointments := s.appointments.erase id
      lines := s.lines.eraseAll fun _ line => line.appointmentId == id } : HistoryBooks).syncAll
        site srcs).Mirrored site := by
  have hgone : MirrorOf (.appointment id) none (s.eraseHistory (.appointment id)).history :=
    erase_mirror _
  refine syncAll_mirrored _ (h.distinct.of_mirror hgone fun _ hne => erase_other hne) fun src _ => ?_
  by_cases hsrc : src = .appointment id
  · subst hsrc
    have hnone : (s.appointments.erase id).get? id = none := by simp [Table.get?_erase]
    simpa [workOf, appointmentWork, hnone] using hgone
  · have hwork : ({ s.eraseHistory (.appointment id) with
        appointments := s.appointments.erase id
        lines := s.lines.eraseAll fun _ line => line.appointmentId == id } :
          HistoryBooks).workOf site src = s.workOf site src := by
      cases src with
      | appointment id' =>
        have hid : id' ≠ id := fun e => hsrc (e ▸ rfl)
        refine appointmentWork_congr (by simp [Table.get?_erase, hid]) ?_
        unfold linesOf
        rw [Table.filter_eraseAll_of_not]
        intro k line _ hline
        have hline := eq_of_beq hline
        simp [hline, hid]
      | walkIn id' => rfl
    rw [hwork]
    exact (h src).same (erase_other hsrc)

theorem Mirrored.insertLines (h : s.Mirrored site) (rows : List AppointmentService) :
    (({ s with lines := rows.foldl Table.insert s.lines } : HistoryBooks).syncAll site
      (rows.map fun row => .appointment row.appointmentId)).Mirrored site := by
  refine syncAll_mirrored _ h.distinct fun src hnot => ?_
  have hwork : ({ s with lines := rows.foldl Table.insert s.lines } : HistoryBooks).workOf site
      src = s.workOf site src := by
    cases src with
    | appointment id =>
      refine appointmentWork_congr rfl ?_
      unfold linesOf
      rw [linesOf_insert_other]
      intro row hrow hid
      exact hnot (List.mem_map.2 ⟨row, hrow, by rw [hid]⟩)
    | walkIn id => rfl
  rw [hwork]
  exact h src

theorem Mirrored.updateLine (h : s.Mirrored site) {id : ℕ} {old : AppointmentService}
    (hold : s.lines.get? id = some old) (row : AppointmentService) {srcs : List HistorySource}
    (hnew : .appointment row.appointmentId ∈ srcs)
    (hsrcs : .appointment old.appointmentId ∈ srcs) :
    (({ s with lines := s.lines.modify id fun _ => row } : HistoryBooks).syncAll site
      srcs).Mirrored site := by
  refine syncAll_mirrored _ h.distinct fun src hnot => ?_
  have hwork : ({ s with lines := s.lines.modify id fun _ => row } : HistoryBooks).workOf site
      src = s.workOf site src := by
    cases src with
    | appointment id' =>
      refine appointmentWork_congr rfl ?_
      unfold linesOf
      rw [Table.filter_modify_of_not]
      intro a ha
      obtain rfl := Option.some.inj (ha.symm.trans hold)
      have hne : a.appointmentId ≠ id' := fun e => hnot (e ▸ hsrcs)
      have hne' : row.appointmentId ≠ id' := fun e => hnot (e ▸ hnew)
      exact ⟨by simp [hne], by simp [hne']⟩
    | walkIn id' => rfl
  rw [hwork]
  exact h src

theorem Mirrored.deleteLines (h : s.Mirrored site) (p : ℕ → AppointmentService → Bool) :
    (({ s with lines := s.lines.eraseAll p } : HistoryBooks).syncAll site
      ((s.lines.filter p).map fun row => .appointment row.2.appointmentId)).Mirrored site := by
  refine syncAll_mirrored _ h.distinct fun src hnot => ?_
  have hwork : ({ s with lines := s.lines.eraseAll p } : HistoryBooks).workOf site src =
      s.workOf site src := by
    cases src with
    | appointment id =>
      refine appointmentWork_congr rfl ?_
      unfold linesOf
      rw [Table.filter_eraseAll_of_not]
      intro k line hk hline
      by_contra hp
      rw [Bool.not_eq_false] at hp
      apply hnot
      exact List.mem_map.2 ⟨(k, line), Table.mem_filter.2 ⟨hk, hp⟩, by rw [eq_of_beq hline]⟩
    | walkIn id => rfl
  rw [hwork]
  exact h src

theorem Mirrored.insertWalkIn (h : s.Mirrored site) (w : WalkIn) :
    (({ s with walkIns := s.walkIns.insert w } : HistoryBooks).sync site
      (.walkIn s.walkIns.next)).Mirrored site := by
  refine sync_mirrored h.distinct fun src hne => ?_
  have hwork : ({ s with walkIns := s.walkIns.insert w } : HistoryBooks).workOf site src =
      s.workOf site src := by
    cases src with
    | appointment id => rfl
    | walkIn id =>
      refine walkInWork_congr rfl ?_ rfl
      have hid : id ≠ s.walkIns.next := fun e => hne (e ▸ rfl)
      rw [Table.get?_insert, if_neg hid]
  rw [hwork]
  exact h src

theorem Mirrored.insertWalkInLines (h : s.Mirrored site) (id : ℕ) (rows : List WalkInService)
    (srcs : List HistorySource) (hrows : ∀ row ∈ rows, row.walkInId = id)
    (hsrcs : rows ≠ [] → .walkIn id ∈ srcs) :
    (({ s with walkInServices := rows.foldl Table.insert s.walkInServices } :
      HistoryBooks).syncAll site srcs).Mirrored site := by
  refine syncAll_mirrored _ h.distinct fun src hnot => ?_
  have hwork : ({ s with walkInServices := rows.foldl Table.insert s.walkInServices } :
      HistoryBooks).workOf site src = s.workOf site src := by
    cases src with
    | appointment id' => rfl
    | walkIn id' =>
      refine walkInWork_congr rfl rfl ?_
      unfold walkInLinesOf
      rw [walkInLinesOf_insert_other]
      rintro row hrow rfl
      rw [hrows row hrow] at hnot
      exact hnot (hsrcs (List.ne_nil_of_mem hrow))
  rw [hwork]
  exact h src

theorem sync_walkInServices (src : HistorySource) :
    (s.sync site src).walkInServices = s.walkInServices := by
  unfold sync
  cases s.workOf site src <;> rfl

theorem Mirrored.updateWalkIn (h : s.Mirrored site) (id : ℕ) (f : WalkIn → WalkIn) :
    (({ s with walkIns := s.walkIns.modify id f } : HistoryBooks).sync site
      (.walkIn id)).Mirrored site := by
  refine sync_mirrored h.distinct fun src hne => ?_
  have hwork : ({ s with walkIns := s.walkIns.modify id f } : HistoryBooks).workOf site src =
      s.workOf site src := by
    cases src with
    | appointment id' => rfl
    | walkIn id' =>
      refine walkInWork_congr rfl ?_ rfl
      exact Table.get?_modify_of_ne _ _ fun e => hne (e ▸ rfl)
  rw [hwork]
  exact h src

end HistoryBooks

theorem WalkInUpdate.lines_eq_nil {site : QueueSite} {u : WalkInUpdate} {q : WalkInQueue}
    (h : (u.status = .completed ∧ u.seen.status ≠ .completed) → u.seen.customerId = none ∨
      u.servedBy = none ∨ (q.services.any fun _ line => line.walkInId == u.walkInId) = false) :
    u.lines site q = [] := by
  unfold lines
  split
  · next hdone =>
    rcases h hdone with hnone | hnone | hnone
    · simp [hnone]
    · simp [hnone]
    · have hempty : (q.services.filter fun _ line => line.walkInId == u.walkInId) = [] := by
        rw [List.eq_nil_iff_forall_not_mem]
        rintro ⟨k, line⟩ hmem
        obtain ⟨hk, hline⟩ := Table.mem_filter.1 hmem
        rw [Table.any_eq_false.1 hnone k line hk] at hline
        cases hline
      cases u.seen.customerId <;> cases u.servedBy <;> simp [hempty]
  · rfl

/-- What the checks of `updateWalkInStatus` read and allowed. -/
theorem updateWalkInChecks_ok {site : QueueSite} {ctx : Caller} {walkInId : ℕ}
    {status : Option WalkInStatus} {barberId : Option ℕ} {q : WalkInQueue} {u : WalkInUpdate}
    (h : updateWalkInChecks site ctx walkInId status barberId q = .ok u) :
    status = some u.status ∧ u.walkInId = walkInId ∧ q.walkIns.get? walkInId = some u.seen ∧
      (u.status ≠ u.seen.status → u.status ∈ WALK_IN_NEXT u.seen.status) ∧
      (u.status = .completed → u.serving = none) := by
  simp only [updateWalkInChecks, bind_eq_ok, orRefuse_eq_ok, refuseIf_eq_ok] at h
  obtain ⟨st, hst, w, hw, -, -, -, -, -, hnext, h⟩ := h
  have hallowed : st ≠ w.status → st ∈ WALK_IN_NEXT w.status := by
    intro hne
    by_contra hnot
    exact hnext ⟨hne, hnot⟩
  split at h
  · next hserving =>
    simp only [bind_eq_ok] at h
    obtain ⟨-, -, h⟩ := h
    obtain rfl := Except.ok.inj h
    refine ⟨hst, rfl, hw, hallowed, fun hdone => ?_⟩
    rw [hserving.1] at hdone
    cases hdone
  · obtain rfl := Except.ok.inj h
    exact ⟨hst, rfl, hw, hallowed, fun _ => rfl⟩

namespace HistoryEvent

variable {site : QueueSite} {s s' : HistoryBooks}

/-- Where the trigger alone writes the rows of the walk-in, the request inserts none. -/
theorem lines_of_writesOnce {ctx : Caller} {walkInId : ℕ} {status : Option WalkInStatus}
    {barberId : Option ℕ} {u : WalkInUpdate}
    (hu : updateWalkInChecks site ctx walkInId status barberId s.queue = .ok u)
    (honce : (updateWalkInStatus ctx walkInId status barberId).writesTwice s = false) :
    u.lines site s.queue = [] := by
  obtain ⟨hstatus, hid, hseen, hnext, hserving⟩ := updateWalkInChecks_ok hu
  refine WalkInUpdate.lines_eq_nil fun hdone => ?_
  have hprogress : u.seen.status = .inProgress := by
    have hmem := hnext (by rw [hdone.1]; exact hdone.2.symm)
    rw [hdone.1] at hmem
    cases hs : u.seen.status <;> rw [hs] at hmem <;> simp [WALK_IN_NEXT] at hmem ⊢
  have hserved : u.servedBy = u.seen.barberId := by
    simp [WalkInUpdate.servedBy, hserving hdone.1]
  have hwalk : s.walkIns.get? walkInId = some u.seen := hseen
  rw [hserved, hid]
  simp only [writesTwice, hstatus, hdone.1, hwalk, Option.any_some, hprogress] at honce
  cases hc : u.seen.customerId with
  | none => exact .inl rfl
  | some c =>
    cases hb : u.seen.barberId with
    | none => exact .inr (.inl rfl)
    | some b =>
      simp only [hc, hb] at honce
      have hnone : (s.walkInServices.any fun _ line => line.walkInId == walkInId) = false := by
        simpa using honce
      exact .inr (.inr hnone)

/-- Every step but the doubled one keeps the history. -/
theorem step_mirrored {e : HistoryEvent} (h : s.Mirrored site) (honce : e.writesTwice s = false)
    (hstep : e.step site s = some s') : s'.Mirrored site := by
  cases e with
  | insertAppointment a =>
    obtain rfl := Option.some.inj hstep
    exact h.insertAppointment a
  | updateAppointment id e =>
    simp only [step] at hstep
    split at hstep
    · obtain rfl := Option.some.inj hstep
      exact h.updateAppointment id e.apply
    · exact Option.some.inj hstep ▸ h
  | deleteAppointment id =>
    simp only [step] at hstep
    split at hstep
    · obtain rfl := Option.some.inj hstep
      exact h.deleteAppointment id _
    · exact Option.some.inj hstep ▸ h
  | insertLines rows =>
    simp only [step] at hstep
    split at hstep
    · obtain rfl := Option.some.inj hstep
      exact h.insertLines rows
    · cases hstep
  | updateLine id row =>
    simp only [step] at hstep
    split at hstep
    · split at hstep
      · exact Option.some.inj hstep ▸ h
      · next old hold =>
        obtain rfl := Option.some.inj hstep
        refine h.updateLine hold row List.mem_cons_self ?_
        by_cases hsame : row.appointmentId = old.appointmentId
        · rw [hsame]
          exact List.mem_cons_self
        · rw [if_pos hsame]
          exact List.mem_cons_of_mem _ List.mem_cons_self
    · cases hstep
  | deleteLines ids =>
    obtain rfl := Option.some.inj hstep
    exact h.deleteLines _
  | createWalkIn ctx data =>
    obtain ⟨-, -, rfl⟩ := Option.map_eq_some_iff.1 hstep
    have hfirst := h.insertWalkIn {
      createdAt := s.now
      customerId := data.customerId
      barberId := data.barberId
      status := .waiting
      queuePosition := s.queue.nextQueuePosition (site.queueDayStart s.now)
      servedAt := none }
    have hlines := hfirst.insertWalkInLines s.walkIns.next
      (data.services.map fun row => WalkInService.mk s.walkIns.next row.1 (row.2.getD 1))
      (data.services.map fun _ => .walkIn s.walkIns.next) ?_ ?_
    · rw [HistoryBooks.sync_walkInServices] at hlines
      exact hlines
    · intro row hrow
      obtain ⟨r, -, rfl⟩ := List.mem_map.1 hrow
      rfl
    · intro hne
      have hdata : data.services ≠ [] := fun hnil => hne (by rw [hnil]; rfl)
      obtain ⟨r, hr⟩ := List.exists_mem_of_ne_nil _ hdata
      exact List.mem_map.2 ⟨r, hr, rfl⟩
  | updateWalkInStatus ctx walkInId status barberId =>
    obtain ⟨u, hu, rfl⟩ := Option.map_eq_some_iff.1 hstep
    have hok : updateWalkInChecks site ctx walkInId status barberId s.queue = .ok u :=
      toOption_eq_some.1 hu
    obtain ⟨-, hid, -⟩ := updateWalkInChecks_ok hok
    rw [lines_of_writesOnce hok honce]
    have hsync := h.updateWalkIn u.walkInId (u.data (if u.returns then
      some (s.queue.nextQueuePosition (site.queueDayStart s.now)) else none))
    rw [hid] at hsync
    subst hid
    exact hsync
  | pass time =>
    obtain rfl := Option.some.inj hstep
    exact h

end HistoryEvent

/-- The history mirrors the work done in every state of a run in which no walk-in with a customer, a
professional and a service is completed through `updateWalkInStatus`. -/
theorem service_history_mirrored {site : QueueSite} {s s' : HistoryBooks} {es : List HistoryEvent}
    (hs : s.Mirrored site)
    (hC : (serviceHistory site).Meets (fun s e => e.writesTwice s = false) s es)
    (hrun : (serviceHistory site).run s es = some s') : s'.Mirrored site :=
  Machine.run_inv_of_meets _ (I := HistoryBooks.Mirrored site)
    (fun h hc hstep => HistoryEvent.step_mirrored h hc hstep) hs hC hrun

/-! ## Runs -/

/-- A unit with one service and one professional. -/
def oneChair : QueueSite where
  cat := {
    services := fun k =>
      if k = 1 then some { barbershopId := 1, isActive := true, unit := "UNIT" } else none
    products := fun _ => none
    serviceHistories := fun _ => none
    barbers := Table.empty.insert {
      barbershopId := 1
      userId := none
      professionalId := none
      bookable := true
      isActive := true
      accessStartsAt := none
      accessEndsAt := none } }
  customerOfNetwork _ := true
  soloBookingAllowed _ := true
  price _ := 50
  durationMinutes _ := some 30
  queueDayStart now := now / 1000 * 1000
  mono := openDoor.mono
  date now := now / 1000

def noHistory : HistoryBooks where
  now := 0
  barbershopId := 1
  appointments := .empty
  lines := .empty
  walkIns := .empty
  walkInServices := .empty
  history := .empty

theorem noHistory_mirrored : noHistory.Mirrored oneChair := by
  intro src
  refine ⟨fun _ _ hk => (by cases hk), fun w hw => ?_, fun _ _ _ _ hj => (by cases hj)⟩
  cases src <;> cases hw

def lineOf (quantity : ℤ) : AppointmentService where
  appointmentId := 1
  serviceId := 1
  quantity := quantity
  unitPrice := 50

def toStatus (status : AppointmentStatus) : HistoryEvent :=
  .updateAppointment 1 ⟨some status, none, none, none⟩

/-- Two lines of one service; completed, taken back and completed again with one line fewer. -/
def completedTwice : List HistoryEvent :=
  [.insertAppointment visit, .insertLines [lineOf 1, lineOf 2], toStatus .completed,
    toStatus .confirmed, .deleteLines [1], toStatus .completed]

theorem completedTwice_mirrored : ∃ s',
    (serviceHistory oneChair).run noHistory completedTwice = some s' ∧
      (s'.history.rows.map fun r => r.2.priceCharged) = [100] ∧ s'.Mirrored oneChair := by
  have hsome : ((serviceHistory oneChair).run noHistory completedTwice).any (fun s' =>
      (s'.history.rows.map fun r => r.2.priceCharged) == [100]) = true := by
    decide +kernel
  obtain ⟨s', hs', hprice⟩ := (Option.any_eq_true _ _).1 hsome
  exact ⟨s', hs', beq_iff_eq.1 hprice,
    service_history_mirrored noHistory_mirrored (by decide +kernel) hs'⟩

def serve (status : WalkInStatus) : HistoryEvent :=
  .updateWalkInStatus (owner 0) 1 (some status) none

/-- A customer of the queue is called and served. -/
def walkInServed : List HistoryEvent :=
  [.createWalkIn (owner 0) { customerId := some 1, barberId := some 1, services := [(1, none)] },
    serve .inProgress, serve .completed]

theorem walkInServed_twice : noHistory.Mirrored oneChair ∧ ∃ s',
    (serviceHistory oneChair).run noHistory walkInServed = some s' ∧ ¬s'.Mirrored oneChair := by
  have hsome : ((serviceHistory oneChair).run noHistory walkInServed).any (fun s' =>
      (s'.history.get? 1).any (fun h => h.source == some (.walkIn 1) && h.serviceId == 1) &&
        (s'.history.get? 2).any fun h => h.source == some (.walkIn 1) && h.serviceId == 1) =
          true := by
    decide +kernel
  obtain ⟨s', hs', hrows⟩ := (Option.any_eq_true _ _).1 hsome
  simp only [Bool.and_eq_true, Option.any_eq_true, beq_iff_eq] at hrows
  obtain ⟨⟨h, hh, hsrc, hitem⟩, h', hh', hsrc', hitem'⟩ := hrows
  refine ⟨noHistory_mirrored, s', hs', fun hmirrored => ?_⟩
  have heq := hmirrored.distinct (.walkIn 1) hh hh' hsrc hsrc' (by rw [hitem, hitem'])
  cases heq

end Barbershop
