import Barbershop.Agenda.Schedule
import Barbershop.Agenda.Shifts

/-!
# No double booking

In every run of the agenda's requests, in any order of their steps, no two appointments that take their
slot have one person, or one resource, at one time (`no_double_booking`), if each edit and each move
writes to a row that is as it saw it in the fields it does not write (`BookingRequest.SeesRow`). Bookings
that create a row have nothing to meet. Without the condition it fails (`movedWhileRestored_double`): the
row of an edit is read before the transaction, and not again under the lock.

The proof is that of `Lib.Reservation`, twice: two slots that clash on a person share the lock of its
account, because the records of one person have one account (`Rota.People`), and two that clash on a
resource share that of the resource.
-/

namespace Barbershop

open Lib

/-! ## Clashes -/

def Slot.Meets (s t : Slot) : Prop := s.startAt < t.endAt ∧ t.startAt < s.endAt

/-- One record, or two of one person. -/
def Catalog.OnePerson (cat : Catalog) (i j : ℕ) : Prop :=
  i = j ∨ ∃ b c, cat.barbers.get? i = some b ∧ cat.barbers.get? j = some c ∧ b.SamePerson c

def PersonClash (cat : Catalog) (s t : Slot) : Prop :=
  cat.OnePerson s.barberId t.barberId ∧ s.Meets t

def ResourceClash (s t : Slot) : Prop :=
  s.barbershopId = t.barbershopId ∧ (∃ r, s.resourceId = some r ∧ t.resourceId = some r) ∧ s.Meets t

/-- The slots that are taken. -/
def bookOf (appointments : Table Appointment) (id : ℕ) : Option Slot :=
  ((appointments.get? id).filter (·.status.occupies)).map (·.slot)

/-- The law: nobody is in two places at once, nor is a resource. -/
structure NoDoubleBooking (cat : Catalog) (appointments : Table Appointment) : Prop where
  person : ∀ {i j a b}, appointments.get? i = some a → appointments.get? j = some b → i ≠ j →
    a.status.occupies = true → b.status.occupies = true → cat.OnePerson a.barberId b.barberId →
      ¬(a.startAt < b.endAt ∧ b.startAt < a.endAt)
  resource : ∀ {i j a b r}, appointments.get? i = some a → appointments.get? j = some b → i ≠ j →
    a.status.occupies = true → b.status.occupies = true → a.barbershopId = b.barbershopId →
      a.resourceId = some r → b.resourceId = some r → ¬(a.startAt < b.endAt ∧ b.startAt < a.endAt)

theorem bookOf_eq_some {t : Table Appointment} {id : ℕ} {s : Slot} :
    bookOf t id = some s ↔ ∃ a, t.get? id = some a ∧ a.status.occupies = true ∧ a.slot = s := by
  simp only [bookOf, Option.map_eq_some_iff, Option.filter_eq_some_iff, and_assoc]

theorem noDoubleBooking_iff {cat : Catalog} {t : Table Appointment} : NoDoubleBooking cat t ↔
    ClashFree (PersonClash cat) (bookOf t) ∧ ClashFree ResourceClash (bookOf t) := by
  constructor
  · intro h
    constructor
    · intro i j s s' hs hs' hne ⟨hperson, hmeets⟩
      obtain ⟨a, ha, hao, rfl⟩ := bookOf_eq_some.1 hs
      obtain ⟨b, hb, hbo, rfl⟩ := bookOf_eq_some.1 hs'
      exact h.person ha hb hne hao hbo hperson hmeets
    · intro i j s s' hs hs' hne ⟨hunit, ⟨r, hr, hr'⟩, hmeets⟩
      obtain ⟨a, ha, hao, rfl⟩ := bookOf_eq_some.1 hs
      obtain ⟨b, hb, hbo, rfl⟩ := bookOf_eq_some.1 hs'
      exact h.resource ha hb hne hao hbo hunit hr hr' hmeets
  · rintro ⟨hperson, hresource⟩
    constructor
    · intro i j a b ha hb hne hao hbo hone hmeets
      exact hperson (bookOf_eq_some.2 ⟨a, ha, hao, rfl⟩) (bookOf_eq_some.2 ⟨b, hb, hbo, rfl⟩) hne
        ⟨hone, hmeets⟩
    · intro i j a b r ha hb hne hao hbo hunit hr hr' hmeets
      exact hresource (bookOf_eq_some.2 ⟨a, ha, hao, rfl⟩) (bookOf_eq_some.2 ⟨b, hb, hbo, rfl⟩) hne
        ⟨hunit, ⟨r, hr, hr'⟩, hmeets⟩

theorem Barber.SamePerson.symm {b c : Barber} (h : b.SamePerson c) : c.SamePerson b := by
  rcases h with ⟨u, hb, hc⟩ | ⟨p, hb, hc⟩
  · exact .inl ⟨u, hc, hb⟩
  · exact .inr ⟨p, hc, hb⟩

theorem PersonClash.symm {cat : Catalog} {s t : Slot} (h : PersonClash cat s t) :
    PersonClash cat t s := by
  obtain ⟨hone, hmeets⟩ := h
  refine ⟨?_, hmeets.2, hmeets.1⟩
  rcases hone with hsame | ⟨b, c, hb, hc, hsame⟩
  · exact .inl hsame.symm
  · exact .inr ⟨c, b, hc, hb, hsame.symm⟩

theorem ResourceClash.symm {s t : Slot} (h : ResourceClash s t) : ResourceClash t s := by
  obtain ⟨hunit, ⟨r, hr, hr'⟩, hmeets⟩ := h
  exact ⟨hunit.symm, ⟨r, hr', hr⟩, hmeets.2, hmeets.1⟩

/-! ## The locks keep clashes apart -/

abbrev Slot.personKey (cat : Catalog) (s : Slot) : Option ScheduleLock :=
  some (personLock cat s.barberId)

abbrev Slot.resourceKey (s : Slot) : Option ScheduleLock := s.resourceId.map .resource

section Locks

variable {rota : Rota}

/-- A person has one account, and so one lock. -/
theorem personLock_eq (hpeople : rota.People none) {i j : ℕ} (h : rota.cat.OnePerson i j) :
    personLock rota.cat i = personLock rota.cat j := by
  rcases h with rfl | ⟨b, c, hb, hc, hsame⟩
  · rfl
  · obtain ⟨u, hu, hv⟩ := (hpeople.same hb hc).1 hsame
    simp only [personLock, hb, hc, Option.bind_some, hu, hv]

theorem PersonClash.lock (hpeople : rota.People none) {s t : Slot} (h : PersonClash rota.cat s t) :
    ∃ k, s.personKey rota.cat = some k ∧ t.personKey rota.cat = some k :=
  ⟨_, rfl, by rw [Slot.personKey, personLock_eq hpeople h.1]⟩

theorem ResourceClash.lock {s t : Slot} (h : ResourceClash s t) :
    ∃ k, s.resourceKey = some k ∧ t.resourceKey = some k := by
  obtain ⟨-, ⟨r, hr, hr'⟩, -⟩ := h
  exact ⟨.resource r, by rw [Slot.resourceKey, hr, Option.map_some],
    by rw [Slot.resourceKey, hr', Option.map_some]⟩

end Locks

/-! ## The checks -/

/-- The record is of the unit. -/
def Catalog.OfUnit (cat : Catalog) (barbershopId barberId : ℕ) : Prop :=
  ∃ b, cat.barbers.get? barberId = some b ∧ b.barbershopId = barbershopId

theorem ofUnit_of_ensure {cat : Catalog} {barbershopId barberId : ℕ} {active : Bool}
    (h : ensureBarberOfBarbershop cat barbershopId barberId active = .ok ()) :
    cat.OfUnit barbershopId barberId := by
  rw [ensureBarberOfBarbershop, refuseIf_eq_ok, Bool.not_eq_false] at h
  obtain ⟨b, hb, hall⟩ := (Option.any_eq_true _ _).1 h
  simp only [Bool.and_eq_true, beq_iff_eq] at hall
  exact ⟨b, hb, hall.1.1⟩

section Checks

variable {cat : Catalog} {t : Slot} {own : Option ℕ} {db : Db}

/-- The check finds every appointment of the person at that time. -/
theorem person_clear {rota : Rota} (hpeople : rota.People none)
    (hunit : rota.cat.OfUnit t.barbershopId t.barberId)
    (h : ensureBarberAvailable rota.cat t.barbershopId t.barberId t.startAt t.endAt own db = .ok ()) :
    Clear (PersonClash rota.cat) (bookOf db.appointments) own t := by
  obtain ⟨b, hb, hshop⟩ := hunit
  have hfilter : (rota.cat.barbers.get? t.barberId).filter (·.barbershopId == t.barbershopId) =
      some b := by
    rw [hb, Option.filter_some, if_pos (beq_iff_eq.2 hshop)]
  rintro j s hs hown ⟨hone, hmeets⟩
  obtain ⟨a, ha, hoccupies, rfl⟩ := bookOf_eq_some.1 hs
  simp only [ensureBarberAvailable, bind_eq_ok, exists_punit, hfilter] at h
  obtain ⟨-, hfree⟩ := h
  split at hfree
  next hnone =>
    have hno := Table.find?_none.1 hnone j a ha
    have hmine : (samePersonBarberIds rota.cat t.barberId (some b)).contains a.barberId = true := by
      rcases hone with hsame | ⟨b', c, hb', hc, hsame⟩
      · change t.barberId = a.barberId at hsame
        rw [← hsame]
        unfold samePersonBarberIds
        split <;> simp
      · obtain ⟨u, hu, hv⟩ := (hpeople.same hb' hc).1 hsame
        have hfound := hpeople.found hb' hc hu hv
        rw [Rota.samePerson, hb] at hfound
        exact hfound
    have htakes : a.takes t.startAt t.endAt = true := by
      simp only [Appointment.takes, hoccupies, Bool.true_and, Bool.and_eq_true, decide_eq_true_eq]
      exact ⟨hmeets.2, hmeets.1⟩
    rw [hmine, htakes, Bool.true_and, Bool.and_true, bne_eq_false_iff_eq] at hno
    exact hown hno
  next => cases hfree

theorem resource_clear {resourceId : ℕ} (hresource : t.resourceId = some resourceId)
    (h : ensureResourceAvailable t.barbershopId resourceId t.startAt t.endAt own db = .ok ()) :
    Clear ResourceClash (bookOf db.appointments) own t := by
  rintro j s hs hown ⟨hunit, ⟨r, hr, hr'⟩, hmeets⟩
  obtain ⟨a, ha, hoccupies, rfl⟩ := bookOf_eq_some.1 hs
  rw [ensureResourceAvailable, refuseIf_eq_ok, Bool.not_eq_true] at h
  have hno := Table.any_eq_false.1 h j a ha
  have htakes : a.takes t.startAt t.endAt = true := by
    simp only [Appointment.takes, hoccupies, Bool.true_and, Bool.and_eq_true, decide_eq_true_eq]
    exact ⟨hmeets.2, hmeets.1⟩
  have hshop : (a.barbershopId == t.barbershopId) = true := beq_iff_eq.2 hunit.symm
  have hsame : (a.resourceId == some resourceId) = true := by
    rw [beq_iff_eq]
    exact hr'.trans (hr.symm.trans hresource)
  rw [hshop, hsame, htakes, Bool.true_and, Bool.true_and, Bool.and_true, bne_eq_false_iff_eq] at hno
  exact hown hno

/-- Without a resource nothing clashes on one. -/
theorem resource_clear_none (hresource : t.resourceId = none) (book : ℕ → Option Slot) :
    Clear ResourceClash book own t := by
  rintro j s hs hown ⟨-, ⟨r, hr, -⟩, -⟩
  rw [hresource] at hr
  cases hr

end Checks

/-! ## What a request knows -/

/-- Appointments stay at their unit. -/
abbrev Stays (a a' : Appointment) : Prop := a'.barbershopId = a.barbershopId

theorem stays_refl (t : Table Appointment) : t.Evolves Stays t :=
  Table.Evolves.refl (E := Stays) (fun _ => rfl) t

/-- The row under the key, as long as there is one, is at the unit of the row that was seen. -/
structure KnownRow (cat : Catalog) (t : Table Appointment) (id : ℕ) (seen : Appointment) : Prop where
  before : id < t.next
  unit : ∀ a, t.get? id = some a → a.barbershopId = seen.barbershopId
  ofUnit : cat.OfUnit seen.barbershopId seen.barberId

namespace BookingRequest

/-- The professional of a request is of its unit. -/
def Fits (cat : Catalog) (t : Table Appointment) : BookingRequest → Prop
  | create barbershopId data => cat.OfUnit barbershopId data.barberId
  | book c _ barberId => cat.OfUnit c.data.barbershopId barberId
  | move c => KnownRow cat t c.appointmentId c.seen
  | update c => KnownRow cat t c.appointmentId c.seen ∧
      ∀ b, c.data.barberId = some b → cat.OfUnit c.seen.barbershopId b

/-- The row that a request writes to is as it saw it, in the fields of the slot it does not write. -/
def SeesRow (t : Table Appointment) : BookingRequest → Prop
  | move c => ∀ a ∈ t.get? c.appointmentId, a.barberId = c.seen.barberId ∧
      a.resourceId = c.seen.resourceId
  | update c => ∀ a ∈ t.get? c.appointmentId,
      (c.data.barberId.isNone → a.barberId = c.seen.barberId) ∧
      (c.data.resourceId.isNone → a.resourceId = c.seen.resourceId) ∧
      (c.data.startAt.isNone → a.startAt = c.seen.startAt) ∧
      (c.data.endAt.isNone → a.endAt = c.seen.endAt) ∧
      (c.data.status.isNone → a.status.occupies = c.seen.status.occupies)
  | _ => True

end BookingRequest

section Requests

variable {cat : Catalog} {t t' : Table Appointment} {r : BookingRequest} {now : ℤ}

theorem KnownRow.later {id : ℕ} {seen : Appointment} (h : KnownRow cat t id seen)
    (hstays : t.Evolves Stays t') : KnownRow cat t' id seen where
  before := h.before.trans_le hstays.next_le
  unit a' ha' := by
    obtain ⟨a, ha, hsame⟩ := hstays.row id a' ha' h.before
    exact hsame.trans (h.unit a ha)
  ofUnit := h.ofUnit

theorem getD_congr {α : Type} {o : Option α} {x y : α} (h : o.isNone = true → x = y) :
    o.getD x = o.getD y := by
  cases o with
  | none => exact h rfl
  | some a => rfl

theorem or_congr_of_none {α : Type} {o x y : Option α} (h : o.isNone = true → x = y) :
    o.or x = o.or y := by
  cases o with
  | none => rw [h rfl]
  | some a => rfl

namespace BookingRequest

theorem Fits.later (h : r.Fits cat t) (hstays : t.Evolves Stays t') : r.Fits cat t' := by
  cases r with
  | create barbershopId data => exact h
  | book c customerId barberId => exact h
  | move c => exact KnownRow.later h hstays
  | update c => exact ⟨h.1.later hstays, h.2⟩

theorem Fits.slot {s : Slot} (h : r.Fits cat t) (hs : r.slot = some s) :
    cat.OfUnit s.barbershopId s.barberId := by
  cases r with
  | create barbershopId data => exact Option.some.inj hs ▸ h
  | book c customerId barberId => exact Option.some.inj hs ▸ h
  | move c => exact Option.some.inj hs ▸ h.ofUnit
  | update c =>
    change c.slot = some s at hs
    unfold UpdateCall.slot at hs
    split at hs
    · obtain rfl := Option.some.inj hs
      cases hb : c.data.barberId with
      | none => exact h.1.ofUnit
      | some b => exact h.2 b hb
    · cases hs

/-- A row that is read again is at the same unit. -/
theorem Fits.settle (h : r.Fits cat t)
    (hunits : ∀ id a, t.get? id = some a → cat.OfUnit a.barbershopId a.barberId) (paid : Bool) :
    (r.settle paid t).Fits cat t := by
  cases r with
  | update c =>
    cases paid with
    | false => exact h
    | true =>
      cases ha : t.get? c.appointmentId with
      | none =>
        rw [BookingRequest.settle, ha]
        exact h
      | some a =>
        have hunit := h.1.unit a ha
        rw [BookingRequest.settle, ha]
        refine ⟨⟨h.1.before, fun a' ha' => ?_, hunits _ a ha⟩, fun b hb => ?_⟩
        · exact (h.1.unit a' ha').trans hunit.symm
        · exact hunit.symm ▸ h.2 b hb
  | _ => exact h

/-- What a write leaves: one row, which takes the slot that was checked if it takes one. -/
structure Written (cat : Catalog) (r : BookingRequest) (t t' : Table Appointment) (e : ℕ)
    (a : Appointment) : Prop where
  get? : ∀ id, t'.get? id = if id = e then some a else t.get? id
  stays : t.Evolves Stays t'
  ofUnit : cat.OfUnit a.barbershopId a.barberId
  own : r.own = some e ∨ r.own = none
  slot : r.SeesRow t → a.status.occupies = true → r.slot = some a.slot

/-- A new row. -/
theorem written_insert {a : Appointment} (hunit : cat.OfUnit a.barbershopId a.barberId)
    (hown : r.own = none) (hslot : r.slot = some a.slot) :
    Written cat r t (t.insert a) t.next a where
  get? id := Table.get?_insert t a id
  stays := Table.Evolves.insert (stays_refl t) a
  ofUnit := hunit
  own := .inr hown
  slot _ _ := hslot

/-- A row that is rewritten. -/
theorem written_modify {e : ℕ} {a : Appointment} {f : Appointment → Appointment}
    (ha : t.get? e = some a) (hstays : (f a).barbershopId = a.barbershopId)
    (hunit : cat.OfUnit (f a).barbershopId (f a).barberId) (hown : r.own = some e)
    (hslot : r.SeesRow t → (f a).status.occupies = true → r.slot = some (f a).slot) :
    Written cat r t (t.modify e f) e (f a) where
  get? id := by
    rw [Table.get?_modify]
    split
    next h => rw [h, ha, Option.map_some]
    next => rfl
  stays := by
    refine Table.Evolves.modify (fun h h' => h'.trans h) (stays_refl t) fun b hb => ?_
    rw [ha] at hb
    exact Option.some.inj hb ▸ hstays
  ofUnit := hunit
  own := .inl hown
  slot := hslot

theorem staffRow_slot (barbershopId : ℕ) (data : StaffBooking) :
    (create barbershopId data).slot = some (data.row barbershopId).slot := by
  unfold StaffBooking.row
  cases data.receipt <;> rfl

theorem write_spec (hfits : r.Fits cat t)
    (hunits : ∀ id a, t.get? id = some a → cat.OfUnit a.barbershopId a.barberId)
    (h : r.write now t = some t') : ∃ e a, Written cat r t t' e a := by
  cases r with
  | create barbershopId data =>
    obtain rfl := Option.some.inj h
    have hslot := staffRow_slot barbershopId data
    exact ⟨_, _, written_insert (hfits.slot hslot) rfl hslot⟩
  | book c customerId barberId =>
    obtain rfl := Option.some.inj h
    exact ⟨_, _, written_insert hfits rfl rfl⟩
  | move c =>
    obtain ⟨a, ha, hunmoved, rfl⟩ := Table.tryModify_eq_some.1 h
    refine ⟨_, _, written_modify ha rfl (hunits _ a ha) rfl fun hsees _ => ?_⟩
    obtain ⟨hbarber, hresource⟩ := hsees a ha
    exact congrArg some (Slot.ext (hfits.unit a ha).symm hbarber.symm hresource.symm rfl rfl)
  | update c =>
    obtain ⟨a, ha, -, rfl⟩ := Table.tryModify_eq_some.1 h
    have hunit := hfits.1.unit a ha
    refine ⟨_, _, written_modify ha rfl ?_ rfl fun hsees hoccupies => ?_⟩
    · change cat.OfUnit a.barbershopId (c.data.barberId.getD a.barberId)
      cases hb : c.data.barberId with
      | none => exact hunits _ a ha
      | some b => exact hunit ▸ hfits.2 b hb
    · obtain ⟨hbarber, hresource, hstart, hend, hstatus⟩ := hsees a ha
      have hfinal : c.finalStatus.occupies = true := by
        change (c.data.status.getD a.status).occupies = true at hoccupies
        unfold UpdateCall.finalStatus
        cases hs : c.data.status with
        | none =>
          rw [hs] at hoccupies hstatus
          exact (hstatus rfl).symm.trans hoccupies
        | some status =>
          rw [hs] at hoccupies
          exact hoccupies
      change c.slot = some (c.row a).slot
      rw [UpdateCall.slot, if_pos hfinal]
      refine congrArg some (Slot.ext hunit.symm ?_ ?_ ?_ ?_)
      · exact (getD_congr hbarber).symm
      · exact (or_congr_of_none hresource).symm
      · exact (getD_congr hstart).symm
      · exact (getD_congr hend).symm

end BookingRequest

end Requests

/-! ## The invariant -/

/-- What a transaction has found to be free, with its own appointment. -/
def Booking.person (b : Booking) : Option (Option ℕ × Slot) :=
  if b.personFree then b.request.slot.map fun s => (b.request.own, s) else none

def Booking.resource (b : Booking) : Option (Option ℕ × Slot) :=
  if b.resourceFree then b.request.slot.map fun s => (b.request.own, s) else none

@[simp] theorem BookingRequest.begin_person (r : BookingRequest) (unsettled : Bool) :
    (r.begin unsettled).person = none := rfl

@[simp] theorem BookingRequest.begin_resource (r : BookingRequest) (unsettled : Bool) :
    (r.begin unsettled).resource = none := rfl

structure BookingDesk.Sound (cat : Catalog) (s : BookingDesk) : Prop where
  units : ∀ id a, s.appointments.get? id = some a → cat.OfUnit a.barbershopId a.barberId
  fits : ∀ i r, s.running.get? i = some r → r.body.request.Fits cat s.appointments
  persons : ClashFree (PersonClash cat) (bookOf s.appointments)
  resources : ClashFree ResourceClash (bookOf s.appointments)
  locks : Exclusive s.running
  personFree : Protected (PersonClash cat) (Slot.personKey cat) Booking.person
    (bookOf s.appointments) s.running
  resourceFree : Protected ResourceClash Slot.resourceKey Booking.resource
    (bookOf s.appointments) s.running

namespace BookingDesk.Sound

variable {rota : Rota} {s : BookingDesk}

/-- A request begins. -/
theorem begin {cat : Catalog} (h : s.Sound cat) {r : BookingRequest} (hfits : r.Fits cat s.appointments)
    (unsettled : Bool) : (s.begin r unsettled).Sound cat where
  units := h.units
  fits i x hx := by
    rcases Table.get?_insert_cases hx with ⟨-, rfl⟩ | hx
    · exact hfits
    · exact h.fits i x hx
  persons := h.persons
  resources := h.resources
  locks := h.locks.insert rfl
  personFree := h.personFree.insert rfl
  resourceFree := h.resourceFree.insert rfl

/-- A transaction moves on without writing. -/
theorem modify {cat : Catalog} (h : s.Sound cat) {i : ℕ}
    {f : Running ScheduleLock Booking → Running ScheduleLock Booking}
    (hlocks : Exclusive (s.running.modify i f))
    (hfits : ∀ r, s.running.get? i = some r → (f r).body.request.Fits cat s.appointments)
    (hperson : ∀ r, s.running.get? i = some r → ∀ own t, (f r).body.person = some (own, t) →
      (∀ k ∈ t.personKey cat, k ∈ (f r).held) ∧
        Clear (PersonClash cat) (bookOf s.appointments) own t)
    (hresource : ∀ r, s.running.get? i = some r → ∀ own t, (f r).body.resource = some (own, t) →
      (∀ k ∈ t.resourceKey, k ∈ (f r).held) ∧ Clear ResourceClash (bookOf s.appointments) own t) :
    BookingDesk.Sound cat { s with running := s.running.modify i f } where
  units := h.units
  fits j x hx := by
    change (s.running.modify i f).get? j = some x at hx
    rw [Table.get?_modify] at hx
    split at hx
    next hj =>
      obtain ⟨r, hr, rfl⟩ := Option.map_eq_some_iff.1 hx
      exact hfits r (hj ▸ hr)
    next => exact h.fits j x hx
  persons := h.persons
  resources := h.resources
  locks := hlocks
  personFree := h.personFree.modify i hperson
  resourceFree := h.resourceFree.modify i hresource

/-- A transaction ends without writing. -/
theorem stop {cat : Catalog} (h : s.Sound cat) (i : ℕ) :
    BookingDesk.Sound cat { s with running := s.running.erase i } where
  units := h.units
  fits j x hx := h.fits j x (Table.get?_erase_some hx).2
  persons := h.persons
  resources := h.resources
  locks := h.locks.erase i
  personFree := h.personFree.erase i
  resourceFree := h.resourceFree.erase i

/-- Rows change, and no slot is taken by it. -/
theorem withAppointments {cat : Catalog} (h : s.Sound cat) {t : Table Appointment}
    (hstays : s.appointments.Evolves Stays t)
    (hunits : ∀ id a, t.get? id = some a → cat.OfUnit a.barbershopId a.barberId)
    (hbook : bookOf t = bookOf s.appointments ∨
      ∃ e, bookOf t = Function.update (bookOf s.appointments) e none) :
    (s.withAppointments t).Sound cat := by
  have hfits : ∀ i r, s.running.get? i = some r → r.body.request.Fits cat t :=
    fun i r hr => (h.fits i r hr).later hstays
  rcases hbook with hbook | ⟨e, hbook⟩
  · exact
      { units := hunits
        fits := hfits
        persons := hbook ▸ h.persons
        resources := hbook ▸ h.resources
        locks := h.locks
        personFree := hbook ▸ h.personFree
        resourceFree := hbook ▸ h.resourceFree }
  · exact
      { units := hunits
        fits := hfits
        persons := hbook ▸ h.persons.cancel e
        resources := hbook ▸ h.resources.cancel e
        locks := h.locks
        personFree := hbook ▸ h.personFree.cancel e
        resourceFree := hbook ▸ h.resourceFree.cancel e }

end BookingDesk.Sound

section Steps

variable {rota : Rota} (hpeople : rota.People none) {s s' : BookingDesk}

/-- The book after one row is written. -/
theorem bookOf_write {t t' : Table Appointment} {e : ℕ} {a : Appointment}
    (h : ∀ id, t'.get? id = if id = e then some a else t.get? id) :
    bookOf t' = Function.update (bookOf t) e (if a.status.occupies then some a.slot else none) := by
  funext id
  rw [Function.update_apply, bookOf, h]
  split
  next =>
    cases hoccupies : a.status.occupies <;> simp [hoccupies]
  next => rfl

/-- What is ready has the locks of its slot, and the slot is free. -/
theorem BookingDesk.Sound.slot_free {cat : Catalog} (h : s.Sound cat) {i : ℕ}
    {r : Running ScheduleLock Booking} (hr : s.running.get? i = some r) (hready : r.body.ready = true)
    {t : Slot} (ht : r.body.request.slot = some t) :
    ((∀ k ∈ t.personKey cat, k ∈ r.held) ∧
      Clear (PersonClash cat) (bookOf s.appointments) r.body.request.own t) ∧
    ((∀ k ∈ t.resourceKey, k ∈ r.held) ∧
      Clear ResourceClash (bookOf s.appointments) r.body.request.own t) := by
  simp only [Booking.ready, ht, Option.all_some, Bool.and_eq_true, Bool.or_eq_true] at hready
  obtain ⟨-, hperson, hresource⟩ := hready
  refine ⟨h.personFree hr (by rw [Booking.person, hperson, ht]; rfl), ?_⟩
  cases hid : t.resourceId with
  | none =>
    refine ⟨fun k hk => ?_, resource_clear_none hid _⟩
    rw [Slot.resourceKey, hid] at hk
    cases hk
  | some resourceId =>
    rw [hid] at hresource
    have hfree : r.body.resourceFree = true := by simpa using hresource
    exact h.resourceFree hr (by rw [Booking.resource, hfree, ht]; rfl)

include hpeople

/-- A transaction writes and ends. -/
theorem BookingDesk.Sound.write (h : s.Sound rota.cat) {i : ℕ} {r : Running ScheduleLock Booking}
    (hr : s.running.get? i = some r) (hready : r.body.ready = true) {now : ℤ} {t : Table Appointment}
    (ht : r.body.request.write now s.appointments = some t)
    (hsees : r.body.request.SeesRow s.appointments) :
    BookingDesk.Sound rota.cat { s.withAppointments t with running := s.running.erase i } := by
  obtain ⟨e, a, hwritten⟩ := BookingRequest.write_spec (h.fits i r hr) h.units ht
  have hbook := bookOf_write hwritten.get?
  have hunits : ∀ id b, t.get? id = some b → rota.cat.OfUnit b.barbershopId b.barberId := by
    intro id b hb
    rw [hwritten.get?] at hb
    split at hb
    next => exact Option.some.inj hb ▸ hwritten.ofUnit
    next => exact h.units id b hb
  cases hoccupies : a.status.occupies with
  | false =>
    rw [hoccupies, if_neg Bool.false_ne_true] at hbook
    exact (h.withAppointments hwritten.stays hunits (.inr ⟨e, hbook⟩)).stop i
  | true =>
    rw [hoccupies, if_pos rfl] at hbook
    obtain ⟨⟨hperson, hpersonClear⟩, hresource, hresourceClear⟩ :=
      h.slot_free hr hready (hwritten.slot hsees hoccupies)
    have hown : ∀ {clash : Slot → Slot → Prop},
        Clear clash (bookOf s.appointments) r.body.request.own a.slot →
          Clear clash (bookOf s.appointments) (some e) a.slot := by
      intro clash hclear
      rcases hwritten.own with howned | howned
      · exact howned ▸ hclear
      · rw [howned] at hclear
        exact hclear.own e
    have hpersonKeys : ∀ t t', PersonClash rota.cat t t' →
        ∃ k, t.personKey rota.cat = some k ∧ t'.personKey rota.cat = some k :=
      fun _ _ => PersonClash.lock hpeople
    have hresourceKeys : ∀ t t', ResourceClash t t' →
        ∃ k, t.resourceKey = some k ∧ t'.resourceKey = some k :=
      fun _ _ => ResourceClash.lock
    exact
      { units := hunits
        fits := fun j x hx => (h.fits j x (Table.get?_erase_some hx).2).later hwritten.stays
        persons := hbook ▸ h.persons.write (fun _ _ => PersonClash.symm) (hown hpersonClear)
        resources := hbook ▸ h.resources.write (fun _ _ => ResourceClash.symm) (hown hresourceClear)
        locks := h.locks.erase i
        personFree := hbook ▸ h.personFree.commit h.locks hpersonKeys hr hperson e
        resourceFree := hbook ▸ h.resourceFree.commit h.locks hresourceKeys hr hresource e }

/-- Every step of a transaction keeps the invariant, if what it writes to is as it saw it. -/
theorem BookingStep.sound {k : BookingStep} {i : ℕ} {r : Running ScheduleLock Booking}
    (h : s.Sound rota.cat) (hr : s.running.get? i = some r)
    (hsees : k = .write → r.body.request.SeesRow s.appointments)
    (hstep : k.step rota.cat i r s = some s') : s'.Sound rota.cat := by
  have hsame : ∀ r', s.running.get? i = some r' → r' = r :=
    fun r' hr' => Option.some.inj (hr'.symm.trans hr)
  cases k with
  | settle paid =>
    simp only [step] at hstep
    split at hstep
    next =>
      obtain rfl := Option.some.inj hstep
      refine h.modify (h.locks.modify i fun _ _ hk => hk) (fun r' hr' => ?_) (fun r' _ own t ht => ?_)
        (fun r' _ own t ht => ?_)
      · exact (h.fits i r' hr').settle h.units paid
      · cases ht
      · cases ht
    next => cases hstep
  | lock =>
    simp only [step] at hstep
    obtain ⟨k, -, hlock⟩ := Option.bind_eq_some_iff.1 hstep
    split at hlock
    next hfree =>
      obtain rfl := Option.some.inj hlock
      refine h.modify (h.locks.lock hfree.2 fun r' k' hk' => ?_) (fun r' hr' => h.fits i r' hr')
        (fun r' hr' own t ht => ?_) (fun r' hr' own t ht => ?_)
      · exact List.mem_cons.1 hk'
      · obtain ⟨hheld, hclear⟩ := h.personFree hr' ht
        exact ⟨fun k' hk' => List.mem_cons_of_mem _ (hheld k' hk'), hclear⟩
      · obtain ⟨hheld, hclear⟩ := h.resourceFree hr' ht
        exact ⟨fun k' hk' => List.mem_cons_of_mem _ (hheld k' hk'), hclear⟩
    next => cases hlock
  | checkPerson =>
    simp only [step] at hstep
    obtain ⟨t, ht, hcheck⟩ := Option.bind_eq_some_iff.1 hstep
    split at hcheck
    next hfree =>
      obtain rfl := Option.some.inj hcheck
      obtain ⟨-, hlocks, hfree⟩ := hfree
      refine h.modify (h.locks.modify i fun _ _ hk => hk) (fun r' hr' => h.fits i r' hr')
        (fun r' hr' own t' ht' => ?_) (fun r' hr' own t' ht' => ?_)
      swap
      · have hbefore : r'.body.resource = some (own, t') := ht'
        have hkept := h.resourceFree hr' hbefore
        exact hkept
      obtain rfl := hsame r' hr'
      obtain ⟨t'', ht'', heq⟩ := Option.map_eq_some_iff.1 ht'
      change r'.body.request.slot = some t'' at ht''
      rw [ht] at ht''
      obtain rfl := Option.some.inj ht''
      obtain ⟨rfl, rfl⟩ := Prod.mk.inj heq
      refine ⟨fun k hk => ?_, person_clear hpeople ((h.fits i r' hr).slot ht) hfree⟩
      have hmem : k ∈ r'.body.request.locks rota.cat := by
        rw [BookingRequest.locks, ht]
        exact List.mem_cons.2 (.inl (Option.some.inj hk).symm)
      exact List.contains_iff_mem.1 (List.all_eq_true.1 hlocks k hmem)
    next => cases hcheck
  | checkResource =>
    simp only [step] at hstep
    obtain ⟨t, ht, hcheck⟩ := Option.bind_eq_some_iff.1 hstep
    obtain ⟨resourceId, hid, hcheck⟩ := Option.bind_eq_some_iff.1 hcheck
    split at hcheck
    next hfree =>
      obtain rfl := Option.some.inj hcheck
      obtain ⟨-, -, hlocks, hfree⟩ := hfree
      refine h.modify (h.locks.modify i fun _ _ hk => hk) (fun r' hr' => h.fits i r' hr')
        (fun r' hr' own t' ht' => ?_) (fun r' hr' own t' ht' => ?_)
      · have hbefore : r'.body.person = some (own, t') := ht'
        have hkept := h.personFree hr' hbefore
        exact hkept
      obtain rfl := hsame r' hr'
      obtain ⟨t'', ht'', heq⟩ := Option.map_eq_some_iff.1 ht'
      change r'.body.request.slot = some t'' at ht''
      rw [ht] at ht''
      obtain rfl := Option.some.inj ht''
      obtain ⟨rfl, rfl⟩ := Prod.mk.inj heq
      refine ⟨fun k hk => ?_, resource_clear hid hfree⟩
      have hmem : k ∈ r'.body.request.locks rota.cat := by
        rw [BookingRequest.locks, ht]
        exact List.mem_cons_of_mem _ (Option.mem_toList.2 hk)
      exact List.contains_iff_mem.1 (List.all_eq_true.1 hlocks k hmem)
    next => cases hcheck
  | write =>
    simp only [step] at hstep
    split at hstep
    next hready =>
      obtain ⟨t, ht, rfl⟩ := Option.map_eq_some_iff.1 hstep
      exact h.write hpeople hr hready ht (hsees rfl)
    next => cases hstep
  | stop =>
    obtain rfl := Option.some.inj hstep
    exact h.stop i

omit hpeople in
/-- What happens beside the transactions takes no slot. -/
theorem BookingEvent.sound {cat : Catalog} {e : BookingEvent} (h : s.Sound cat)
    (hstep : e.step cat s = some s') : s'.Sound cat := by
  cases e with
  | createAppointment barbershopId data =>
    simp only [step] at hstep
    split at hstep
    next hchecks =>
      obtain rfl := Option.some.inj hstep
      have hfits : (BookingRequest.create barbershopId data).Fits cat s.appointments :=
        ofUnit_of_ensure hchecks.2
      exact h.begin hfits false
    next => cases hstep
  | createPublicAppointment c customerId barberId =>
    simp only [step] at hstep
    split at hstep
    next hcheck =>
      obtain rfl := Option.some.inj hstep
      have hfits : (BookingRequest.book c customerId barberId).Fits cat s.appointments :=
        ofUnit_of_ensure hcheck
      exact h.begin hfits false
    next => cases hstep
  | rescheduleManagedAppointment appointmentId startAt =>
    simp only [step, PublicEvent.step] at hstep
    split at hstep
    next front c hmove =>
      obtain rfl := Option.some.inj hstep
      obtain ⟨a, ha, hmove⟩ := Option.bind_eq_some_iff.1 hmove
      split at hmove
      · cases hmove
      · obtain ⟨rfl, hcall⟩ := Prod.mk.inj (Option.some.inj hmove)
        have hc := PublicCall.move.inj (Option.some.inj hcall)
        have hrow : s.appointments.get? appointmentId = some a := (Option.filter_eq_some_iff.1 ha).1
        have hknown : KnownRow cat s.appointments appointmentId a :=
          ⟨Table.lt_next_of_get? hrow,
            fun a' ha' => congrArg _ (Option.some.inj (ha'.symm.trans hrow)), h.units _ a hrow⟩
        have hfits : (BookingRequest.move c).Fits cat s.appointments := by
          rw [← hc]
          exact hknown
        exact h.begin hfits false
    next => cases hstep
  | updateAppointment ctx appointmentId data ans =>
    simp only [step] at hstep
    obtain ⟨a, ha, hstep⟩ := Option.bind_eq_some_iff.1 hstep
    split at hstep
    next hchecks =>
      obtain rfl := Option.some.inj hstep
      obtain ⟨hshop, hbarber⟩ := updateAppointmentChecks_ok hchecks
      have hknown : KnownRow cat s.appointments appointmentId a :=
        ⟨Table.lt_next_of_get? ha, fun a' ha' => congrArg _ (Option.some.inj (ha'.symm.trans ha)),
          h.units _ a ha⟩
      -- another professional is one of the unit
      have hofUnit : ∀ b, data.barberId = some b → cat.OfUnit a.barbershopId b := by
        intro b hb
        by_cases hsame : b = a.barberId
        · exact hsame ▸ h.units _ a ha
        · have hchanges : data.changesBarber a = true := by
            rw [AppointmentChange.changesBarber, hb]
            exact decide_eq_true hsame
          have hensured := hbarber hchanges
          rw [answers, hb] at hensured
          exact hshop ▸ ofUnit_of_ensure hensured
      exact h.begin (r := .update (.start appointmentId data a)) ⟨hknown, hofUnit⟩ _
    next => cases hstep
  | deleteAppointment appointmentId =>
    obtain rfl := Option.some.inj hstep
    refine h.withAppointments ((stays_refl _).erase appointmentId) (fun id a ha => ?_) (.inr
      ⟨appointmentId, ?_⟩)
    · exact h.units id a (Table.get?_erase_some ha).2
    · funext id
      rw [Function.update_apply, bookOf, Table.get?_erase]
      split
      next => rfl
      next => rfl
  | setStatus appointmentId status =>
    simp only [step, PublicEvent.step, Option.map_map] at hstep
    obtain ⟨t, ht, rfl⟩ := Option.map_eq_some_iff.1 hstep
    obtain ⟨a, ha, hstatus, hmodified⟩ := Table.tryModify_eq_some.1 ht
    change (s.withAppointments t).Sound cat
    change s.appointments.get? appointmentId = some a at ha
    have hget : ∀ id, t.get? id =
        if id = appointmentId then some { a with status := status } else s.appointments.get? id := by
      intro id
      rw [hmodified, Table.get?_modify]
      split
      next hid => exact hid ▸ congrArg _ ha
      next => rfl
    have hstays : s.appointments.Evolves Stays t :=
      hmodified ▸ (stays_refl _).modify (fun h h' => h'.trans h) fun _ _ => rfl
    refine h.withAppointments hstays (fun id b hb => ?_) ?_
    · rw [hget] at hb
      split at hb
      next => exact Option.some.inj hb ▸ h.units _ a ha
      next => exact h.units id b hb
    · rw [bookOf_write hget]
      cases hoccupies : status.occupies with
      | false =>
        right
        exact ⟨appointmentId, by rw [if_neg Bool.false_ne_true]⟩
      | true =>
        left
        rw [if_pos rfl]
        funext id
        rw [Function.update_apply]
        split
        next hid =>
          have hbefore : a.status.occupies = true := by
            rw [hoccupies] at hstatus
            simpa using (Bool.and_eq_true_iff.1 hstatus).1
          rw [hid]
          exact (bookOf_eq_some.2 ⟨a, ha, hbefore, rfl⟩).symm
        next => rfl
  | tick now =>
    simp only [step, PublicEvent.step] at hstep
    split at hstep
    next =>
      obtain rfl := Option.some.inj hstep
      exact
        { units := h.units
          fits := h.fits
          persons := h.persons
          resources := h.resources
          locks := h.locks
          personFree := h.personFree
          resourceFree := h.resourceFree }
    next => cases hstep

end Steps

/-! ## Runs -/

/-- What each move has to meet: a request that writes finds the row as it saw it. -/
def BookingMove.SeesRow (s : BookingDesk) : BookingMove → Prop
  | .step i .write => ∀ r ∈ s.running.get? i, r.body.request.SeesRow s.appointments
  | _ => True

/-- Before the requests. -/
structure BookingDesk.Start (cat : Catalog) (s : BookingDesk) : Prop where
  running : s.running = .empty
  units : ∀ id a, s.appointments.get? id = some a → cat.OfUnit a.barbershopId a.barberId
  apart : NoDoubleBooking cat s.appointments

theorem BookingDesk.Start.sound {cat : Catalog} {s : BookingDesk} (h : s.Start cat) : s.Sound cat := by
  obtain ⟨hpersons, hresources⟩ := noDoubleBooking_iff.1 h.apart
  have hnone : ∀ {i r}, s.running.get? i ≠ some r := by
    intro i r hr
    rw [h.running] at hr
    cases hr
  exact
    { units := h.units
      fits := fun i r hr => absurd hr hnone
      persons := hpersons
      resources := hresources
      locks := fun i j r r' k hr => absurd hr hnone
      personFree := fun i r own t hr => absurd hr hnone
      resourceFree := fun i r own t hr => absurd hr hnone }

/-- In every run whose edits and moves write to the row they saw, nobody is booked twice. -/
theorem no_double_booking {rota : Rota} (hpeople : rota.People none) {s s' : BookingDesk}
    (hstart : s.Start rota.cat) {moves : List BookingMove}
    (hsees : (bookingDesk rota.cat).Meets BookingMove.SeesRow s moves)
    (hrun : (bookingDesk rota.cat).run s moves = some s') : NoDoubleBooking rota.cat s'.appointments := by
  have hsound : s'.Sound rota.cat := by
    refine (bookingDesk rota.cat).run_inv_of_meets ?_ hstart.sound hsees hrun
    intro s m s' hs hm hmove
    cases m with
    | event e => exact BookingEvent.sound hs hmove
    | step i k =>
      obtain ⟨r, hr, hstep⟩ := Option.bind_eq_some_iff.1 hmove
      refine BookingStep.sound hpeople hs hr (fun hk => ?_) hstep
      subst hk
      exact hm r hr
  exact noDoubleBooking_iff.2 ⟨hsound.persons, hsound.resources⟩

/-! ### One person at two units -/

instance BookingRequest.decidableSeesRow (t : Table Appointment) :
    ∀ r : BookingRequest, Decidable (r.SeesRow t)
  | .create _ _ => isTrue trivial
  | .book _ _ _ => isTrue trivial
  | .move c => inferInstanceAs (Decidable (∀ a ∈ t.get? c.appointmentId, _))
  | .update c => inferInstanceAs (Decidable (∀ a ∈ t.get? c.appointmentId, _))

instance BookingMove.decidableSeesRow (s : BookingDesk) : ∀ m : BookingMove, Decidable (m.SeesRow s)
  | .event _ => isTrue trivial
  | .step i .write => inferInstanceAs (Decidable (∀ r ∈ s.running.get? i, _))
  | .step _ (.settle _) => isTrue trivial
  | .step _ .lock => isTrue trivial
  | .step _ .checkPerson => isTrue trivial
  | .step _ .checkResource => isTrue trivial
  | .step _ .stop => isTrue trivial

/-- Account 1 attends at units 1 and 2. -/
def sharedRota : Rota where
  now := 0
  accounts := 2
  shops := .empty
  cat := {
    services := fun _ => none
    products := fun _ => none
    serviceHistories := fun _ => none
    barbers := (Table.empty.insert ⟨1, some 1, some 1, true, true, none, none⟩).insert
      ⟨2, some 1, some 1, true, true, none, none⟩ }
  professionals := Table.empty.insert 1
  schedules := .empty
  invites := .empty

theorem sharedRota_people : sharedRota.People none := by
  have hrows : ∀ {i b}, sharedRota.cat.barbers.get? i = some b →
      b.userId = some 1 ∧ b.professionalId = some 1 := by
    intro i b hb
    rcases Table.get?_insert_cases hb with ⟨-, rfl⟩ | hb
    · exact ⟨rfl, rfl⟩
    rcases Table.get?_insert_cases hb with ⟨-, rfl⟩ | hb
    · exact ⟨rfl, rfl⟩
    cases hb
  have hprofessionals : ∀ {p u}, sharedRota.professionals.get? p = some u → p = 1 ∧ u = 1 := by
    intro p u hp
    rcases Table.get?_insert_cases hp with ⟨hp, hu⟩ | hp
    · exact ⟨hp, hu⟩
    cases hp
  constructor
  · intro i b u hb hu
    rw [(hrows hb).1] at hu
    obtain rfl := Option.some.inj hu
    exact Nat.lt_succ_self 1
  · intro i b p hb hp
    rw [(hrows hb).2] at hp
    obtain rfl := Option.some.inj hp
    exact ⟨1, (hrows hb).1, rfl⟩
  · intro i b u hb _ _
    exact ⟨1, (hrows hb).2⟩
  · intro p p' u hp hp'
    exact (hprofessionals hp).1.trans (hprofessionals hp').1.symm

def emptyBookingDesk : BookingDesk where
  diary := { db := .empty, phone := fun _ => [], now := 0, made := [] }
  running := .empty

theorem emptyBookingDesk_start : emptyBookingDesk.Start sharedRota.cat where
  running := rfl
  units id a ha := by cases ha
  apart := by
    constructor
    · intro i j a b ha
      cases ha
    · intro i j a b r ha
      cases ha

def staffBooking (barberId : ℕ) (startAt : ℤ) : StaffBooking where
  customerId := 1
  barberId := barberId
  resourceId := none
  startAt := startAt
  endAt := startAt + 100
  status := none
  source := none
  depositAmount := none
  receipt := none

def managerOfOne : Caller where
  shop :=
    { id := 1
      networkId := 1
      currency := "BRL"
      networkCurrency := "BRL"
      moneyCap := 1000000
      network := ⟨false, none, none, 0⟩
      modules := fun _ => true
      soloProductSaleAllowed := fun _ _ => true }
  userId := 9
  accessLevel := .manager
  ownBarberId := none
  now := 0

def editOf (startAt : Option ℤ) (status : Option AppointmentStatus) : BookingMove :=
  .event (.updateAppointment managerOfOne 1
    { customerId := none
      barberId := none
      resourceId := none
      startAt := startAt
      endAt := none
      status := status } noObjection)

/-- Lock, check and write. -/
def whole (i : ℕ) : List BookingMove := [.step i .lock, .step i .checkPerson, .step i .write]

/-- Two bookings of one person at once, the second waiting for the lock, and a move to a third time. -/
def sideBySide : List BookingMove :=
  [.event (.createAppointment 1 (staffBooking 1 100)), .event (.createAppointment 2 (staffBooking 2 200))]
    ++ whole 1 ++ whole 2 ++ editOf (some 300) none :: whole 3

theorem sideBySide_booked : ∃ s, (bookingDesk sharedRota.cat).run emptyBookingDesk sideBySide = some s ∧
    (s.appointments.get? 1).map (·.slot) = some ⟨1, 1, none, 300, 400⟩ ∧
    (s.appointments.get? 2).map (·.slot) = some ⟨2, 2, none, 200, 300⟩ ∧
    NoDoubleBooking sharedRota.cat s.appointments := by
  have hsees : (bookingDesk sharedRota.cat).Meets BookingMove.SeesRow emptyBookingDesk sideBySide := by
    decide +kernel
  have hsome : ((bookingDesk sharedRota.cat).run emptyBookingDesk sideBySide).any (fun s =>
      (s.appointments.get? 1).map (·.slot) == some ⟨1, 1, none, 300, 400⟩ &&
        (s.appointments.get? 2).map (·.slot) == some ⟨2, 2, none, 200, 300⟩) = true := by
    decide +kernel
  obtain ⟨s, hrun, hs⟩ := (Option.any_eq_true _ _).1 hsome
  simp only [Bool.and_eq_true, beq_iff_eq] at hs
  exact ⟨s, hrun, hs.1, hs.2, no_double_booking sharedRota_people emptyBookingDesk_start hsees hrun⟩

/-- While one edit gives a cancelled appointment back its slot, another, which has seen it cancelled, moves
it to where there is one already. -/
def movedWhileRestored : List BookingMove :=
  .event (.createAppointment 1 (staffBooking 1 100)) :: whole 1 ++
    .event (.createAppointment 1 (staffBooking 1 300)) :: whole 2 ++
      editOf none (some .cancelled) :: .step 3 .write ::
        [editOf none (some .confirmed), editOf (some 300) none] ++ whole 4 ++ [.step 5 .write]

/-- Where a write does not find what it saw, a person is booked twice. -/
theorem movedWhileRestored_double : ∃ s,
    (bookingDesk sharedRota.cat).run emptyBookingDesk movedWhileRestored = some s ∧
      ¬ NoDoubleBooking sharedRota.cat s.appointments := by
  have hsome : ((bookingDesk sharedRota.cat).run emptyBookingDesk movedWhileRestored).any (fun s =>
      (s.appointments.get? 1).any fun a => (s.appointments.get? 2).any fun b =>
        a.status.occupies && b.status.occupies && a.slot == b.slot && a.startAt == 300 &&
          b.endAt == 400 && b.startAt == 300 && a.endAt == 400 && a.barberId == b.barberId) = true := by
    decide +kernel
  obtain ⟨s, hrun, hs⟩ := (Option.any_eq_true _ _).1 hsome
  obtain ⟨a, ha, hs⟩ := (Option.any_eq_true _ _).1 hs
  obtain ⟨b, hb, hs⟩ := (Option.any_eq_true _ _).1 hs
  simp only [Bool.and_eq_true, beq_iff_eq] at hs
  obtain ⟨⟨⟨⟨⟨⟨⟨ha', hb'⟩, -⟩, hstart⟩, hend'⟩, hstart'⟩, hend⟩, hbarber⟩ := hs
  exact ⟨s, hrun, fun h => h.person ha hb (by decide) ha' hb' (.inl hbarber) (by omega)⟩

end Barbershop
