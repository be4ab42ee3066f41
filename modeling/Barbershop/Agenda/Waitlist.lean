import Barbershop.Lib.Calls

/-!
# The waitlist

A slot that comes free is offered to one who waits for its day: after a cancellation with its
professional, after a change of the schedule without one. An offer that was given up, or that stood for
`WAITLIST_OFFER_MINUTES`, is taken from its entry by a conditional write and its slot is offered on.
Each offer is a conditional write of one entry; none looks at what the other entries have been offered.

The state is the waitlist of one unit, with the slots that are booked. The fields `offer`, `offers`,
`passedOn` and `underWay` are no columns: offers are numbered, and the numbers of those whose slot was
offered on and the slots that are being detected or passed on are kept beside the rows.
-/

namespace Barbershop

open Lib

inductive WaitlistStatus where
  | waiting | notified | cancelled | booked | expired
  deriving DecidableEq

/-- A start, and the professional unless any will do. -/
abbrev WaitlistSlot := ℤ × Option ℕ

structure WaitlistEntry where
  barberId : Option ℕ
  serviceId : Option ℕ
  /-- The day that it waits for. -/
  date : ℤ
  status : WaitlistStatus
  notifiedAt : Option ℤ
  offeredStartAt : Option ℤ
  offeredBarberId : Option ℕ
  offeredServiceIds : List ℕ
  offer : ℕ

structure WaitlistBooks where
  now : ℤ
  entries : Table WaitlistEntry
  agenda : List (ℤ × ℕ)
  offers : ℕ
  passedOn : List ℕ
  underWay : List WaitlistSlot

def WAITLIST_OFFER_MINUTES : ℤ := 30

def WAITLIST_OPENING_MAX_ENTRIES : ℕ := 200

/-! ## Writes of an entry -/

namespace WaitlistEntry

variable (e : WaitlistEntry)

def queued : Bool := e.status == .waiting || e.status == .notified

def close (status : WaitlistStatus) : WaitlistEntry :=
  { e with status := status, offeredStartAt := none }

def cancel : WaitlistEntry :=
  { e with status := .cancelled, offeredStartAt := none, notifiedAt := none }

def backToWaiting : WaitlistEntry :=
  { e with status := .waiting, offeredStartAt := none, notifiedAt := none }

/-- Its offer is taken from it. -/
def taken : WaitlistEntry := { e with offeredStartAt := none }

/-- The offer has stood for long enough. -/
def due (now : ℤ) : Bool :=
  e.status == .notified && (e.notifiedAt.any fun t =>
    decide (t ≤ now - WAITLIST_OFFER_MINUTES * 60000)) &&
    e.offeredStartAt.any fun t => decide (now < t)

end WaitlistEntry

namespace WaitlistBooks

variable (s : WaitlistBooks)

def writeIf (id : ℕ) (p : WaitlistEntry → Bool) (f : WaitlistEntry → WaitlistEntry) :
    WaitlistBooks :=
  { s with entries := s.entries.modify id fun e => if p e then f e else e }

/-- An entry gets an offer; `passes`: the offer whose slot it is. -/
def notify (id : ℕ) (slot : WaitlistSlot) (serviceIds : List ℕ) (passes : Option ℕ) :
    WaitlistBooks :=
  { s with
    entries := s.entries.modify id fun e => { e with
      status := .notified
      notifiedAt := some s.now
      offeredStartAt := some slot.1
      offeredBarberId := slot.2
      offeredServiceIds := serviceIds
      offer := s.offers }
    offers := s.offers + 1
    passedOn := passes.toList ++ s.passedOn }

/-- A slot is no longer being detected or passed on. -/
def settle (slot : Option WaitlistSlot) : WaitlistBooks :=
  { s with underWay := slot.elim s.underWay s.underWay.erase }

def track (slot : WaitlistSlot) : WaitlistBooks := { s with underWay := slot :: s.underWay }

end WaitlistBooks

/-! ## Requests -/

/-- The arguments of `checkWaitlistOnCancellation`. -/
structure FreedSlot where
  startAt : ℤ
  barberId : ℕ
  serviceIds : List ℕ
  passes : Option ℕ

def FreedSlot.slot (f : FreedSlot) : WaitlistSlot := (f.startAt, some f.barberId)

/-- What `passWaitlistOffer` passes on. -/
structure GivenUp where
  offer : ℕ
  startAt : ℤ
  barberId : Option ℕ
  serviceIds : List ℕ

def GivenUp.slot (p : GivenUp) : WaitlistSlot := (p.startAt, p.barberId)

structure WaitlistOpeningScope where
  first : ℤ
  last : ℤ
  barberId : Option ℕ

/-- The arguments of `checkWaitlistOnOpening`; `passes`: the offer that it passes on, and its start. -/
structure Opening where
  scope : WaitlistOpeningScope
  before : Option (List (ℕ × List ℤ))
  passes : Option (ℕ × ℤ)

/-- The slot that an opening still has to pass on. -/
def Opening.left (o : Opening) (given : List (ℤ × ℤ)) : Option WaitlistSlot :=
  o.passes.bind fun p => if p.2 ∈ given.map Prod.snd then none else some (p.2, none)

/-- An entry with the open starts of its day. -/
structure OpenFor where
  id : ℕ
  date : ℤ
  slots : List ℤ

/-- What comes after an offer was passed on. -/
inductive AfterPass where
  | stop
  | backToWaiting (entryId : ℕ) (now : ℤ) (rest : List (ℕ × WaitlistEntry))

/-- Where a request is, by the statement that is next. -/
inductive WaitlistCall where
  -- `checkWaitlistOnCancellation`
  | detecting (f : FreedSlot) (after : AfterPass)
  | checkingSlot (f : FreedSlot) (after : AfterPass)
  | listing (f : FreedSlot) (after : AfterPass)
  | trying (f : FreedSlot) (candidates : List (ℕ × WaitlistEntry)) (after : AfterPass)
  | offering (f : FreedSlot) (id : ℕ) (candidates : List (ℕ × WaitlistEntry)) (after : AfterPass)
  -- `withWaitlistOpening`
  | snapshotting (scope : WaitlistOpeningScope)
  -- `checkWaitlistOnOpening`
  | opening (o : Opening) (after : AfterPass)
  | giving (o : Opening) (now : ℤ) (found : List OpenFor) (given : List (ℤ × ℤ)) (after : AfterPass)
  | offeringOpened (o : Opening) (now : ℤ) (who : OpenFor) (slot : ℤ) (found : List OpenFor)
      (given : List (ℤ × ℤ)) (after : AfterPass)
  -- `passWaitlistOffer`
  | passing (p : GivenUp) (after : AfterPass)
  -- `passExpiredWaitlistOffers`
  | expiring
  | releasing (now : ℤ) (rest : List (ℕ × WaitlistEntry))
  | returning (entryId : ℕ) (now : ℤ) (rest : List (ℕ × WaitlistEntry))
  | sweeping (now : ℤ)
  -- `leaveWaitlist` and `dropWaitlistEntry`
  | finding (id : ℕ) (leaves : Bool)
  | dropping (id : ℕ) (seen : WaitlistEntry) (offer : Option ℤ) (leaves : Bool)
  | leaving (id : ℕ)

def AfterPass.next : AfterPass → Option WaitlistCall
  | stop => none
  | backToWaiting entryId now rest => some (.returning entryId now rest)

/-- What a step finds beside the rows: whether the unit takes bookings and the slot is in its hours,
whether the one who waits has booked since or may not book, the open starts of an entry, and whether
the step throws. -/
structure WaitlistChance where
  shopOpen : Bool := true
  inHours : Bool := true
  booked : Bool := false
  canBook : Bool := true
  slots : ℕ → List ℤ := fun _ => []
  fails : Bool := false

inductive WaitlistEvent where
  | pass (time : ℕ)
  | join (barberId serviceId : Option ℕ) (date : ℤ)
  | book (startAt : ℤ) (barberId : ℕ)
  | cancelAppointment (startAt : ℤ) (barberId : ℕ) (serviceIds : List ℕ)
  | withWaitlistOpening (scope : WaitlistOpeningScope)
  | passExpiredWaitlistOffers
  | leaveWaitlist (id : ℕ)
  | cancelWaitlistEntry (id : ℕ)
  -- `closeStaleWaitlistEntries`
  | closeStale (id : ℕ) (booked : Bool)

def WaitlistEvent.step (e : WaitlistEvent) (s : WaitlistBooks) :
    Option (WaitlistBooks × Option WaitlistCall) :=
  match e with
  | pass time => some ({ s with now := s.now + time }, none)
  | join barberId serviceId date =>
    some ({ s with entries := s.entries.insert ⟨barberId, serviceId, date, .waiting, none, none, none,
      [], 0⟩ }, none)
  | book startAt barberId =>
    if (startAt, barberId) ∈ s.agenda then none
    else some ({ s with agenda := (startAt, barberId) :: s.agenda }, none)
  | cancelAppointment startAt barberId serviceIds =>
    if (startAt, barberId) ∈ s.agenda then
      some ({ s with agenda := s.agenda.erase (startAt, barberId) }.track (startAt, some barberId),
        some (.detecting ⟨startAt, barberId, serviceIds, none⟩ .stop))
    else none
  | withWaitlistOpening scope => some (s, some (.snapshotting scope))
  | passExpiredWaitlistOffers => some (s, some .expiring)
  | leaveWaitlist id => some (s, some (.finding id true))
  | cancelWaitlistEntry id => some (s, some (.finding id false))
  | closeStale id booked =>
    some (s.writeIf id (·.queued) (·.close (if booked then .booked else .expired)), none)

section Step

/- The day of an instant in the unit's time zone. -/
variable (dayOf : ℤ → ℤ)

namespace WaitlistBooks

variable (s : WaitlistBooks)

/-- Who waits for a slot, in the order of the list. -/
def candidates (f : FreedSlot) : List (ℕ × WaitlistEntry) :=
  s.entries.filter fun _ e => e.status == .waiting && e.date == dayOf f.startAt &&
    (e.barberId.isNone || e.barberId == some f.barberId)

/-- `waitlistOpeningSlots` -/
def openingSlots (k : WaitlistChance) (scope : WaitlistOpeningScope) : List OpenFor :=
  ((s.entries.filter fun _ e => e.status == .waiting &&
      decide (scope.first ≤ e.date ∧ e.date ≤ scope.last) &&
      (scope.barberId.isNone || e.barberId.isNone || e.barberId == scope.barberId)).take
    WAITLIST_OPENING_MAX_ENTRIES).map fun r =>
      ⟨r.1, r.2.date, (k.slots r.1).filter fun t => dayOf t == r.2.date⟩

/-- `waitlistOpeningSnapshot` -/
def openingSnapshot (k : WaitlistChance) (scope : WaitlistOpeningScope) : List (ℕ × List ℤ) :=
  (s.openingSlots dayOf k scope).map fun x => (x.id, x.slots)

/-- The offers that have stood for long enough, the oldest first. -/
def expired : List (ℕ × WaitlistEntry) :=
  ((s.entries.filter fun _ e => e.due s.now).mergeSort fun a b =>
    decide (a.2.notifiedAt.getD 0 ≤ b.2.notifiedAt.getD 0)).take 100

end WaitlistBooks

/-- The first start that is new for an entry and was not given. -/
def Opening.pick (o : Opening) (now : ℤ) (who : OpenFor) (given : List (ℤ × ℤ)) : Option ℤ :=
  who.slots.find? fun t => decide (now < t) &&
    !((o.before.bind (·.lookup who.id)).any (·.contains t)) && !given.contains (who.date, t)

namespace WaitlistCall

/-- A detection is over, and what the request goes on with. -/
def goOn (slot : Option WaitlistSlot) (after : AfterPass) (s : WaitlistBooks) :
    Option (WaitlistBooks × Option WaitlistCall) :=
  some (s.settle slot, after.next)

def step (k : WaitlistChance) (c : WaitlistCall) (s : WaitlistBooks) :
    Option (WaitlistBooks × Option WaitlistCall) :=
  match c with
  | detecting f after =>
    if k.fails ∨ f.startAt ≤ s.now ∨ k.shopOpen = false then goOn f.slot after s
    else some (s, some (checkingSlot f after))
  | checkingSlot f after =>
    if k.fails ∨ k.inHours = false ∨ (f.startAt, f.barberId) ∈ s.agenda then goOn f.slot after s
    else some (s, some (listing f after))
  | listing f after => some (s, some (trying f (s.candidates dayOf f) after))
  | trying f [] after => goOn f.slot after s
  | trying f ((id, e) :: rest) after =>
    if k.fails then goOn f.slot after s
    else if e.serviceId.any fun serviceId => !f.serviceIds.contains serviceId then
      some (s, some (trying f rest after))
    else if k.booked then some (s.writeIf id (·.queued) (·.close .booked), some (trying f rest after))
    else if k.canBook then some (s, some (offering f id rest after))
    else some (s, some (trying f rest after))
  | offering f id rest after =>
    if (s.entries.get? id).any (·.status == .waiting) then
      goOn f.slot after (s.notify id f.slot f.serviceIds f.passes)
    else some (s, some (trying f rest after))
  | snapshotting scope =>
    some (s, some (opening ⟨scope, if k.fails then none else some (s.openingSnapshot dayOf k scope),
      none⟩ .stop))
  | opening o after =>
    if k.fails then goOn (o.left []) after s
    else some (s, some (giving o s.now (s.openingSlots dayOf k o.scope) [] after))
  | giving o _ [] given after => goOn (o.left given) after s
  | giving o now (who :: found) given after =>
    if k.fails then goOn (o.left given) after s
    else match o.pick now who given with
    | none => some (s, some (giving o now found given after))
    | some slot =>
      if k.booked then
        some (s.writeIf who.id (·.queued) (·.close .booked), some (giving o now found given after))
      else if k.canBook then some (s, some (offeringOpened o now who slot found given after))
      else some (s, some (giving o now found given after))
  | offeringOpened o now who slot found given after =>
    if (s.entries.get? who.id).any (·.status == .waiting) then
      let passes := o.passes.filter fun p => p.2 == slot
      some ((s.notify who.id (slot, none) [] (passes.map Prod.fst)).settle
        (passes.map fun p => (p.2, none)), some (giving o now found ((who.date, slot) :: given) after))
    else some (s, some (giving o now found given after))
  | passing p after =>
    match p.barberId with
    | some barberId =>
      if k.fails ∨ k.inHours = false ∨ (p.startAt, barberId) ∈ s.agenda then goOn p.slot after s
      else some (s, some (detecting ⟨p.startAt, barberId, p.serviceIds, some p.offer⟩ after))
    | none =>
      if k.fails then goOn p.slot after s
      else
        let scope := ⟨dayOf p.startAt, dayOf p.startAt, none⟩
        let before := (s.openingSnapshot dayOf k scope).map fun x => (x.1, x.2.filter (· != p.startAt))
        some (s, some (opening ⟨scope, some before, some (p.offer, p.startAt)⟩ after))
  | expiring => some (s, some (releasing s.now s.expired))
  | releasing now [] => some (s, some (sweeping now))
  | releasing now ((id, seen) :: rest) =>
    match seen.offeredStartAt, s.entries.get? id with
    | some startAt, some e =>
      if e.offeredStartAt = some startAt then
        let p : GivenUp := ⟨e.offer, startAt, seen.offeredBarberId, seen.offeredServiceIds⟩
        some ((s.writeIf id (fun _ => true) (·.taken)).track p.slot,
          some (passing p (.backToWaiting id now rest)))
      else some (s, some (releasing now rest))
    | _, _ => some (s, some (releasing now rest))
  | returning entryId now rest =>
    some (s.writeIf entryId (·.status == .notified) (·.backToWaiting), some (releasing now rest))
  | sweeping now =>
    some ({ s with entries := s.entries.modifyAll fun _ e =>
      if e.status == .notified && e.offeredStartAt.any fun t => decide (t ≤ now) then
        e.backToWaiting else e }, none)
  | finding id leaves =>
    match s.entries.get? id with
    | none => some (s, none)
    | some e =>
      if leaves = true ∧ e.queued = false then some (s, none)
      else some (s, some (dropping id e (if e.status = .notified then
        e.offeredStartAt.filter fun t => decide (s.now < t) else none) leaves))
  | dropping id seen offer leaves =>
    match s.entries.get? id with
    | none => some (s, none)
    | some e =>
      if e.queued = true ∧ (offer = none ∨ e.offeredStartAt = offer) then
        let s' := s.writeIf id (·.queued) (·.cancel)
        match offer with
        | none => some (s', none)
        | some startAt =>
          let p : GivenUp := ⟨e.offer, startAt, seen.offeredBarberId, seen.offeredServiceIds⟩
          some (s'.track p.slot, some (passing p .stop))
      else some (s, if leaves then some (leaving id) else none)
  | leaving id => some (s.writeIf id (·.queued) (·.cancel), none)

end WaitlistCall

def waitlist : CallSystem WaitlistBooks WaitlistCall WaitlistEvent WaitlistChance :=
  ⟨WaitlistEvent.step, WaitlistCall.step dayOf⟩

end Step

/-- A unit without a waitlist, with its bookings. -/
def WaitlistBooks.initial (now : ℤ) (agenda : List (ℤ × ℕ)) : WaitlistBooks where
  now := now
  entries := .empty
  agenda := agenda
  offers := 0
  passedOn := []
  underWay := []

end Barbershop
