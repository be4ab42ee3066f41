import Mathlib.Data.Int.ConditionallyCompleteOrder
import Barbershop.Lib.Calls
import Barbershop.Service

/-!
# The walk-in queue

The queue of a unit is of the day. A new entry (`createWalkIn`) and one that returns
(`updateWalkInStatus` to `WAITING`) take the place after the last waiting one, under the unit's lock;
every other change of status is one unconditional write, checked against the status that the request
read before. The nightly job (`closeStaleWalkIns`) closes what earlier days left open, in one
conditional update.

`QueueCall.lands` is what each write has to meet for the places to stay distinct, for the entries
that return to stand last, and for what is over to stay over.
-/

namespace Barbershop

open Lib

/-! ## Rows -/

/-- `WALK_IN_STATUSES` -/
inductive WalkInStatus where
  | waiting | inProgress | completed | cancelled | notServed
  deriving DecidableEq, Repr

/-- Where each status may go. -/
def WALK_IN_NEXT : WalkInStatus → List WalkInStatus
  | .waiting => [.inProgress, .cancelled, .notServed]
  | .inProgress => [.completed, .cancelled, .waiting, .notServed]
  | _ => []

structure WalkIn where
  createdAt : ℤ
  customerId : Option ℕ
  barberId : Option ℕ
  status : WalkInStatus
  queuePosition : ℕ
  servedAt : Option ℤ

structure WalkInService where
  walkInId : ℕ
  serviceId : ℕ
  quantity : ℕ

structure WalkInHistory where
  customerId : ℕ
  barberId : ℕ
  walkInId : ℕ
  serviceId : ℕ
  performedAt : ℤ
  priceCharged : ℚ
  durationMinutes : Option ℕ

/-- The rows of one unit, with its lock and the clock. -/
structure WalkInQueue where
  now : ℤ
  walkIns : Table WalkIn
  services : Table WalkInService
  history : Table WalkInHistory
  locked : Bool

/-- What the requests find and do not change. -/
structure QueueSite where
  cat : Catalog
  /-- `ensureCustomerOfNetwork` -/
  customerOfNetwork : ℕ → Bool
  /-- `assertSoloBookingAllowed` at an instant. -/
  soloBookingAllowed : ℤ → Bool
  price : ℕ → ℚ
  durationMinutes : ℕ → Option ℕ
  /-- `queueDayStart`: where the day of an instant begins, in the time zone of the unit. -/
  queueDayStart : ℤ → ℤ
  /-- Days do not go back. -/
  mono : Monotone queueDayStart
  /-- The date of an instant, as the nightly job counts it. -/
  date : ℤ → ℤ

namespace WalkInQueue

variable (site : QueueSite) (s : WalkInQueue)

/-- An entry waits in the queue of the day that begins at `day`. -/
def waits (day : ℤ) (id : ℕ) (w : WalkIn) : Prop :=
  s.walkIns.get? id = some w ∧ w.status = .waiting ∧ day ≤ w.createdAt

/-- The place after the last waiting entry of the day. -/
def nextQueuePosition (day : ℤ) : ℕ :=
  ((s.walkIns.filter fun _ w => w.status == .waiting && decide (day ≤ w.createdAt)).map
    fun row => row.2.queuePosition).foldr max 0 + 1

/-- `closeStaleWalkIns`, of this unit. -/
def closeStaleWalkIns : WalkInQueue :=
  { s with walkIns := s.walkIns.modifyAll fun _ w =>
      if (w.status == .waiting || w.status == .inProgress) &&
          decide (site.date w.createdAt < site.date s.now) then
        { w with status := .notServed }
      else w }

end WalkInQueue

/-! ## Requests -/

structure NewWalkIn where
  customerId : Option ℕ
  barberId : Option ℕ
  /-- Services with their quantities. -/
  services : List (ℕ × Option ℕ)

/-- An `updateWalkInStatus` that passed its checks: the row it read and what it is to write. -/
structure WalkInUpdate where
  walkInId : ℕ
  seen : WalkIn
  status : WalkInStatus
  /-- When it starts to serve: at what instant, and who. -/
  serving : Option (ℤ × Option ℕ)

inductive QueueRequest where
  | create (data : NewWalkIn)
  | update (u : WalkInUpdate)

def createWalkInChecks (site : QueueSite) (ctx : Caller) (data : NewWalkIn) (s : WalkInQueue) :
    Result Unit := do
  let _ ← ifGiven data.customerId fun c =>
    refuseIf (site.customerOfNetwork c = false) (.notFound "Cliente não encontrado")
  let _ ← ifGiven data.barberId fun b => ensureBarberOfBarbershop site.cat ctx.shop.id b true
  refuseIf (∃ own ∈ ctx.ownBarberId, ∃ b ∈ data.barberId, b ≠ own)
    (.forbidden "Seu cargo só permite pôr clientes na sua própria fila.")
  refuseIf (∃ row ∈ data.services, ((site.cat.services row.1).any fun c =>
      c.barbershopId == ctx.shop.id && c.isActive) = false) (.notFound "Serviço não encontrado")
  refuseIf (site.soloBookingAllowed s.now = false) (.badRequest
    "Pelo segundo mês seguido você passou de 30 atendimentos por conta própria. Os que já estão marcados continuam. Novos ficam pausados neste mês.")

/-- The status is `none` where it is not one of `WALK_IN_STATUSES`. -/
def updateWalkInChecks (site : QueueSite) (ctx : Caller) (walkInId : ℕ)
    (status : Option WalkInStatus) (barberId : Option ℕ) (s : WalkInQueue) :
    Result WalkInUpdate := do
  let status ← orRefuse status (.badRequest "Status inválido")
  let walkIn ← orRefuse (s.walkIns.get? walkInId) (.notFound "Cliente da fila não encontrado")
  refuseIf (∃ own ∈ ctx.ownBarberId, ∃ b ∈ walkIn.barberId, b ≠ own)
    (.notFound "Cliente da fila não encontrado")
  refuseIf (∃ own ∈ ctx.ownBarberId, ∃ b ∈ barberId, b ≠ own)
    (.forbidden "Seu cargo só permite pôr clientes na sua própria fila.")
  refuseIf (status ≠ walkIn.status ∧ status ∉ WALK_IN_NEXT walkIn.status)
    (.badRequest "Essa mudança de situação não vale para este cliente da fila.")
  if status = .inProgress ∧ walkIn.status ≠ .inProgress then
    let serving := barberId <|> walkIn.barberId <|> ctx.ownBarberId
    let _ ← ifGiven serving fun b =>
      if some b = walkIn.barberId then .ok ()
      else ensureBarberOfBarbershop site.cat ctx.shop.id b true
    return ⟨walkInId, walkIn, status, some (s.now, serving)⟩
  else return ⟨walkInId, walkIn, status, none⟩

namespace WalkInUpdate

variable (u : WalkInUpdate)

/-- Back to the queue, at its end. -/
def returns : Bool := u.status == .waiting && u.seen.status != .waiting

/-- The update, with the place it was given if it returns. -/
def data (position : Option ℕ) (w : WalkIn) : WalkIn where
  createdAt := w.createdAt
  customerId := w.customerId
  barberId := u.serving.elim w.barberId Prod.snd
  status := u.status
  queuePosition := position.getD w.queuePosition
  servedAt := if position.isSome then none else u.serving.elim w.servedAt fun x => some x.1

/-- Who served: the one written, else the one that was read. -/
def servedBy : Option ℕ := (u.serving.bind Prod.snd) <|> u.seen.barberId

/-- What a completed entry leaves in the history. -/
def lines (site : QueueSite) (s : WalkInQueue) : List WalkInHistory :=
  if u.status = .completed ∧ u.seen.status ≠ .completed then
    match u.seen.customerId, u.servedBy with
    | some customerId, some barberId =>
      (s.services.filter fun _ line => line.walkInId == u.walkInId).map fun row => {
        customerId := customerId
        barberId := barberId
        walkInId := u.walkInId
        serviceId := row.2.serviceId
        performedAt := s.now
        priceCharged := site.price row.2.serviceId
        durationMinutes := site.durationMinutes row.2.serviceId }
    | _, _ => []
  else []

def write (site : QueueSite) (position : Option ℕ) (s : WalkInQueue) : WalkInQueue :=
  { s with
    walkIns := s.walkIns.modify u.walkInId (u.data position)
    history := (u.lines site s).foldl Table.insert s.history }

end WalkInUpdate

namespace QueueRequest

/-- The write of a request that took a place. -/
def write (site : QueueSite) (position : ℕ) (s : WalkInQueue) : QueueRequest → WalkInQueue
  | create data =>
    { s with
      walkIns := s.walkIns.insert {
        createdAt := s.now
        customerId := data.customerId
        barberId := data.barberId
        status := .waiting
        queuePosition := position
        servedAt := none }
      services := (data.services.map fun row =>
        WalkInService.mk s.walkIns.next row.1 (row.2.getD 1)).foldl Table.insert s.services }
  | update u => u.write site (some position) s

end QueueRequest

/-! ## Calls -/

/-- Where a call is: before the lock, in it, with the place it found, or about to write without a
place. -/
inductive QueueCall where
  | locking (r : QueueRequest)
  | placing (r : QueueRequest)
  | writing (r : QueueRequest) (day : ℤ) (position : ℕ)
  | updating (u : WalkInUpdate)

/-- Whether the transaction of a call goes through. -/
inductive QueueChance where
  | goesOn | fails
  deriving DecidableEq

namespace QueueCall

def holds : QueueCall → Bool
  | placing _ | writing .. => true
  | locking _ | updating _ => false

/-- The transaction of a call ends without a write. -/
def rollback (c : QueueCall) (s : WalkInQueue) : WalkInQueue :=
  { s with locked := s.locked && !c.holds }

/-- `none`: the call waits for the lock. -/
def step (site : QueueSite) (k : QueueChance) (c : QueueCall) (s : WalkInQueue) :
    Option (WalkInQueue × Option QueueCall) :=
  match k, c with
  | .fails, c => some (c.rollback s, none)
  | .goesOn, locking r =>
    if s.locked then none else some ({ s with locked := true }, some (placing r))
  | .goesOn, placing r =>
    let day := site.queueDayStart s.now
    some (s, some (writing r day (s.nextQueuePosition day)))
  | .goesOn, writing r _ position =>
    some ({ r.write site position s with locked := false }, none)
  | .goesOn, updating u => some (u.write site none s, none)

/-- What each write has to meet: an entry that is over keeps its status, and one that is written as
waiting without a place still waits. -/
def lands (k : QueueChance) (c : QueueCall) (s : WalkInQueue) : Prop :=
  match k, c with
  | .goesOn, writing (.update u) _ _ =>
    ∀ w ∈ s.walkIns.get? u.walkInId, WALK_IN_NEXT w.status = [] → u.status = w.status
  | .goesOn, updating u => ∀ w ∈ s.walkIns.get? u.walkInId,
    (WALK_IN_NEXT w.status = [] → u.status = w.status) ∧
      (u.status = .waiting → w.status = .waiting)
  | _, _ => True

instance (k : QueueChance) (c : QueueCall) (s : WalkInQueue) : Decidable (c.lands k s) :=
  match k, c with
  | .goesOn, writing (.update u) _ _ => inferInstanceAs (Decidable
      (∀ w ∈ s.walkIns.get? u.walkInId, WALK_IN_NEXT w.status = [] → u.status = w.status))
  | .goesOn, updating u => inferInstanceAs (Decidable (∀ w ∈ s.walkIns.get? u.walkInId,
      (WALK_IN_NEXT w.status = [] → u.status = w.status) ∧
        (u.status = .waiting → w.status = .waiting)))
  | .goesOn, writing (.create _) _ _ => isTrue trivial
  | .goesOn, locking _ => isTrue trivial
  | .goesOn, placing _ => isTrue trivial
  | .fails, _ => isTrue trivial

end QueueCall

inductive QueueEvent where
  | createWalkIn (ctx : Caller) (data : NewWalkIn)
  | updateWalkInStatus (ctx : Caller) (walkInId : ℕ) (status : Option WalkInStatus)
      (barberId : Option ℕ)
  | closeStaleWalkIns
  /-- Time passes. -/
  | pass (time : ℕ)

def QueueEvent.begin (site : QueueSite) (e : QueueEvent) (s : WalkInQueue) :
    WalkInQueue × Option QueueCall :=
  match e with
  | createWalkIn ctx data =>
    (s, (createWalkInChecks site ctx data s).toOption.map fun _ => .locking (.create data))
  | updateWalkInStatus ctx walkInId status barberId =>
    (s, (updateWalkInChecks site ctx walkInId status barberId s).toOption.map fun u =>
      if u.returns then .locking (.update u) else .updating u)
  | closeStaleWalkIns => (s.closeStaleWalkIns site, none)
  | pass time => ({ s with now := s.now + time }, none)

/-- The requests of one unit, any number at once. -/
def queueCalls (site : QueueSite) : CallSystem WalkInQueue QueueCall QueueEvent QueueChance where
  event e s := some (e.begin site s)
  step k c s := c.step site k s

/-! ## The law -/

namespace WalkInQueue

/-- The waiting entries of the current day stand at distinct places. -/
def Distinct (site : QueueSite) (s : WalkInQueue) : Prop :=
  ∀ i j v w, s.waits (site.queueDayStart s.now) i v → s.waits (site.queueDayStart s.now) j w →
    v.queuePosition = w.queuePosition → i = j

/-- An entry that returns to the queue stands after every entry that waits there. -/
def ReturnsLast (site : QueueSite) (s s' : WalkInQueue) : Prop :=
  ∀ id w w', s.walkIns.get? id = some w → w.status ≠ .waiting →
    s'.walkIns.get? id = some w' → w'.status = .waiting →
      ∀ j v, j ≠ id → s'.waits (site.queueDayStart s'.now) j v → v.queuePosition < w'.queuePosition

/-- What is over stays as it is. -/
def StaysOver (s s' : WalkInQueue) : Prop :=
  ∀ id w, s.walkIns.get? id = some w → WALK_IN_NEXT w.status = [] →
    ∃ w', s'.walkIns.get? id = some w' ∧ w'.status = w.status

theorem StaysOver.refl (s : WalkInQueue) : StaysOver s s := fun _ w h _ => ⟨w, h, rfl⟩

theorem StaysOver.trans {s₁ s₂ s₃ : WalkInQueue} (h : StaysOver s₁ s₂) (h' : StaysOver s₂ s₃) :
    StaysOver s₁ s₃ := by
  intro id w hw hover
  obtain ⟨w₂, hw₂, hstatus⟩ := h id w hw hover
  obtain ⟨w₃, hw₃, hstatus'⟩ := h' id w₂ hw₂ (hstatus ▸ hover)
  exact ⟨w₃, hw₃, hstatus'.trans hstatus⟩

/-- What one step does to the queue: who waits after it waited before it at the same place, or is
`placed` behind all the others; what is over stays so. -/
structure Moved (site : QueueSite) (s s' : WalkInQueue) (placed : Option (ℕ × ℕ)) : Prop where
  now : s.now ≤ s'.now
  waits : ∀ id w', s'.walkIns.get? id = some w' → w'.status = .waiting →
    (∃ w, s.walkIns.get? id = some w ∧ w.status = .waiting ∧ w.createdAt = w'.createdAt ∧
      w.queuePosition = w'.queuePosition) ∨ placed = some (id, w'.queuePosition)
  last : ∀ p ∈ placed, ∀ id w, s.waits (site.queueDayStart s'.now) id w → w.queuePosition < p.2
  stays : StaysOver s s'

section Moved

variable {site : QueueSite} {s s' : WalkInQueue} {placed : Option (ℕ × ℕ)}

theorem waits.earlier {day day' : ℤ} {id : ℕ} {w : WalkIn} (h : s.waits day' id w)
    (hday : day ≤ day') : s.waits day id w :=
  ⟨h.1, h.2.1, hday.trans h.2.2⟩

/-- Who waits after a step waited before it, or was placed. -/
theorem Moved.before (h : Moved site s s' placed) {day : ℤ} {id : ℕ} {w' : WalkIn}
    (hw : s'.waits day id w') : (∃ w, s.waits day id w ∧ w.queuePosition = w'.queuePosition) ∨
      placed = some (id, w'.queuePosition) := by
  rcases h.waits id w' hw.1 hw.2.1 with ⟨w, hget, hstatus, hcreated, hpos⟩ | hplaced
  · exact .inl ⟨w, ⟨hget, hstatus, hcreated ▸ hw.2.2⟩, hpos⟩
  · exact .inr hplaced

theorem Moved.distinct (h : Moved site s s' placed) (hs : s.Distinct site) : s'.Distinct site := by
  intro i j v w hv hw heq
  have hday := site.mono h.now
  rcases h.before hv with ⟨v₀, hv₀, hposv⟩ | hplacedv
  · rcases h.before hw with ⟨w₀, hw₀, hposw⟩ | hplacedw
    · refine hs i j v₀ w₀ (hv₀.earlier hday) (hw₀.earlier hday) ?_
      rw [hposv, hposw, heq]
    · have hlt := h.last _ hplacedw i v₀ hv₀
      simp only at hlt
      omega
  · rcases h.before hw with ⟨w₀, hw₀, hposw⟩ | hplacedw
    · have hlt := h.last _ hplacedv j w₀ hw₀
      simp only at hlt
      omega
    · rw [hplacedv] at hplacedw
      exact congrArg Prod.fst (Option.some.inj hplacedw)

theorem Moved.returnsLast (h : Moved site s s' placed) : s.ReturnsLast site s' := by
  intro id w w' hw hnot hw' hwaiting j v hne hv
  rcases h.waits id w' hw' hwaiting with ⟨w₀, hw₀, hwas, -, -⟩ | hplaced
  · rw [hw] at hw₀
    exact absurd (Option.some.inj hw₀ ▸ hwas) hnot
  · rcases h.before hv with ⟨v₀, hv₀, hpos⟩ | hother
    · exact hpos ▸ h.last _ hplaced j v₀ hv₀
    · rw [hplaced] at hother
      exact absurd (congrArg Prod.fst (Option.some.inj hother)).symm hne

/-- A step that rewrites no row. -/
theorem Moved.of_rows (hrows : s'.walkIns = s.walkIns) (hnow : s.now ≤ s'.now) :
    Moved site s s' none where
  now := hnow
  waits id w' hw hwaiting := by
    rw [hrows] at hw
    exact .inl ⟨w', hw, hwaiting, rfl, rfl⟩
  last p hp := by cases hp
  stays id w hw _ := ⟨w, hrows ▸ hw, rfl⟩

theorem closeStaleWalkIns_moved : Moved site s (s.closeStaleWalkIns site) none where
  now := le_rfl
  waits id w' hw hwaiting := by
    simp only [closeStaleWalkIns, Table.get?_modifyAll, Option.map_eq_some_iff] at hw
    obtain ⟨w, hw, rfl⟩ := hw
    split at hwaiting
    · cases hwaiting
    · next hnot =>
      rw [if_neg hnot]
      exact .inl ⟨w, hw, hwaiting, rfl, rfl⟩
  last p hp := by cases hp
  stays id w hw hover := by
    simp only [closeStaleWalkIns, Table.get?_modifyAll, hw, Option.map_some]
    refine ⟨_, rfl, ?_⟩
    split
    · next hopen =>
      -- an open status has successors
      cases hstatus : w.status <;> simp [hstatus, WALK_IN_NEXT] at hopen hover
    · rfl

/-- The last place is after all that wait. -/
theorem lt_nextQueuePosition {day : ℤ} {id : ℕ} {w : WalkIn} (h : s.waits day id w) :
    w.queuePosition < s.nextQueuePosition day := by
  have hle : ∀ {l : List ℕ} {n : ℕ}, n ∈ l → n ≤ l.foldr max 0 := by
    intro l n hn
    induction l with
    | nil => cases hn
    | cons m l ih =>
      rcases List.mem_cons.1 hn with rfl | hn
      · exact le_max_left _ _
      · exact (ih hn).trans (le_max_right _ _)
  refine Nat.lt_succ_of_le (hle (List.mem_map.2 ⟨(id, w), Table.mem_filter.2 ⟨h.1, ?_⟩, rfl⟩))
  simp [h.2.1, h.2.2]

/-- An update that lands: without a place, or at the last one. -/
theorem update_moved {u : WalkInUpdate} {position : Option ℕ}
    (hover : ∀ w ∈ s.walkIns.get? u.walkInId, WALK_IN_NEXT w.status = [] → u.status = w.status)
    (hstill : position = none → ∀ w ∈ s.walkIns.get? u.walkInId,
      u.status = .waiting → w.status = .waiting)
    (hlast : ∀ p ∈ position, ∀ id w, s.waits (site.queueDayStart s.now) id w → w.queuePosition < p) :
    Moved site s (u.write site position s) (position.map fun p => (u.walkInId, p)) where
  now := le_rfl
  waits id w' hw hwaiting := by
    simp only [WalkInUpdate.write] at hw
    by_cases hid : id = u.walkInId
    · subst hid
      rw [Table.get?_modify_self] at hw
      obtain ⟨w, hget, rfl⟩ := Option.map_eq_some_iff.1 hw
      cases position with
      | none => exact .inl ⟨w, hget, hstill rfl w hget hwaiting, rfl, rfl⟩
      | some p => exact .inr rfl
    · rw [Table.get?_modify_of_ne _ _ hid] at hw
      exact .inl ⟨w', hw, hwaiting, rfl, rfl⟩
  last := by
    intro p hp
    obtain ⟨n, hn, rfl⟩ := Option.map_eq_some_iff.1 hp
    exact hlast n hn
  stays id w hw hnext := by
    simp only [WalkInUpdate.write]
    by_cases hid : id = u.walkInId
    · subst hid
      rw [Table.get?_modify_self, hw]
      exact ⟨_, rfl, hover w hw hnext⟩
    · rw [Table.get?_modify_of_ne _ _ hid]
      exact ⟨w, hw, rfl⟩

theorem write_moved {r : QueueRequest} {position : ℕ}
    (hover : ∀ u, r = .update u → ∀ w ∈ s.walkIns.get? u.walkInId,
      WALK_IN_NEXT w.status = [] → u.status = w.status)
    (hlast : ∀ id w, s.waits (site.queueDayStart s.now) id w → w.queuePosition < position) :
    ∃ id, Moved site s (r.write site position s) (some (id, position)) := by
  cases r with
  | create data =>
    refine ⟨s.walkIns.next, le_rfl, fun id w' hw hwaiting => ?_, fun p hp => ?_, fun id w hw _ => ?_⟩
    · simp only [QueueRequest.write] at hw
      rw [Table.get?_insert] at hw
      split at hw
      · next hid =>
        obtain rfl := Option.some.inj hw
        exact .inr (by rw [hid])
      · exact .inl ⟨w', hw, hwaiting, rfl, rfl⟩
    · obtain rfl := Option.some.inj hp
      exact hlast
    · exact ⟨w, Table.get?_insert_of_some _ hw, rfl⟩
  | update u =>
    refine ⟨u.walkInId, update_moved (hover u rfl) (fun h => by cases h) fun p hp => ?_⟩
    obtain rfl := Option.some.inj hp
    exact hlast

end Moved

end WalkInQueue

/-! ## Runs -/

namespace QueueCall

/-- The place that a call found is after all that wait in its day. -/
def Known (site : QueueSite) (s : WalkInQueue) : QueueCall → Prop
  | writing _ day position => day ≤ site.queueDayStart s.now ∧
    ∀ id w, s.waits day id w → w.queuePosition < position
  | _ => True

theorem Known.moved {site : QueueSite} {s s' : WalkInQueue} {c : QueueCall} (h : c.Known site s)
    (hmoved : s.Moved site s' none) : c.Known site s' := by
  cases c with
  | writing r day position =>
    refine ⟨h.1.trans (site.mono hmoved.now), fun id w hw => ?_⟩
    rcases hmoved.before hw with ⟨w₀, hw₀, hpos⟩ | hplaced
    · exact hpos ▸ h.2 id w₀ hw₀
    · cases hplaced
  | locking r => trivial
  | placing r => trivial
  | updating u => trivial

end QueueCall

/-- The invariant of the calls in flight: one at most holds the lock. -/
def queueInv (site : QueueSite) : CallInv WalkInQueue QueueCall ℕ where
  weight _ := 0
  whole s _ := s.Distinct site
  each s c := (c.holds = true → s.locked = true) ∧ c.Known site s
  pair c d := ¬ (c.holds = true ∧ d.holds = true)
  symm h := fun hboth => h hboth.symm

section Runs

variable {site : QueueSite} {s s' : WalkInQueue}

open WalkInQueue QueueCall

/-- A step that places no entry and leaves the lock to who holds it. -/
theorem queueInv_kept {c c' : Option QueueCall} {m : ℕ} (hwhole : (queueInv site).whole s m)
    (hmoved : s.Moved site s' none)
    (hlock : s'.locked = s.locked ∨ ∃ a ∈ c, a.holds = true)
    (hmine : ∀ a ∈ c', (queueInv site).each s' a)
    (hholds : ∀ a ∈ c', a.holds = true → ∃ b ∈ c, b.holds = true) :
    (queueInv site).Kept s c m s' c' where
  whole := hmoved.distinct hwhole
  mine := hmine
  others d hd hpair := by
    refine ⟨fun hheld => ?_, hd.2.moved hmoved⟩
    rcases hlock with hsame | ⟨a, ha, haheld⟩
    · exact hsame ▸ hd.1 hheld
    · exact absurd ⟨haheld, hheld⟩ (hpair a ha)
  apart d _ hpair a ha hboth := by
    obtain ⟨b, hb, hbheld⟩ := hholds a ha hboth.1
    exact hpair b hb ⟨hbheld, hboth.2⟩

theorem QueueEvent.keeps {e : QueueEvent} {r : WalkInQueue × Option QueueCall}
    (hr : (queueCalls site).event e s = some r) :
    (queueInv site).Keeps s none r ∧ s.Moved site r.1 none := by
  obtain rfl := Option.some.inj hr
  have hbegin : ∀ c : Option QueueCall, (∀ a ∈ c, a.holds = false ∧ a.Known site s) →
      (queueInv site).Keeps s none (s, c) := by
    intro c hc m hwhole _
    refine queueInv_kept hwhole (.of_rows rfl le_rfl) (.inl rfl) (fun a ha => ?_) fun a ha h => ?_
    · refine ⟨fun h => ?_, (hc a ha).2⟩
      rw [(hc a ha).1] at h
      cases h
    · rw [(hc a ha).1] at h
      cases h
  cases e with
  | createWalkIn ctx data =>
    refine ⟨hbegin _ fun a ha => ?_, .of_rows rfl le_rfl⟩
    obtain ⟨-, -, rfl⟩ := Option.map_eq_some_iff.1 ha
    exact ⟨rfl, trivial⟩
  | updateWalkInStatus ctx walkInId status barberId =>
    refine ⟨hbegin _ fun a ha => ?_, .of_rows rfl le_rfl⟩
    obtain ⟨u, -, rfl⟩ := Option.map_eq_some_iff.1 ha
    split
    · exact ⟨rfl, trivial⟩
    · exact ⟨rfl, trivial⟩
  | closeStaleWalkIns =>
    refine ⟨fun m hwhole _ => ?_, closeStaleWalkIns_moved⟩
    exact queueInv_kept hwhole closeStaleWalkIns_moved (.inl rfl) (fun a ha => by cases ha)
      fun a ha => by cases ha
  | pass time =>
    have hmoved : s.Moved site { s with now := s.now + time } none := .of_rows rfl (by simp)
    refine ⟨fun m hwhole _ => ?_, hmoved⟩
    exact queueInv_kept hwhole hmoved (.inl rfl) (fun a ha => by cases ha) fun a ha => by cases ha

theorem QueueCall.keeps {k : QueueChance} {c : QueueCall} {r : WalkInQueue × Option QueueCall}
    (hlands : c.lands k s) (hmine : (queueInv site).each s c)
    (hr : (queueCalls site).step k c s = some r) :
    (queueInv site).Keeps s (some c) r ∧ ∃ placed, s.Moved site r.1 placed := by
  simp only [queueCalls, step] at hr
  split at hr
  · -- the transaction fails
    obtain rfl := Option.some.inj hr
    have hmoved : s.Moved site (c.rollback s) none := .of_rows rfl le_rfl
    refine ⟨fun m hwhole _ => ?_, none, hmoved⟩
    refine queueInv_kept hwhole hmoved ?_ (fun a ha => by cases ha) fun a ha => by cases ha
    by_cases hheld : c.holds = true
    · exact .inr ⟨c, rfl, hheld⟩
    · exact .inl (by simp [rollback, hheld])
  · next q =>
    split at hr
    · cases hr
    · next hfree =>
      obtain rfl := Option.some.inj hr
      have hmoved : s.Moved site { s with locked := true } none := .of_rows rfl le_rfl
      refine ⟨fun m hwhole _ => ?_, none, hmoved⟩
      refine {
        whole := hmoved.distinct hwhole
        mine := ?_
        others := fun d hd _ => ⟨fun _ => rfl, hd.2.moved hmoved⟩
        apart := fun d hd _ a _ hboth => hfree (hd.1 hboth.2) }
      intro a ha
      obtain rfl := Option.some.inj ha
      exact ⟨fun _ => rfl, trivial⟩
  · next q =>
    obtain rfl := Option.some.inj hr
    have hmoved : s.Moved site s none := .of_rows rfl le_rfl
    refine ⟨fun m hwhole _ => ?_, none, hmoved⟩
    refine queueInv_kept hwhole hmoved (.inl rfl) (fun a ha => ?_) fun a ha _ => ⟨_, rfl, rfl⟩
    obtain rfl := Option.some.inj ha
    exact ⟨fun _ => hmine.1 rfl, le_rfl, fun id w hw => lt_nextQueuePosition hw⟩
  · next q day position =>
    obtain rfl := Option.some.inj hr
    have hover : ∀ u, q = .update u → ∀ w ∈ s.walkIns.get? u.walkInId,
        WALK_IN_NEXT w.status = [] → u.status = w.status := by
      intro u hu
      rw [hu] at hlands
      exact hlands
    have hlast : ∀ i w, s.waits (site.queueDayStart s.now) i w → w.queuePosition < position :=
      fun i w hw => hmine.2.2 i w (hw.earlier hmine.2.1)
    obtain ⟨id, hwritten⟩ := write_moved hover hlast
    have hmoved : s.Moved site { q.write site position s with locked := false }
        (some (id, position)) := ⟨hwritten.now, hwritten.waits, hwritten.last, hwritten.stays⟩
    refine ⟨fun m hwhole _ => ?_, _, hmoved⟩
    exact {
      whole := hmoved.distinct hwhole
      mine := fun a ha => by cases ha
      -- the others hold no lock, and so no place
      others := fun d hd hpair => by
        have hfree : ¬ d.holds = true := fun h => hpair _ rfl ⟨rfl, h⟩
        refine ⟨fun h => absurd h hfree, ?_⟩
        cases d with
        | writing r' day' position' => exact absurd rfl hfree
        | locking r' => trivial
        | placing r' => trivial
        | updating u' => trivial
      apart := fun d _ _ a ha => by cases ha }
  · next u =>
    obtain rfl := Option.some.inj hr
    have hmoved : s.Moved site (u.write site none s) none := update_moved
      (fun w hw => (hlands w hw).1) (fun _ w hw => (hlands w hw).2) fun p hp => by cases hp
    refine ⟨fun m hwhole _ => ?_, none, hmoved⟩
    exact queueInv_kept hwhole hmoved (.inl rfl) (fun a ha => by cases ha) fun a ha => by cases ha

/-- One move of a run. -/
theorem queue_move {x x' : Calls WalkInQueue QueueCall} {move : Move QueueEvent QueueChance}
    (h : (queueInv site).Holds x)
    (hmeets : CallSystem.When (fun _ _ => True) (fun k c s => c.lands k s) x move)
    (hmove : (queueCalls site).machine.step x move = some x') :
    (queueInv site).Holds x' ∧ ∃ placed, x.shared.Moved site x'.shared placed := by
  cases move with
  | event e =>
    obtain ⟨s, c, he, rfl⟩ := CallSystem.machine_event.1 hmove
    obtain ⟨hkeeps, hmoved⟩ := QueueEvent.keeps he
    exact ⟨h.begin hkeeps, none, hmoved⟩
  | step i k =>
    obtain ⟨c, s, c', hi, hs, rfl⟩ := CallSystem.machine_step.1 hmove
    obtain ⟨hkeeps, hmoved⟩ := QueueCall.keeps (hmeets c hi) (h.each hi) hs
    exact ⟨h.step hi hkeeps, hmoved⟩

/-- In every run whose writes land: places are distinct, who returns in the next step stands last,
and what is over stays over to the end. -/
theorem walk_in_queue {before after : List (Move QueueEvent QueueChance)}
    {x x' : Calls WalkInQueue QueueCall} (hs : s.Distinct site)
    (hmeets : (queueCalls site).machine.Meets
      (CallSystem.When (fun _ _ => True) fun k c s => c.lands k s) (.idle s) (before ++ after))
    (hrun : (queueCalls site).machine.run (.idle s) before = some x)
    (hrest : (queueCalls site).machine.run x after = some x') :
    x.shared.Distinct site ∧
      (∀ move rest x₁, after = move :: rest → (queueCalls site).machine.step x move = some x₁ →
        x.shared.ReturnsLast site x₁.shared) ∧
      x.shared.StaysOver x'.shared := by
  have hidle : (queueInv site).Holds (.idle s) := CallInv.holds_idle hs
  have hparts := (Machine.meets_append (queueCalls site).machine hrun).1 hmeets
  have hx : (queueInv site).Holds x := (queueCalls site).machine.run_inv_of_meets
    (fun hI hC hstep => (queue_move hI hC hstep).1) hidle hparts.1 hrun
  refine ⟨hx.whole, fun move rest x₁ hafter hstep => ?_, ?_⟩
  · subst hafter
    obtain ⟨placed, hmoved⟩ := (queue_move hx hparts.2.1 hstep).2
    exact hmoved.returnsLast
  · have hend := (queueCalls site).machine.run_inv_of_meets
      (I := fun y => (queueInv site).Holds y ∧ x.shared.StaysOver y.shared) ?_ ⟨hx, .refl _⟩
      hparts.2 hrest
    · exact hend.2
    · intro y move y' hI hC hstep
      obtain ⟨hy', placed, hmoved⟩ := queue_move hI.1 hC hstep
      exact ⟨hy', hI.2.trans hmoved.stays⟩

end Runs

/-! ## Two runs -/

/-- Days of a thousand instants. -/
def openDoor : QueueSite where
  cat := oneProduct
  customerOfNetwork _ := true
  soloBookingAllowed _ := true
  price _ := 50
  durationMinutes _ := none
  queueDayStart now := now / 1000 * 1000
  mono a b hab := by
    have hdiv := Int.ediv_le_ediv (by decide : (0 : ℤ) < 1000) hab
    change a / 1000 * 1000 ≤ b / 1000 * 1000
    omega
  date now := now / 1000

def emptyQueue : WalkInQueue where
  now := 0
  walkIns := .empty
  services := .empty
  history := .empty
  locked := false

theorem emptyQueue_distinct : emptyQueue.Distinct openDoor := by
  rintro i j v w ⟨hget, -⟩
  cases hget

def comesIn : Move QueueEvent QueueChance :=
  .event (.createWalkIn (owner 0) { customerId := none, barberId := none, services := [] })

def moveTo (id : ℕ) (status : WalkInStatus) : Move QueueEvent QueueChance :=
  .event (.updateWalkInStatus (owner 0) id (some status) none)

def stepsOf (i n : ℕ) : List (Move QueueEvent QueueChance) := List.replicate n (.step i .goesOn)

/-- Two come in, the first is called and about to be sent back. -/
def sentBack : List (Move QueueEvent QueueChance) :=
  comesIn :: stepsOf 1 3 ++ comesIn :: stepsOf 2 3 ++ moveTo 1 .inProgress :: stepsOf 3 1 ++
    moveTo 1 .waiting :: stepsOf 4 2

/-- The first is sent back, and called again once the second is through. -/
def calledAgain : List (Move QueueEvent QueueChance) :=
  .step 4 .goesOn :: moveTo 2 .inProgress :: stepsOf 5 1 ++ moveTo 2 .completed :: stepsOf 6 1 ++
    moveTo 1 .inProgress :: stepsOf 7 1

theorem sentBack_last : ∃ x x₁ x',
    (queueCalls openDoor).machine.run (.idle emptyQueue) sentBack = some x ∧
      (queueCalls openDoor).machine.step x (.step 4 .goesOn) = some x₁ ∧
      (queueCalls openDoor).machine.run x calledAgain = some x' ∧
      (x₁.shared.walkIns.get? 1).map WalkIn.queuePosition = some 3 ∧
      x.shared.Distinct openDoor ∧ x.shared.ReturnsLast openDoor x₁.shared ∧
      x.shared.StaysOver x'.shared := by
  have hmeets : (queueCalls openDoor).machine.Meets
      (CallSystem.When (fun _ _ => True) fun k c s => c.lands k s) (.idle emptyQueue)
      (sentBack ++ calledAgain) := by
    decide +kernel
  have hsome : ((queueCalls openDoor).machine.run (.idle emptyQueue) sentBack).any (fun x =>
      ((queueCalls openDoor).machine.step x (.step 4 .goesOn)).any (fun x₁ =>
        (x₁.shared.walkIns.get? 1).map WalkIn.queuePosition == some 3) &&
      ((queueCalls openDoor).machine.run x calledAgain).isSome) = true := by
    decide +kernel
  obtain ⟨x, hrun, hx⟩ := (Option.any_eq_true _ _).1 hsome
  rw [Bool.and_eq_true, Option.any_eq_true, Option.isSome_iff_exists] at hx
  obtain ⟨⟨x₁, hstep, hposition⟩, x', hrest⟩ := hx
  obtain ⟨hdistinct, hreturns, hover⟩ := walk_in_queue emptyQueue_distinct hmeets hrun hrest
  exact ⟨x, x₁, x', hrun, hstep, hrest, beq_iff_eq.1 hposition, hdistinct,
    hreturns _ _ x₁ rfl hstep, hover⟩

/-- A second click on "waiting" commits after the entry was called and completed, and after another
one came in. -/
def clickedTwice : List (Move QueueEvent QueueChance) :=
  comesIn :: stepsOf 1 3 ++ moveTo 1 .waiting :: moveTo 1 .inProgress :: stepsOf 3 1 ++
    moveTo 1 .completed :: stepsOf 4 1 ++ comesIn :: stepsOf 5 3

theorem clickedTwice_back : emptyQueue.Distinct openDoor ∧ ∃ x x₁,
    (queueCalls openDoor).machine.run (.idle emptyQueue) clickedTwice = some x ∧
      (queueCalls openDoor).machine.step x (.step 2 .goesOn) = some x₁ ∧
      ¬ x₁.shared.Distinct openDoor ∧ ¬ x.shared.ReturnsLast openDoor x₁.shared ∧
      ¬ x.shared.StaysOver x₁.shared := by
  have hsome : ((queueCalls openDoor).machine.run (.idle emptyQueue) clickedTwice).any (fun x =>
      (x.shared.walkIns.get? 1).any (fun w => w.status == .completed) &&
      ((queueCalls openDoor).machine.step x (.step 2 .goesOn)).any fun x₁ =>
        x₁.shared.now == 0 &&
        (x₁.shared.walkIns.get? 1).any (fun w =>
          w.status == .waiting && w.createdAt == 0 && w.queuePosition == 1) &&
        (x₁.shared.walkIns.get? 2).any fun w =>
          w.status == .waiting && w.createdAt == 0 && w.queuePosition == 1) = true := by
    decide +kernel
  obtain ⟨x, hrun, hx⟩ := (Option.any_eq_true _ _).1 hsome
  simp only [Bool.and_eq_true, Option.any_eq_true, beq_iff_eq] at hx
  obtain ⟨⟨w, hw, hcompleted⟩, x₁, hstep, ⟨hnow, w₁, hw₁, ⟨hwaits₁, hcreated₁⟩, hplace₁⟩,
    w₂, hw₂, ⟨hwaits₂, hcreated₂⟩, hplace₂⟩ := hx
  have hday : openDoor.queueDayStart x₁.shared.now = 0 := by
    rw [hnow]
    rfl
  have hfirst : x₁.shared.waits (openDoor.queueDayStart x₁.shared.now) 1 w₁ :=
    ⟨hw₁, hwaits₁, by rw [hday, hcreated₁]⟩
  have hsecond : x₁.shared.waits (openDoor.queueDayStart x₁.shared.now) 2 w₂ :=
    ⟨hw₂, hwaits₂, by rw [hday, hcreated₂]⟩
  refine ⟨emptyQueue_distinct, x, x₁, hrun, hstep, fun h => ?_, fun h => ?_, fun h => ?_⟩
  · have heq := h 1 2 w₁ w₂ hfirst hsecond (by rw [hplace₁, hplace₂])
    omega
  · have hlt := h 1 w w₁ hw (by simp [hcompleted]) hw₁ hwaits₁ 2 w₂ (by decide) hsecond
    omega
  · obtain ⟨w', hw', hstatus⟩ := h 1 w hw (by rw [hcompleted]; rfl)
    obtain rfl := Option.some.inj (hw₁.symm.trans hw')
    rw [hwaits₁, hcompleted] at hstatus
    cases hstatus

end Barbershop
