import Barbershop.Payroll.Tips

/-!
# Editing an appointment

`updateAppointment` on the row of one appointment: what refuses the edit and what it writes. What
the request asks of other tables is given as `UpdateAnswers`, refusals included; the resulting row
is `AppointmentChange.write`.

`updateAppointment_ok` is the step lemma: whose record, professional and link version the row has
after an edit that was not refused.
-/

namespace Barbershop

open Lib

structure AppointmentChange where
  customerId : Option ℕ
  barberId : Option ℕ
  resourceId : Option ℕ
  startAt : Option ℤ
  endAt : Option ℤ
  status : Option AppointmentStatus

/-- What other tables, and Stripe, answer while the request runs. -/
structure UpdateAnswers where
  ensureCustomerOfNetwork : Result Unit
  hasSale : Bool
  ensureBarberOfBarbershop : Result Unit
  ensureTipsCanMove : Result Unit
  ensureResourceOfBarbershop : Result Unit
  /-- The new start is in the month of the old one. -/
  sameShopMonth : Bool
  assertSoloBookingAllowed : Result Unit
  /-- When the deposit of a reservation turns out to be paid. -/
  depositPaidAt : Option ℤ
  /-- `ensureBarberAvailable` and `ensureResourceAvailable` -/
  ensureAvailable : Result Unit

/-- A check that is made only in some case. -/
def checkIf (p : Prop) [Decidable p] (check : Result Unit) : Result Unit := if p then check else .ok ()

namespace AppointmentChange

variable (data : AppointmentChange) (a : Appointment)

def changesCustomer : Bool := data.customerId.any (· ≠ a.customerId)

def changesBarber : Bool := data.barberId.any (· ≠ a.barberId)

def changesStatus : Bool := data.status.any (· ≠ a.status)

def newStart : ℤ := data.startAt.getD a.startAt

/-- A new start alone keeps the duration. -/
def newEnd : ℤ :=
  match data.startAt, data.endAt with
  | some start, none => start + (a.endAt - a.startAt)
  | _, endAt => endAt.getD a.endAt

/-- A reservation that waits for its deposit is settled first. -/
def settles : Bool := a.status = .pendingPayment && data.changesStatus a

/-- The row after the deposit is settled: a deposit that was paid in the meantime stands. -/
def settled (ans : UpdateAnswers) : Appointment :=
  if data.settles a then
    match ans.depositPaidAt with
    | some paidAt =>
      { a with
        status := .confirmed
        depositPaid := true
        depositPaidAt := some paidAt
        holdExpiresAt := none }
    | none => a
  else a

/-- The link version goes up by 2 with another customer, by 1 when the unit cancels. -/
def bump (row : Appointment) : ℕ :=
  if data.changesCustomer a then 2
  else if data.status = some .cancelled ∧ row.status ≠ .cancelled then 1
  else 0

def write (ans : UpdateAnswers) : Appointment :=
  let row := data.settled a ans
  { row with
    customerId := data.customerId.getD row.customerId
    barberId := data.barberId.getD row.barberId
    resourceId := data.resourceId.or row.resourceId
    startAt := data.startAt.getD row.startAt
    endAt := if data.startAt.isSome then data.newEnd a else data.endAt.getD row.endAt
    status := data.status.getD row.status
    holdExpiresAt := if data.settles a then none else row.holdExpiresAt
    linkVersion := row.linkVersion + data.bump a row }

end AppointmentChange

def updateAppointmentChecks (ctx : Caller) (data : AppointmentChange) (ans : UpdateAnswers)
    (a : Appointment) : Result Unit := do
  ctx.ensureBarbershopAccess .basic
  refuseIf (a.barbershopId ≠ ctx.shop.id) (.notFound "Agendamento não encontrado")
  refuseIf (ctx.ownBarberId.any (· ≠ a.barberId)) (.notFound "Agendamento não encontrado")
  refuseIf (ctx.ownBarberId.any fun own => data.barberId.any (· ≠ own))
    (.forbidden "Seu cargo só permite mexer na sua própria agenda.")
  checkIf (data.customerId.isSome) ans.ensureCustomerOfNetwork
  refuseIf (data.changesCustomer a ∧
      (a.depositPaidAt.isSome ∨ a.prepaidAt.isSome ∨ ans.hasSale = true)) (.badRequest
    "Não dá para trocar o cliente deste horário: ele tem venda, sinal pago online ou foi pago pelo app.")
  checkIf (data.changesBarber a) ans.ensureBarberOfBarbershop
  checkIf (data.changesBarber a) ans.ensureTipsCanMove
  checkIf (data.resourceId.isSome) ans.ensureResourceOfBarbershop
  refuseIf (data.changesStatus a ∧ data.status.any (fun status => !status.staff) = true)
    (.badRequest "Situação do agendamento inválida")
  refuseIf (data.newEnd a ≤ data.newStart a) (.badRequest "O fim tem que ser depois do início")
  checkIf (a.source ≠ .history ∧ ans.sameShopMonth = false) ans.assertSoloBookingAllowed
  checkIf (data.changesStatus a)
    (assertStatusFitsTime (data.status.getD a.status) (data.newStart a) ctx.now)
  refuseIf (data.changesStatus a ∧ (data.status = some .cancelled ∨ data.status = some .noShow) ∧
      ans.hasSale = true)
    (.badRequest "Apague ou estorne a venda antes de mudar a situação deste horário.")
  let row := data.settled a ans
  checkIf (data.status.getD row.status ≠ .cancelled ∧ data.status.getD row.status ≠ .noShow)
    ans.ensureAvailable

/-- The row of the appointment after the request. -/
def updateAppointment (ctx : Caller) (data : AppointmentChange) (ans : UpdateAnswers)
    (a : Appointment) : Result Appointment := do
  updateAppointmentChecks ctx data ans a
  return data.write a ans

/-! ## What an edit does -/

namespace AppointmentChange

variable (data : AppointmentChange) (a : Appointment) (ans : UpdateAnswers)

@[simp] theorem settled_customerId : (data.settled a ans).customerId = a.customerId := by
  unfold settled
  split
  · split <;> rfl
  · rfl

@[simp] theorem settled_linkVersion : (data.settled a ans).linkVersion = a.linkVersion := by
  unfold settled
  split
  · split <;> rfl
  · rfl

@[simp] theorem settled_barbershopId : (data.settled a ans).barbershopId = a.barbershopId := by
  unfold settled
  split
  · split <;> rfl
  · rfl

@[simp] theorem settled_barberId : (data.settled a ans).barberId = a.barberId := by
  unfold settled
  split
  · split <;> rfl
  · rfl

theorem write_barberId : (data.write a ans).barberId = data.barberId.getD a.barberId := by
  simp [write]

theorem write_barberId_of_same (h : data.changesBarber a = false) :
    (data.write a ans).barberId = a.barberId := by
  rw [write_barberId]
  unfold changesBarber at h
  cases hb : data.barberId with
  | none => rfl
  | some id =>
    rw [hb] at h
    simpa using h

theorem write_customerId : (data.write a ans).customerId = data.customerId.getD a.customerId := by
  simp [write]

@[simp] theorem write_barbershopId : (data.write a ans).barbershopId = a.barbershopId := by
  simp [write]

theorem changesCustomer_iff :
    data.changesCustomer a = true ↔ (data.write a ans).customerId ≠ a.customerId := by
  rw [write_customerId, changesCustomer]
  cases data.customerId <;> simp

/-- The version never goes down. -/
theorem le_write_linkVersion : a.linkVersion ≤ (data.write a ans).linkVersion := by
  simp [write]

/-- With another customer it goes up by two. -/
theorem write_linkVersion (h : (data.write a ans).customerId ≠ a.customerId) :
    (data.write a ans).linkVersion = a.linkVersion + 2 := by
  have hchanges := (data.changesCustomer_iff a ans).2 h
  simp [write, bump, hchanges]

end AppointmentChange

@[simp] theorem checkIf_eq_ok {p : Prop} [Decidable p] {check : Result Unit} {u : Unit} :
    checkIf p check = .ok u ↔ (p → check = .ok ()) := by
  unfold checkIf
  split <;> simp [*]

/-- What the checks say about the unit and a new professional. -/
theorem updateAppointmentChecks_ok {ctx : Caller} {data : AppointmentChange} {ans : UpdateAnswers}
    {a : Appointment} (h : updateAppointmentChecks ctx data ans a = .ok ()) :
    a.barbershopId = ctx.shop.id ∧
      (data.changesBarber a = true → ans.ensureBarberOfBarbershop = .ok ()) := by
  simp only [updateAppointmentChecks, bind_eq_ok, refuseIf_eq_ok, checkIf_eq_ok, exists_punit,
    not_not] at h
  obtain ⟨-, hunit, -, -, -, -, hbarber, -⟩ := h
  exact ⟨hunit, hbarber⟩

/-- What an edit that is not refused writes. -/
theorem updateAppointment_ok {ctx : Caller} {data : AppointmentChange} {ans : UpdateAnswers}
    {a a' : Appointment} (h : updateAppointment ctx data ans a = .ok a') :
    updateAppointmentChecks ctx data ans a = .ok () ∧ a' = data.write a ans := by
  unfold updateAppointment at h
  obtain ⟨u, hchecks, hwrite⟩ := bind_eq_ok.1 h
  exact ⟨hchecks, (pure_eq_ok.1 hwrite).symm⟩

/-! ## An edit to run it on -/

/-- The other tables refuse nothing. -/
def noObjection : UpdateAnswers where
  ensureCustomerOfNetwork := .ok ()
  hasSale := false
  ensureBarberOfBarbershop := .ok ()
  ensureTipsCanMove := .ok ()
  ensureResourceOfBarbershop := .ok ()
  sameShopMonth := true
  assertSoloBookingAllowed := .ok ()
  depositPaidAt := none
  ensureAvailable := .ok ()

def toCustomer (customerId : ℕ) : AppointmentChange where
  customerId := some customerId
  barberId := none
  resourceId := none
  startAt := none
  endAt := none
  status := none

end Barbershop
