import Barbershop.Payment.Refund

/-!
# Billing an appointment

`createSale` as a call beside others: it reads the appointment, cancels a payment by app that was
begun and not concluded, makes the rest of its checks, and commits. What the deposit and the
prepayment cover is decided on the appointment as it was read.
-/

namespace Barbershop

open Lib

/-- A call of `createSale` as it begins; `reads` is what its reads see, but for the appointment,
which it reads as a step of its own. -/
structure SaleCall where
  cat : Catalog
  ctx : Caller
  data : SaleInput
  reads : SaleRead → Db

namespace SaleCall

/-- What the reads see once the appointment was read from `seen`. -/
def readsFrom (c : SaleCall) (seen : Db) (r : SaleRead) : Db :=
  if r = .appointment then seen else c.reads r

/-- The checks `createSale` makes before it reads the appointment. -/
def checkFirst (c : SaleCall) : Result Unit := do
  let shop := c.ctx.shop
  refuseIf ((∃ i ∈ c.data.items, i.itemType = .product ∨ i.productId.isSome) ∧
    shop.modules .products = false) (.forbidden
    "Este recurso não está disponível no seu plano atual. Faça upgrade para acessá-lo.")
  checkSaleAmounts c.data.subtotal c.data.discountAmount c.data.taxAmount c.data.total
    c.data.loyaltyPointsRedeemed c.data.items shop.moneyCap
  checkSaleKinds c.data.saleType c.data.items (c.data.paymentStatus.getD .pending)
    c.data.paymentMethod none
  refuseIf (∃ own ∈ c.ctx.ownBarberId, ∃ b ∈ c.data.barberId, b ≠ own)
    (.forbidden "Você só registra vendas suas.")
  let _ ← ifGiven c.data.customerId fun id =>
    ensureCustomerOfNetwork shop.networkId id (c.reads .customer)
  let _ ← ifGiven (c.ctx.ownBarberId <|> c.data.barberId) fun b =>
    ensureBarberOfBarbershop c.cat shop.id b c.data.appointmentId.isNone
  return ()

/-- The begun payment by app that the call cancels, once it has found the appointment billable. -/
def openPayment (c : SaleCall) (db : Db) : Option String :=
  match c.checkFirst, c.data.appointmentId with
  | .ok (), some id => match billAppointment c.ctx c.data.customerId id db with
    | .ok appt => if appt.prepaidAt.isNone then appt.prepaidPaymentIntentId else none
    | .error _ => none
  | _, _ => none

end SaleCall

/-- Where a call of `createSale` is. -/
inductive Billing where
  | reading (c : SaleCall)
  | canceling (c : SaleCall) (seen : Db) (intentId : String)
  | checking (c : SaleCall) (seen : Db)
  | committing (c : SaleCall) (seen : Db) (plan : SalePlan)

namespace Billing

def step (b : Billing) (s : Payments) : Payments × Progress Billing (Result Unit) :=
  match b with
  | reading c => match c.openPayment s.db with
    | none => (s, .next (checking c s.db))
    | some intentId => (s, .next (canceling c s.db intentId))
  | canceling c seen intentId =>
    ({ s with stripe := (s.stripe.cancelPaymentIntent intentId).getD s.stripe },
      .next (checking c seen))
  | checking c seen => match prepareSale c.cat c.ctx c.data (c.readsFrom seen) with
    | .error e => (s, .done (.error e))
    | .ok plan => (s, .next (committing c seen plan))
  | committing c _ plan => match commitSale c.cat c.ctx plan s.db with
    | .error e => (s, .done (.error e))
    | .ok db => ({ s with db := db }, .done (.ok ()))

end Billing

/-- A plan takes off no more than the appointment it read had paid. -/
structure SalePlan.From (plan : SalePlan) (seen : Db) : Prop where
  none_applied : plan.data.appointmentId = none →
    plan.charge.depositApplied ≤ 0 ∧ plan.charge.prepaidApplied ≤ 0
  covered : ∀ id, plan.data.appointmentId = some id → ∃ a, seen.appointments.get? id = some a ∧
    plan.charge.depositApplied ≤ a.deposit ∧ plan.charge.prepaidApplied ≤ a.prepaid

theorem chargeSale_applied {network : Network} {total deposit prepaid : ℚ} {card : Option ℚ}
    {requested : ℤ} {c : Charge}
    (h : chargeSale network total deposit prepaid card requested = .ok c) :
    c.depositApplied ≤ deposit ∧ c.prepaidApplied ≤ prepaid := by
  simp only [chargeSale, bind_eq_ok, exists_punit, refuseIf_eq_ok, pure_eq_ok] at h
  obtain ⟨-, rfl⟩ := h
  exact ⟨min_le_left .., min_le_left ..⟩

theorem billAppointment_ok {ctx : Caller} {customerId : Option ℕ} {id : ℕ} {db : Db}
    {a : Appointment} (h : billAppointment ctx customerId id db = .ok a) :
    db.appointments.get? id = some a ∧ db.billed id = false ∧ a.billable = true := by
  simp only [billAppointment, bind_eq_ok, exists_punit, orRefuse_eq_ok, refuseIf_eq_ok, pure_eq_ok,
    Option.filter_eq_some_iff] at h
  obtain ⟨a, ⟨ha, -⟩, -, hsale, hbillable, -, rfl⟩ := h
  exact ⟨ha, by simpa [Db.billed] using hsale, by simpa using hbillable⟩

theorem prepareSale_from {cat : Catalog} {ctx : Caller} {data : SaleInput} {reads : SaleRead → Db}
    {plan : SalePlan} (h : prepareSale cat ctx data reads = .ok plan) :
    plan.From (reads .appointment) := by
  simp only [prepareSale, bind_eq_ok, exists_punit, pure_eq_ok] at h
  obtain ⟨_, _, _, _, _, _, _, _, appt, happt, _, _, _, _, club, _, package, _, _, card, _, _, charge,
    hcharge, rfl⟩ := h
  have hle := chargeSale_applied hcharge
  constructor
  · intro hnone
    rcases ifGiven_eq_ok.1 happt with ⟨-, rfl⟩ | ⟨id, a, hid, -, -⟩
    · exact hle
    · cases hnone.symm.trans hid
  · intro id hid
    rcases ifGiven_eq_ok.1 happt with ⟨hnone, -⟩ | ⟨id', a, hid', ha, rfl⟩
    · cases hnone.symm.trans hid
    · obtain rfl : id' = id := Option.some.inj (hid'.symm.trans hid)
      exact ⟨a, (billAppointment_ok ha).1, hle⟩

/-- What a committed sale does to the appointments: it may complete the one it bills. -/
theorem SalePlan.completeAppointment_get? (plan : SalePlan) (now : ℤ) (t : Table Appointment)
    (id : ℕ) : (plan.completeAppointment now t).get? id = t.get? id ∨ ∃ a, t.get? id = some a ∧
      (plan.completeAppointment now t).get? id = some { a with status := .completed } ∧
      plan.data.appointmentId = some id ∧ (a.status = .confirmed ∨ a.status = .inProgress) := by
  unfold completeAppointment
  split
  · exact .inl rfl
  · next id' hid =>
    by_cases e : id = id'
    · subst e
      rw [Table.get?_modify_self]
      cases ha : t.get? id with
      | none => exact .inl rfl
      | some a =>
        by_cases hdone : (a.status = .confirmed ∨ a.status = .inProgress) ∧ a.startAt ≤ now
        · exact .inr ⟨a, rfl, by simp [hdone], hid, hdone.1⟩
        · exact .inl (by simp [hdone])
    · exact .inl (Table.get?_modify_of_ne _ _ e)

/-- What a commit does, as far as its appointment and the sales go. -/
theorem commitSale_frame {cat : Catalog} {ctx : Caller} {plan : SalePlan} {db db' : Db}
    (h : commitSale cat ctx plan db = .ok db') :
    db'.sales = db.sales.insert (plan.sale ctx) ∧
      db'.appointments = plan.completeAppointment ctx.now db.appointments ∧
      ∀ id, plan.data.appointmentId = some id → db.billed id = false := by
  obtain ⟨_, _, _, _, -, -, -, -, rfl⟩ := commitSale_ok h
  refine ⟨rfl, rfl, ?_⟩
  intro id hid
  simp only [commitSale, bind_eq_ok, exists_punit, refuseIf_eq_ok, hid] at h
  simpa [Db.billed] using h.1

end Barbershop
