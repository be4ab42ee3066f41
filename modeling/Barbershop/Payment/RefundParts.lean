import Barbershop.Payment.Refund

/-!
# A prepayment given back in parts

Calls of `refundPrepayment` on one appointment that succeed, one after the other. Each part is
rounded to the cent and sent to Stripe in minor units of the currency; the row records the sum of the
parts. Where the minor unit is the cent, nothing is rounded twice. A currency without decimals rounds
each part once more, and what was sent is what the row records as long as what the roundings leave
stays within half a unit.
-/

namespace Barbershop

open Lib

/-! ## The calls -/

structure RefundsSent where
  db : Db
  /-- The last first. -/
  sent : List RefundRequest

/-- A call and the instant of its claim. -/
structure RefundCall where
  amount : Option ℚ
  now : ℤ

/-- `refundPrepayment` where nothing comes between and Stripe accepts. -/
def refundParts (currency : String) (appointmentId : ℕ) : Machine RefundsSent RefundCall where
  step s call :=
    match PrepaymentRefund.read appointmentId call.amount s.db with
    | .ok (some c) => (PrepaymentRefund.claim appointmentId c call.now s.db).map fun db =>
      ⟨db, PrepaymentRefund.request currency c :: s.sent⟩
    | _ => none

/-- What was sent to Stripe, in minor units. -/
def RefundsSent.total (s : RefundsSent) : ℤ := (s.sent.map fun r => r.amount.getD 0).sum

/-- What was sent is what the row records, and no more than was paid. -/
structure RefundsSent.Exact (currency : String) (appointmentId : ℕ) (s : RefundsSent) : Prop where
  recorded : ∀ a, s.db.appointments.get? appointmentId = some a →
    s.total = toMinorUnits a.refunded currency
  within : ∀ a, s.db.appointments.get? appointmentId = some a →
    s.total ≤ toMinorUnits (a.prepaidAmount.getD 0) currency

/-! ## Two roundings -/

/-- What the rounding to minor units leaves of an amount, in minor units. -/
def leftover (currency : String) (v : ℚ) : ℚ :=
  v * minorUnitFactor currency - toMinorUnits v currency

/-- What is left of two amounts stays within half a unit. -/
def RoundTogether (currency : String) (v w : ℚ) : Prop :=
  -(1 / 2) ≤ leftover currency v + leftover currency w ∧
    leftover currency v + leftover currency w < 1 / 2

instance (currency : String) (v w : ℚ) : Decidable (RoundTogether currency v w) :=
  inferInstanceAs (Decidable (_ ∧ _))

section Rounding

variable {currency : String} {v w : ℚ}

theorem roundHalfUp_eq_iff {x : ℚ} {n : ℤ} : roundHalfUp x = n ↔ n - 1 / 2 ≤ x ∧ x < n + 1 / 2 := by
  rw [roundHalfUp, Int.floor_eq_iff]
  constructor
  · rintro ⟨hle, hlt⟩
    constructor <;> linarith
  · rintro ⟨hle, hlt⟩
    constructor <;> linarith

theorem toMinorUnits_mono (h : v ≤ w) : toMinorUnits v currency ≤ toMinorUnits w currency := by
  have hpos : (0 : ℚ) ≤ minorUnitFactor currency := by exact_mod_cast (minorUnitFactor_pos currency).le
  exact roundHalfUp_mono (mul_le_mul_of_nonneg_right h hpos)

/-- Two amounts are rounded alike apart and together exactly when what is left stays within half a
unit. -/
theorem toMinorUnits_add_iff :
    toMinorUnits (v + w) currency = toMinorUnits v currency + toMinorUnits w currency ↔
      RoundTogether currency v w := by
  rw [toMinorUnits, roundHalfUp_eq_iff, RoundTogether, leftover, leftover, add_mul]
  push_cast
  constructor
  · rintro ⟨hle, hlt⟩
    constructor <;> linarith
  · rintro ⟨hle, hlt⟩
    constructor <;> linarith

end Rounding

/-! ## A call -/

/-- What a call gives back: the amount that it names, or what is left. -/
def Appointment.part (a : Appointment) (amount : Option ℚ) : ℚ :=
  amount.elim (round2 (a.prepaidAmount.getD 0 - a.refunded)) round2

/-- What is left of the part and of what was given back before stays within half a unit. -/
def RefundCall.roundsTogether (currency : String) (appointmentId : ℕ) (s : RefundsSent)
    (call : RefundCall) : Prop :=
  ∀ a ∈ s.db.appointments.get? appointmentId,
    RoundTogether currency a.refunded (a.part call.amount)

instance (currency : String) (appointmentId : ℕ) (s : RefundsSent) (call : RefundCall) :
    Decidable (call.roundsTogether currency appointmentId s) :=
  inferInstanceAs (Decidable (∀ a ∈ _, _))

/-- The row of an appointment that was paid by app. -/
structure Appointment.GivesBack (a : Appointment) : Prop where
  paid : IsCents (a.prepaidAmount.getD 0)
  refunded : IsCents a.refunded
  le : a.refunded ≤ a.prepaidAmount.getD 0

section Calls

variable {currency : String} {appointmentId : ℕ} {s s' : RefundsSent} {call : RefundCall}

theorem part_isCents (a : Appointment) (amount : Option ℚ) : IsCents (a.part amount) := by
  cases amount with
  | none => exact isCents_round2 _
  | some v => exact isCents_round2 _

/-- What a call plans for a row in whole cents. -/
theorem plan_part {a : Appointment} {amount : Option ℚ} {intentId : String} {c : PrepaymentClaim}
    (hgives : a.GivesBack) (h : PrepaymentRefund.plan amount a intentId = .ok (some c)) :
    c.value = a.part amount ∧ c.after = a.refunded + a.part amount ∧
      c.after ≤ a.prepaidAmount.getD 0 := by
  simp only [PrepaymentRefund.plan] at h
  split at h
  · cases h
  simp only [bind_eq_ok, exists_punit, refuseIf_eq_ok, pure_eq_ok, Option.some.injEq] at h
  obtain ⟨hrange, rfl⟩ := h
  push Not at hrange
  have hafter : round2 (a.refunded + a.part amount) = a.refunded + a.part amount :=
    (hgives.refunded.add (part_isCents a amount)).round2_eq
  have hle : a.part amount ≤ a.prepaidAmount.getD 0 - a.refunded := by
    have hrest := (hgives.paid.sub hgives.refunded).round2_eq
    exact hrest ▸ hrange.2
  refine ⟨rfl, hafter, ?_⟩
  change round2 (a.refunded + a.part amount) ≤ _
  rw [hafter]
  linarith

/-- What a call that succeeds does. -/
theorem refundParts_step {a : Appointment} (hget : s.db.appointments.get? appointmentId = some a)
    (hgives : a.GivesBack) (h : (refundParts currency appointmentId).step s call = some s') :
    s'.total = toMinorUnits (a.part call.amount) currency + s.total ∧
      ∃ a', s'.db.appointments.get? appointmentId = some a' ∧
        a'.prepaidAmount = a.prepaidAmount ∧ a'.refunded = a.refunded + a.part call.amount ∧
        a'.GivesBack := by
  simp only [refundParts] at h
  split at h
  swap
  · cases h
  next c hread =>
  obtain ⟨db, hclaim, rfl⟩ := Option.map_eq_some_iff.1 h
  obtain ⟨a₀, intentId, hget₀, -, -, -, -, hplan⟩ := PrepaymentRefund.read_ok hread
  obtain rfl : a₀ = a := Option.some.inj (hget₀.symm.trans hget)
  obtain ⟨a₁, hget₁, -, hget', -⟩ := Db.updateAppointmentWhere_some hclaim
  obtain rfl : a₁ = a₀ := Option.some.inj (hget₁.symm.trans hget)
  obtain ⟨hvalue, hafter, hle⟩ := plan_part hgives hplan
  refine ⟨?_, _, hget', rfl, hafter, ⟨hgives.paid, ?_, hle⟩⟩
  · simp [RefundsSent.total, PrepaymentRefund.request, hvalue]
  · change IsCents c.after
    rw [hafter]
    exact hgives.refunded.add (part_isCents _ _)

/-- What was sent stays what the row records exactly when the part and what was given back before
round together. -/
theorem exact_step_iff (hgives : ∃ a, s.db.appointments.get? appointmentId = some a ∧ a.GivesBack)
    (hexact : s.Exact currency appointmentId)
    (h : (refundParts currency appointmentId).step s call = some s') :
    s'.Exact currency appointmentId ↔ call.roundsTogether currency appointmentId s := by
  obtain ⟨a, hget, hgives⟩ := hgives
  obtain ⟨htotal, a', hget', hpaid, hrefunded, hgives'⟩ := refundParts_step hget hgives h
  have hstep : s'.total = toMinorUnits a'.refunded currency ↔
      RoundTogether currency a.refunded (a.part call.amount) := by
    rw [← toMinorUnits_add_iff, htotal, hexact.recorded a hget, hrefunded]
    constructor
    · intro hsum
      omega
    · intro hsum
      omega
  constructor
  · intro hexact' b hb
    obtain rfl := Option.some.inj (hget.symm.trans hb)
    exact hstep.1 (hexact'.recorded a' hget')
  · intro htogether
    have hrecorded := hstep.2 (htogether a hget)
    refine ⟨?_, ?_⟩
    · intro b hb
      obtain rfl := Option.some.inj (hget'.symm.trans hb)
      exact hrecorded
    · intro b hb
      obtain rfl := Option.some.inj (hget'.symm.trans hb)
      rw [hrecorded]
      exact toMinorUnits_mono hgives'.le

end Calls

/-! ## Runs -/

/-- An appointment that was paid by app, in whole cents, and of which nothing was given back. -/
structure RefundsSent.Paid (appointmentId : ℕ) (s : RefundsSent) : Prop where
  sent : s.sent = []
  row : ∃ a, s.db.appointments.get? appointmentId = some a ∧ a.prepaidRefundedAmount = none ∧
    IsCents (a.prepaidAmount.getD 0) ∧ 0 ≤ a.prepaidAmount.getD 0

section Runs

variable {currency : String} {appointmentId : ℕ} {s s' : RefundsSent} {calls : List RefundCall}

theorem RefundsSent.Paid.start (currency : String) (h : s.Paid appointmentId) :
    (∃ a, s.db.appointments.get? appointmentId = some a ∧ a.GivesBack) ∧
      s.Exact currency appointmentId := by
  obtain ⟨hsent, a, hget, hnone, hcents, hpos⟩ := h
  have hzero : a.refunded = 0 := by rw [Appointment.refunded, hnone, Option.getD_none]
  have htotal : s.total = 0 := by rw [RefundsSent.total, hsent, List.map_nil, List.sum_nil]
  have hminor : toMinorUnits 0 currency = 0 := by
    rw [toMinorUnits, zero_mul]
    exact_mod_cast roundHalfUp_intCast 0
  refine ⟨⟨a, hget, hcents, hzero ▸ isCents_zero, hzero ▸ hpos⟩, ?_, ?_⟩
  · intro b hb
    obtain rfl := Option.some.inj (hget.symm.trans hb)
    rw [htotal, hzero, hminor]
  · intro b hb
    obtain rfl := Option.some.inj (hget.symm.trans hb)
    rw [htotal, ← hminor]
    exact toMinorUnits_mono hpos

theorem givesBack_step {call : RefundCall}
    (hgives : ∃ a, s.db.appointments.get? appointmentId = some a ∧ a.GivesBack)
    (h : (refundParts currency appointmentId).step s call = some s') :
    ∃ a, s'.db.appointments.get? appointmentId = some a ∧ a.GivesBack := by
  obtain ⟨a, hget, hgives⟩ := hgives
  obtain ⟨-, a', hget', -, -, hgives'⟩ := refundParts_step hget hgives h
  exact ⟨a', hget', hgives'⟩

theorem refund_parts_exact_iff (hpaid : s.Paid appointmentId)
    (hrun : (refundParts currency appointmentId).run s calls = some s') :
    (refundParts currency appointmentId).Always (·.Exact currency appointmentId) s calls ↔
      (refundParts currency appointmentId).Meets
        (fun s call => call.roundsTogether currency appointmentId s) s calls := by
  obtain ⟨hgives, hexact⟩ := hpaid.start currency
  exact Machine.always_iff_meets _ givesBack_step exact_step_iff hgives hexact hrun

end Runs

/-- The visit with so much paid by app. -/
def visitPaid (amount : ℚ) : RefundsSent where
  db := { Db.empty with appointments := Table.empty.insert { visit with
    prepaidPaymentIntentId := some "pi_1"
    prepaidAt := some 0
    prepaidAmount := some amount } }
  sent := []

theorem visitPaid_paid {amount : ℚ} (hcents : IsCents amount) (hpos : 0 ≤ amount) :
    (visitPaid amount).Paid 1 :=
  ⟨rfl, _, rfl, rfl, hcents, hpos⟩

/-- Three hundred of a thousand yen, and then what is left. -/
theorem refund_parts_yen : ∃ s,
    (refundParts "JPY" 1).run (visitPaid 1000) [⟨some 300, 1⟩, ⟨none, 2⟩] = some s ∧
    s.total = 1000 ∧ s.Exact "JPY" 1 := by
  have hmeets : (refundParts "JPY" 1).Meets (fun s call => call.roundsTogether "JPY" 1 s)
      (visitPaid 1000) [⟨some 300, 1⟩, ⟨none, 2⟩] := by
    decide +kernel
  have hsome : ((refundParts "JPY" 1).run (visitPaid 1000) [⟨some 300, 1⟩, ⟨none, 2⟩]).any
      (·.total == 1000) = true := by
    decide +kernel
  obtain ⟨s, hrun, htotal⟩ := (Option.any_eq_true _ _).1 hsome
  have hpaid : (visitPaid 1000).Paid 1 := visitPaid_paid (by decide +kernel) (by decide +kernel)
  have halways := (refund_parts_exact_iff hpaid hrun).2 hmeets
  exact ⟨s, hrun, eq_of_beq htotal, (Machine.always_iff _).1 halways _ [] s rfl hrun⟩

/-- Twenty-one yen given back in two halves: each half is rounded up, and Stripe is asked for more
than was paid. -/
theorem refund_parts_halves : ∃ s,
    (refundParts "JPY" 1).run (visitPaid 21) [⟨some (21 / 2), 1⟩, ⟨none, 2⟩] = some s ∧
    s.total = 22 ∧ toMinorUnits 21 "JPY" = 21 ∧ ¬s.Exact "JPY" 1 := by
  have hsome : ((refundParts "JPY" 1).run (visitPaid 21) [⟨some (21 / 2), 1⟩, ⟨none, 2⟩]).any
      (fun s => s.total == 22 && (s.db.appointments.get? 1).any fun a =>
        a.prepaidAmount == some 21) = true := by
    decide +kernel
  simp only [Option.any_eq_true, Bool.and_eq_true, beq_iff_eq] at hsome
  obtain ⟨s, hrun, htotal, a, hget, hpaid⟩ := hsome
  have hminor : toMinorUnits 21 "JPY" = 21 := by decide +kernel
  refine ⟨s, hrun, htotal, hminor, fun hexact => ?_⟩
  have hle := hexact.within a hget
  rw [htotal, hpaid, Option.getD_some, hminor] at hle
  omega


end Barbershop
