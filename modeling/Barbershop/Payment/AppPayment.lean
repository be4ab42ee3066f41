import Barbershop.Payment.Dispute

/-!
# What a payment through the app shows as returned

An `AppPayment` is a payment through the app: the row that keeps it and its charge at Stripe.
`AppPayment.shown` is the amount that the row shows as returned. One write of the webhooks leaves
the row where it is and what was returned returned (`AppPayment.Advances`), and the amount within
the charge.
-/

namespace Barbershop

open Lib

/-! ## Payments and what they show -/

inductive AppPaymentKind where
  | deposit | prepaid | tip | club | featured | jobFee
  deriving DecidableEq

/-- A payment through the app: `id` is the key of its row, the rest is its charge at Stripe. -/
structure AppPayment where
  kind : AppPaymentKind
  id : ℕ
  intent : String
  invoice : Option String
  currency : String
  amount : ℤ

/-! ### Columns -/

def Appointment.depositReturned (a : Appointment) : ℚ :=
  if a.depositRefundedAt.isSome then a.depositAmount.getD 0 else 0

def Appointment.prepaidReturned (a : Appointment) : ℚ :=
  if a.prepaidRefundedAt.isSome then a.prepaidAmount.getD 0 else a.prepaidRefundedAmount.getD 0

def StripeTip.returned (t : StripeTip) : ℚ := if t.refundedAt.isSome then t.amount else 0

def ClubInvoicePayment.returned (c : ClubInvoicePayment) : ℚ := c.refundedAmount.getD 0

namespace AppPayment

variable (p : AppPayment)

/-- What was charged. -/
def value : ℚ := fromMinorUnits p.amount p.currency

/-- The amount shown as returned; a purchase from the platform is revoked as a whole. -/
def shown (s : AppBooks) : ℚ :=
  match p.kind with
  | .deposit => s.appointments.value Appointment.depositReturned p.id
  | .prepaid => s.appointments.value Appointment.prepaidReturned p.id
  | .tip => s.tips.value StripeTip.returned p.id
  | .club => s.clubPayments.value ClubInvoicePayment.returned p.id
  | .featured => s.featured.value (fun f => if f.status = .refunded then p.value else 0) p.id
  | .jobFee => s.fees.value (fun f => if f.feeRefundedAt.isSome then p.value else 0) p.id

/-- What the lost dispute over `amount` has to have done. -/
def Applied (amount : ℤ) (s : AppBooks) : Prop :=
  match p.kind with
  | .deposit | .prepaid | .tip | .club => fromMinorUnits amount p.currency ≤ p.shown s
  | .featured => ∃ f, s.featured.get? p.id = some f ∧ f.status = .refunded ∧ f.daysTaken = true
  | .jobFee => ∃ f, s.fees.get? p.id = some f ∧ f.feePaidAt = none ∧ f.feeRefundedAt.isSome

/-! ### The row of a payment -/

def DepositRow (a : Appointment) : Prop := a.depositAmount = some p.value

def PrepaidRow (a : Appointment) : Prop :=
  a.prepaidAt.isSome ∧ a.prepaidAmount = some p.value ∧ a.prepaidRefundedAmount.getD 0 ≤ p.value

def TipRow (t : StripeTip) : Prop := t.amount = p.value

def ClubRow (c : ClubInvoicePayment) : Prop := c.refundedAmount.getD 0 ≤ p.value

def FeaturedRow (f : FeaturedSale) : Prop := f.status = .paid ∨ f.status = .refunded

def FeeRow (f : JobFee) : Prop :=
  (f.feePaymentIntentId = some p.intent ∧ f.feePaidAt.isSome ∧ f.feeRefundedAt = none) ∨
    (f.feePaidAt = none ∧ f.feeRefundedAt.isSome)

/-- The payment has its row, which no other row is taken for. -/
def Kept (s : AppBooks) : Prop :=
  match p.kind with
  | .deposit =>
    s.appointments.Only p.id (·.depositPaymentIntentId == some p.intent) p.DepositRow
  | .prepaid =>
    s.appointments.Only p.id (·.prepaidPaymentIntentId == some p.intent) p.PrepaidRow
  | .tip => s.tips.Only p.id (·.stripePaymentIntentId == some p.intent) p.TipRow
  | .club => s.clubPayments.Only p.id (fun c => p.invoice == some c.stripeInvoiceId) p.ClubRow
  | .featured => s.featured.Only p.id (·.stripePaymentIntentId == some p.intent) FeaturedRow
  | .jobFee => ∃ f, s.fees.get? p.id = some f ∧ p.FeeRow f

/-- The purchase of featured days is not marked refunded with its days left standing. -/
def TookDays (s : AppBooks) : Prop :=
  p.kind = .featured → ∀ f, s.featured.get? p.id = some f → f.status = .refunded →
    f.daysTaken = true

/-- The books hold the payment; part of it may have been returned already. -/
structure Recorded (s : AppBooks) : Prop where
  nonneg : 0 ≤ p.amount
  kept : p.Kept s
  tookDays : p.TookDays s

end AppPayment

/-! ## One row -/

namespace Appointment

variable (refunded : ℚ) (currency : String) (full : Bool) (now : ℤ) (a : Appointment)

/-- The columns of the prepayment and of what a deposit is stay. -/
theorem syncDeposit_frame : let b := a.syncDeposit refunded currency full now
    b.depositPaymentIntentId = a.depositPaymentIntentId ∧ b.depositAmount = a.depositAmount ∧
      b.prepaidPaymentIntentId = a.prepaidPaymentIntentId ∧ b.prepaidAt = a.prepaidAt ∧
      b.prepaidAmount = a.prepaidAmount ∧ b.prepaidRefundedAt = a.prepaidRefundedAt ∧
      b.prepaidRefundedAmount = a.prepaidRefundedAmount := by
  simp only [syncDeposit]
  split_ifs <;> exact ⟨rfl, rfl, rfl, rfl, rfl, rfl, rfl⟩

theorem syncPrepaid_frame : let b := a.syncPrepaid refunded full now
    b.prepaidPaymentIntentId = a.prepaidPaymentIntentId ∧ b.prepaidAt = a.prepaidAt ∧
      b.prepaidAmount = a.prepaidAmount ∧ b.depositPaymentIntentId = a.depositPaymentIntentId ∧
      b.depositAmount = a.depositAmount ∧ b.depositRefundedAt = a.depositRefundedAt := by
  simp only [syncPrepaid]
  split_ifs <;> exact ⟨rfl, rfl, rfl, rfl, rfl, rfl⟩

section Columns

variable {refunded currency full now a}

theorem syncDeposit_full (h : full = true) :
    (a.syncDeposit refunded currency full now).depositRefundedAt.isSome := by
  unfold syncDeposit
  split
  · assumption
  · rw [h]
    rfl

theorem depositReturned_le (h : 0 ≤ a.depositAmount.getD 0) :
    a.depositReturned ≤ (a.syncDeposit refunded currency full now).depositReturned := by
  unfold syncDeposit
  split_ifs with hback
  · exact le_rfl
  · exact le_rfl
  · simpa [depositReturned, hback] using h

end Columns

variable {a} in
/-- What a refund of the prepayment leaves shown: at least what it says, and no less than before. -/
theorem syncPrepaid_returned (hat : a.prepaidAt.isSome)
    (hle : a.prepaidRefundedAmount.getD 0 ≤ a.prepaidAmount.getD 0) :
    let b := a.syncPrepaid refunded full now
    a.prepaidReturned ≤ b.prepaidReturned ∧
      min (a.prepaidAmount.getD 0) refunded ≤ b.prepaidReturned ∧
      b.prepaidRefundedAmount.getD 0 ≤ a.prepaidAmount.getD 0 := by
  have hat' : a.prepaidAt.isNone = false := by simpa [Option.isSome_iff_ne_none] using hat
  simp only [syncPrepaid, hat', Bool.false_or]
  split_ifs with hback hsame hfull
  · exact ⟨le_rfl, by simp [prepaidReturned, hback], hle⟩
  · simp only [Bool.and_eq_true, beq_iff_eq] at hsame
    refine ⟨le_rfl, ?_, hle⟩
    rw [prepaidReturned, if_neg hback, ← hsame.1]
    exact min_le_min le_rfl (le_max_right _ _)
  · simp only [prepaidReturned, hback, Option.isSome_some, if_true, Option.getD_some]
    exact ⟨hle, min_le_left _ _, min_le_left _ _⟩
  · simp only [prepaidReturned, hback, Option.isSome_none, Option.getD_some]
    refine ⟨le_min hle (le_max_left _ _), ?_, min_le_left _ _⟩
    exact min_le_min le_rfl (le_max_right _ _)

end Appointment

namespace StripeTip

variable {refunded : ℚ} {currency : String} {full : Bool} {now : ℤ} {t : StripeTip}

theorem sync_frame (refunded : ℚ) (currency : String) (full : Bool) (now : ℤ) (t : StripeTip) :
    (t.sync refunded currency full now).stripePaymentIntentId = t.stripePaymentIntentId ∧
      (t.sync refunded currency full now).amount = t.amount := by
  simp only [sync]
  split_ifs <;> exact ⟨rfl, rfl⟩

theorem sync_full (h : full = true) :
    (t.sync refunded currency full now).refundedAt.isSome := by
  unfold sync
  split
  · assumption
  · rw [h]
    rfl

theorem returned_le (h : 0 ≤ t.amount) :
    t.returned ≤ (t.sync refunded currency full now).returned := by
  unfold sync
  split_ifs with hback
  · exact le_rfl
  · exact le_rfl
  · simpa [returned, hback] using h

end StripeTip

namespace ClubInvoicePayment

variable {refunded : ℚ} (invoiceId : String) (c : ClubInvoicePayment)

theorem sync_invoice (refunded : ℚ) :
    (c.sync invoiceId refunded).stripeInvoiceId = c.stripeInvoiceId := by
  unfold sync
  split_ifs <;> rfl

theorem sync_returned (h : 0 < refunded) :
    c.returned ≤ (c.sync invoiceId refunded).returned ∧
      (c.stripeInvoiceId = invoiceId → refunded ≤ (c.sync invoiceId refunded).returned) ∧
      ((c.sync invoiceId refunded).returned = c.returned ∨
        c.stripeInvoiceId = invoiceId ∧ (c.sync invoiceId refunded).returned = refunded) := by
  unfold sync
  split_ifs with hup
  · obtain ⟨hid, hlt⟩ := hup
    refine ⟨?_, fun _ => le_rfl, .inr ⟨hid, rfl⟩⟩
    cases hr : c.refundedAmount with
    | none => simpa [returned, hr] using h.le
    | some r => simpa [returned, hr] using (hlt r hr).le
  · refine ⟨le_rfl, fun hid => ?_, .inl rfl⟩
    by_contra hlt
    apply hup
    refine ⟨hid, fun r hr => ?_⟩
    rw [Option.mem_def] at hr
    simpa [returned, hr] using hlt

end ClubInvoicePayment

namespace FeaturedSale

variable (f : FeaturedSale)

theorem claimBack_frame : f.claimBack.stripePaymentIntentId = f.stripePaymentIntentId ∧
    f.claimBack.daysTaken = f.daysTaken := by
  unfold claimBack
  split_ifs <;> exact ⟨rfl, rfl⟩

variable {f}

theorem claimBack_refunded (h : AppPayment.FeaturedRow f) : f.claimBack.status = .refunded := by
  unfold claimBack
  split_ifs with hpaid
  · rfl
  · exact h.resolve_left hpaid

end FeaturedSale

theorem JobFee.revoke_row {p : AppPayment} {f : JobFee} (h : p.FeeRow f) (intent : String)
    (now : ℤ) : p.FeeRow (f.revoke intent now) ∧
      (f.feeRefundedAt.isSome → f.revoke intent now = f) ∧
      (intent = p.intent → (f.revoke intent now).feePaidAt = none ∧
        (f.revoke intent now).feeRefundedAt.isSome) := by
  unfold revoke
  rcases h with ⟨hintent, hpaid, hback⟩ | ⟨hpaid, hback⟩
  · split_ifs with hhit
    · refine ⟨.inr ⟨rfl, rfl⟩, fun hsome => ?_, fun _ => ⟨rfl, rfl⟩⟩
      rw [hback] at hsome
      cases hsome
    · refine ⟨.inl ⟨hintent, hpaid, hback⟩, fun _ => rfl, fun hid => ?_⟩
      exact absurd ⟨hid ▸ hintent, hpaid, hback⟩ hhit
  · have hmiss : ¬(f.feePaymentIntentId = some intent ∧ f.feePaidAt.isSome ∧
        f.feeRefundedAt = none) := by
      rintro ⟨-, hsome, -⟩
      rw [hpaid] at hsome
      cases hsome
    rw [if_neg hmiss]
    exact ⟨.inr ⟨hpaid, hback⟩, fun _ => rfl, fun _ => ⟨hpaid, hback⟩⟩

/-! ## One write -/

namespace AppPayment

variable {p : AppPayment} {s : AppBooks} {x : AppWrite}

theorem value_nonneg (h : 0 ≤ p.amount) : 0 ≤ p.value := by
  rw [← fromMinorUnits_zero p.currency]
  exact fromMinorUnits_le.2 h

theorem deposit_exec (hp : 0 ≤ p.amount) (x : AppWrite) (h : s.appointments.Only p.id
      (·.depositPaymentIntentId == some p.intent) p.DepositRow) :
    (x.exec s).appointments.Only p.id (·.depositPaymentIntentId == some p.intent) p.DepositRow ∧
      s.appointments.value Appointment.depositReturned p.id ≤
        (x.exec s).appointments.value Appointment.depositReturned p.id := by
  cases x with
  | deposit intent refunded currency full now =>
    have frame := Appointment.syncDeposit_frame refunded currency full now
    refine ⟨h.updateFirst (fun a => by rw [(frame a).1]) fun a _ ha => (frame a).2.1.trans ha, ?_⟩
    refine h.value_le_updateFirst fun a _ ha => Appointment.depositReturned_le ?_
    rw [ha]
    exact value_nonneg hp
  | prepaid intent refunded full now =>
    have frame := Appointment.syncPrepaid_frame refunded full now
    refine ⟨h.updateFirst (fun a => by rw [(frame a).2.2.2.1]) fun a _ ha =>
      (frame a).2.2.2.2.1.trans ha, ?_⟩
    refine h.value_le_updateFirst fun a _ _ => ?_
    unfold Appointment.depositReturned
    rw [(frame a).2.2.2.2.1, (frame a).2.2.2.2.2]
  | dispute | markFeatured | takeDays | revokeFee | club | tip => exact ⟨h, le_rfl⟩

theorem prepaid_exec (x : AppWrite) (h : s.appointments.Only p.id
      (·.prepaidPaymentIntentId == some p.intent) p.PrepaidRow) :
    (x.exec s).appointments.Only p.id (·.prepaidPaymentIntentId == some p.intent) p.PrepaidRow ∧
      s.appointments.value Appointment.prepaidReturned p.id ≤
        (x.exec s).appointments.value Appointment.prepaidReturned p.id := by
  cases x with
  | deposit intent refunded currency full now =>
    have frame := Appointment.syncDeposit_frame refunded currency full now
    have row : ∀ a, p.PrepaidRow a → p.PrepaidRow (a.syncDeposit refunded currency full now) := by
      intro a ha
      obtain ⟨-, -, -, hat, hamount, -, hback⟩ := frame a
      exact ⟨hat ▸ ha.1, hamount.trans ha.2.1, hback ▸ ha.2.2⟩
    refine ⟨h.updateFirst (fun a => by rw [(frame a).2.2.1]) fun a _ ha => row a ha, ?_⟩
    refine h.value_le_updateFirst fun a _ _ => ?_
    obtain ⟨-, -, -, -, hamount, hat, hback⟩ := frame a
    unfold Appointment.prepaidReturned
    rw [hamount, hat, hback]
  | prepaid intent refunded full now =>
    have frame := Appointment.syncPrepaid_frame refunded full now
    have sync : ∀ a, p.PrepaidRow a → _ := fun a ha => Appointment.syncPrepaid_returned refunded full
      now ha.1 (by rw [ha.2.1]; exact ha.2.2)
    refine ⟨h.updateFirst (fun a => by rw [(frame a).1]) fun a _ ha => ?_,
      h.value_le_updateFirst fun a _ ha => (sync a ha).1⟩
    refine ⟨(frame a).2.1 ▸ ha.1, (frame a).2.2.1.trans ha.2.1, ?_⟩
    have hle := (sync a ha).2.2
    rw [ha.2.1] at hle
    exact hle
  | dispute | markFeatured | takeDays | revokeFee | club | tip => exact ⟨h, le_rfl⟩

theorem tip_exec (hp : 0 ≤ p.amount) (x : AppWrite)
    (h : s.tips.Only p.id (·.stripePaymentIntentId == some p.intent) p.TipRow) :
    (x.exec s).tips.Only p.id (·.stripePaymentIntentId == some p.intent) p.TipRow ∧
      s.tips.value StripeTip.returned p.id ≤ (x.exec s).tips.value StripeTip.returned p.id := by
  cases x with
  | tip intent refunded currency full now =>
    have frame := StripeTip.sync_frame refunded currency full now
    refine ⟨h.updateFirst (fun t => by rw [(frame t).1]) fun t _ ht => (frame t).2.trans ht, ?_⟩
    refine h.value_le_updateFirst fun t _ ht => StripeTip.returned_le ?_
    rw [ht]
    exact value_nonneg hp
  | dispute | markFeatured | takeDays | revokeFee | club | deposit | prepaid => exact ⟨h, le_rfl⟩

/-- A write of a refund is within what was charged. -/
def Within (p : AppPayment) : AppWrite → Prop
  | .club invoiceId refunded => 0 < refunded ∧ (p.invoice = some invoiceId → refunded ≤ p.value)
  | _ => True

theorem club_exec (hx : p.Within x)
    (h : s.clubPayments.Only p.id (fun c => p.invoice == some c.stripeInvoiceId) p.ClubRow) :
    (x.exec s).clubPayments.Only p.id (fun c => p.invoice == some c.stripeInvoiceId) p.ClubRow ∧
      s.clubPayments.value ClubInvoicePayment.returned p.id ≤
        (x.exec s).clubPayments.value ClubInvoicePayment.returned p.id := by
  cases x with
  | club invoiceId refunded =>
    have sync := fun c : ClubInvoicePayment =>
      ClubInvoicePayment.sync_returned invoiceId c hx.1
    refine ⟨h.modifyAll (f := fun _ c => c.sync invoiceId refunded)
      (fun _ c => by rw [ClubInvoicePayment.sync_invoice]) fun c hc hrow => ?_,
      h.value_le_modifyAll fun c _ _ => (sync c).1⟩
    rcases (sync c).2.2 with hsame | ⟨hid, hnew⟩
    · exact hsame.le.trans hrow
    · refine hnew.le.trans (hx.2 ?_)
      rw [← hid]
      exact eq_of_beq hc
  | dispute | markFeatured | takeDays | revokeFee | tip | deposit | prepaid => exact ⟨h, le_rfl⟩

/-- Featured days: no write undoes a revocation. -/
theorem featured_exec (x : AppWrite)
    (h : s.featured.Only p.id (·.stripePaymentIntentId == some p.intent) FeaturedRow) :
    (x.exec s).featured.Only p.id (·.stripePaymentIntentId == some p.intent) FeaturedRow ∧
      s.featured.Lasts (fun f g => (f.status = .refunded → g.status = .refunded) ∧
        (f.daysTaken = true → g.daysTaken = true)) (x.exec s).featured := by
  have hrefl : ∀ f : FeaturedSale, (f.status = .refunded → f.status = .refunded) ∧
      (f.daysTaken = true → f.daysTaken = true) := fun _ => ⟨fun h => h, fun h => h⟩
  cases x with
  | markFeatured id =>
    refine ⟨h.modify (fun f => by rw [f.claimBack_frame.1]) fun f _ hf =>
      .inr (FeaturedSale.claimBack_refunded hf), Table.Lasts.modify hrefl fun f _ => ?_⟩
    refine ⟨fun hback => ?_, fun htaken => f.claimBack_frame.2.trans htaken⟩
    exact FeaturedSale.claimBack_refunded (.inr hback)
  | takeDays id seen now =>
    exact ⟨h.modify (f := fun f => { f with daysTaken := true }) (fun _ => rfl) fun _ _ hf => hf,
      Table.Lasts.modify hrefl fun f _ => ⟨fun hback => hback, fun _ => rfl⟩⟩
  | dispute | revokeFee | club | tip | deposit | prepaid => exact ⟨h, .refl hrefl _⟩

theorem jobFee_exec (x : AppWrite) (h : ∃ f, s.fees.get? p.id = some f ∧ p.FeeRow f) :
    ∃ f g, s.fees.get? p.id = some f ∧ (x.exec s).fees.get? p.id = some g ∧ p.FeeRow g ∧
      (f.feeRefundedAt.isSome → g = f) := by
  obtain ⟨f, hf, hrow⟩ := h
  cases x with
  | revokeFee intent now =>
    obtain ⟨hrow', hstay, -⟩ := JobFee.revoke_row hrow intent now
    refine ⟨f, f.revoke intent now, hf, ?_, hrow', hstay⟩
    simp only [AppWrite.exec, Table.get?_modifyAll, hf, Option.map_some]
  | dispute | markFeatured | takeDays | club | tip | deposit | prepaid =>
    exact ⟨f, f, hf, hf, hrow, fun _ => rfl⟩

/-- From one state of the books to a later one: the payment stays, and what was returned of it stays
returned. -/
structure Advances (p : AppPayment) (s s' : AppBooks) : Prop where
  kept : p.Kept s → p.Kept s'
  shown : p.Kept s → p.shown s ≤ p.shown s'
  applied : p.Kept s → ∀ amount, p.Applied amount s → p.Applied amount s'

theorem Advances.refl (s : AppBooks) : p.Advances s s :=
  ⟨fun h => h, fun _ => le_rfl, fun _ _ h => h⟩

theorem Advances.trans {s₁ s₂ s₃ : AppBooks} (h : p.Advances s₁ s₂) (h' : p.Advances s₂ s₃) :
    p.Advances s₁ s₃ where
  kept hs := h'.kept (h.kept hs)
  shown hs := (h.shown hs).trans (h'.shown (h.kept hs))
  applied hs amount ha := h'.applied (h.kept hs) amount (h.applied hs amount ha)

theorem advances_exec (hp : 0 ≤ p.amount) (hx : p.Within x) : p.Advances s (x.exec s) := by
  have amounts : (p.Kept s → p.Kept (x.exec s) ∧ p.shown s ≤ p.shown (x.exec s)) →
      (p.kind ≠ .featured ∧ p.kind ≠ .jobFee) → p.Advances s (x.exec s) := by
    intro h hkind
    refine ⟨fun hs => (h hs).1, fun hs => (h hs).2, fun hs amount ha => ?_⟩
    unfold Applied at ha ⊢
    cases hk : p.kind with
    | featured => exact absurd hk hkind.1
    | jobFee => exact absurd hk hkind.2
    | deposit | prepaid | tip | club =>
      rw [hk] at ha
      exact ha.trans (h hs).2
  cases hk : p.kind with
  | deposit =>
    refine amounts (fun hs => ?_) (by simp [hk])
    simp only [Kept, AppPayment.shown, hk] at hs ⊢
    exact deposit_exec hp x hs
  | prepaid =>
    refine amounts (fun hs => ?_) (by simp [hk])
    simp only [Kept, AppPayment.shown, hk] at hs ⊢
    exact prepaid_exec x hs
  | tip =>
    refine amounts (fun hs => ?_) (by simp [hk])
    simp only [Kept, AppPayment.shown, hk] at hs ⊢
    exact tip_exec hp x hs
  | club =>
    refine amounts (fun hs => ?_) (by simp [hk])
    simp only [Kept, AppPayment.shown, hk] at hs ⊢
    exact club_exec hx hs
  | featured =>
    constructor
    · intro hs
      simp only [Kept, hk] at hs ⊢
      exact (featured_exec x hs).1
    · intro hs
      simp only [Kept, AppPayment.shown, hk] at hs ⊢
      obtain ⟨f, hf, -, -⟩ := hs.row
      obtain ⟨g, hg, hback, -⟩ := (featured_exec x hs).2 hf
      rw [Table.value_of_get? _ hf, Table.value_of_get? _ hg]
      split_ifs with hf' hg'
      · exact le_rfl
      · exact absurd (hback hf') hg'
      · exact value_nonneg hp
      · exact le_rfl
    · intro hs amount ha
      simp only [Kept, Applied, hk] at hs ha ⊢
      obtain ⟨f, hf, hback, htaken⟩ := ha
      obtain ⟨g, hg, hback', htaken'⟩ := (featured_exec x hs).2 hf
      exact ⟨g, hg, hback' hback, htaken' htaken⟩
  | jobFee =>
    constructor
    · intro hs
      simp only [Kept, hk] at hs ⊢
      obtain ⟨-, g, -, hg, hrow, -⟩ := jobFee_exec x hs
      exact ⟨g, hg, hrow⟩
    · intro hs
      simp only [Kept, AppPayment.shown, hk] at hs ⊢
      obtain ⟨f, g, hf, hg, -, hstay⟩ := jobFee_exec x hs
      rw [Table.value_of_get? _ hf, Table.value_of_get? _ hg]
      split_ifs with hf' hg'
      · exact le_rfl
      · exact absurd (hstay hf' ▸ hf') hg'
      · exact value_nonneg hp
      · exact le_rfl
    · intro hs amount ha
      simp only [Kept, Applied, hk] at hs ha ⊢
      obtain ⟨f, hf, hpaid, hback⟩ := ha
      obtain ⟨f', g, hf', hg, -, hstay⟩ := jobFee_exec x hs
      obtain rfl := Option.some.inj (hf.symm.trans hf')
      obtain rfl := hstay hback
      exact ⟨g, hg, hpaid, hback⟩

/-- The amount shown as returned is within the charge. -/
theorem shown_le (hp : 0 ≤ p.amount) (hs : p.Kept s) : p.shown s ≤ p.value := by
  have hv := value_nonneg hp
  cases hk : p.kind with
  | deposit =>
    simp only [Kept, shown, hk] at hs ⊢
    obtain ⟨a, ha, -, hrow⟩ := hs.row
    rw [Table.value_of_get? _ ha, Appointment.depositReturned, hrow]
    split
    · exact le_rfl
    · exact hv
  | prepaid =>
    simp only [Kept, shown, hk] at hs ⊢
    obtain ⟨a, ha, -, hrow⟩ := hs.row
    rw [Table.value_of_get? _ ha, Appointment.prepaidReturned, hrow.2.1]
    split
    · exact le_rfl
    · exact hrow.2.2
  | tip =>
    simp only [Kept, shown, hk] at hs ⊢
    obtain ⟨t, ht, -, hrow⟩ := hs.row
    rw [Table.value_of_get? _ ht, StripeTip.returned, hrow]
    split
    · exact le_rfl
    · exact hv
  | club =>
    simp only [Kept, shown, hk] at hs ⊢
    obtain ⟨c, hc, -, hrow⟩ := hs.row
    rw [Table.value_of_get? _ hc]
    exact hrow
  | featured =>
    simp only [Kept, shown, hk] at hs ⊢
    obtain ⟨f, hf, -, -⟩ := hs.row
    rw [Table.value_of_get? _ hf]
    split
    · exact le_rfl
    · exact hv
  | jobFee =>
    simp only [Kept, shown, hk] at hs ⊢
    obtain ⟨f, hf, -⟩ := hs
    rw [Table.value_of_get? _ hf]
    split
    · exact le_rfl
    · exact hv

end AppPayment

end Barbershop
