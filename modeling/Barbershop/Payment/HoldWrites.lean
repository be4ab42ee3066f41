import Barbershop.Payment.Hold

/-!
# What the calls on a waiting deposit write

Each write of the calls on the row, and each move of Stripe, keeps the balance between the row,
Stripe's books and the duties of the calls in flight, and lets the row evolve.
-/

namespace Barbershop

open Lib

section Writes

variable {appointmentId : ℕ} {s : Payments} {duties : Duties} {a : Appointment} {i : String}

theorem Payments.known_iff : s.known appointmentId i = true ↔
    ∃ p, s.stripe.intents i = some p ∧ p.status = .succeeded ∧ p.appointmentId = appointmentId := by
  simp [Payments.known, Option.any_eq_true]

theorem Payments.known_congr {s' : Payments} (h : s'.stripe.intents = s.stripe.intents)
    (i : String) : s'.known appointmentId i = s.known appointmentId i := by
  rw [Payments.known, Payments.known, h]

theorem Payments.own_of_known (h : s.known appointmentId i = true) :
    s.own appointmentId i = true := by
  obtain ⟨p, hp, -, hmeta⟩ := Payments.known_iff.1 h
  simp [Payments.own, hp, hmeta]

theorem Payments.known_of_own (h : s.own appointmentId i = true)
    (hstatus : s.stripe.status? i = some .succeeded) : s.known appointmentId i = true := by
  obtain ⟨p, hp, hmeta⟩ := (Option.any_eq_true _ _).1 h
  simp only [Stripe.status?, hp, Option.map_some, Option.some.injEq] at hstatus
  exact Payments.known_iff.2 ⟨p, hp, hstatus, beq_iff_eq.1 hmeta⟩

theorem Payments.not_canceled (h : s.known appointmentId i = true) :
    s.stripe.status? i ≠ some .canceled := by
  obtain ⟨p, hp, hstatus, -⟩ := Payments.known_iff.1 h
  simp [Stripe.status?, hp, hstatus]

theorem Appointment.records_iff :
    a.records i = true ↔ a.depositPaid = true ∧ a.depositPaymentIntentId = some i ∧
      a.depositRefundedAt = none := by
  simp [Appointment.records, and_assoc]

namespace HoldBalance

theorem not_records (h : HoldBalance appointmentId s duties a) (hr : a.records i = false) :
    ¬(a.depositPaid = true ∧ a.depositPaymentIntentId = some i) := by
  rintro ⟨hpaid, hid⟩
  rw [Bool.eq_false_iff] at hr
  exact hr (Appointment.records_iff.2 ⟨hpaid, hid, (h.paid hpaid).2⟩)

/-- More duties do no harm. -/
theorem add (h : HoldBalance appointmentId s duties a) (d : Duties) :
    HoldBalance appointmentId s (d + duties) a := by
  have hfst : ∀ j, 0 < duties.1 j → 0 < (d + duties).1 j := fun j hj => Nat.add_pos_right _ hj
  have hsnd : ∀ j, 0 < duties.2 j → 0 < (d + duties).2 j := fun j hj => Nat.add_pos_right _ hj
  exact {
    h with
    marked := fun hm => by
      obtain ⟨hpaid, j, hid, hknown, hj⟩ := h.marked hm
      exact ⟨hpaid, j, hid, hknown, hj.imp_right (hsnd j)⟩
    placed := fun hknown => (h.placed hknown).imp_right
      (Or.imp_right (Or.imp (hfst _) (hsnd _))) }

/-- A call whose intent is placed has no duty left. -/
theorem drop (h : HoldBalance appointmentId s ((Pi.single i 1, 0) + duties) a)
    (hplaced : a.records i = true ∨ s.stripe.executed (.deposit i) = true ∨ 0 < duties.2 i) :
    HoldBalance appointmentId s duties a where
  row := h.row
  own := h.own
  waiting := h.waiting
  paid := h.paid
  paid_at := h.paid_at
  marked := by simpa using h.marked
  executed := h.executed
  placed := fun {j} hj => by
    by_cases hji : j = i
    · subst hji
      exact hplaced.imp_right (Or.imp_right .inr)
    · simpa [hji] using h.placed hj
  refunds := h.refunds
  elsewhere := h.elsewhere

/-- A call decides to ask for the refund. -/
theorem ask (h : HoldBalance appointmentId s ((Pi.single i 1, 0) + duties) a) :
    HoldBalance appointmentId s ((0, Pi.single i 1) + duties) a := by
  have hsnd : ∀ j, 0 < duties.2 j → 0 < ((0, Pi.single i 1) + duties : Duties).2 j :=
    fun j hj => Nat.add_pos_right _ hj
  exact {
    row := h.row
    own := h.own
    waiting := h.waiting
    paid := h.paid
    paid_at := h.paid_at
    marked := fun hm => by
      obtain ⟨hpaid, j, hid, hknown, hj⟩ := h.marked hm
      exact ⟨hpaid, j, hid, hknown, hj.imp_right fun hj => hsnd j (by simpa using hj)⟩
    executed := h.executed
    placed := fun {j} hj => by
      by_cases hji : j = i
      · subst hji
        exact .inr (.inr (.inr (by simp)))
      · simpa [hji] using h.placed hj
    refunds := h.refunds
    elsewhere := h.elsewhere }

/-- A write on the row of the appointment that leaves Stripe alone. -/
theorem write (h : HoldBalance appointmentId s duties a) {p : Appointment → Bool}
    {f : Appointment → Appointment} {db : Db} {duties' : Duties}
    (hw : s.db.updateAppointmentWhere appointmentId p f = some db) (hev : Evolves a (f a))
    (own : ∀ i, (f a).depositPaymentIntentId = some i → s.own appointmentId i = true)
    (waiting : (f a).status = .pendingPayment → (f a).depositPaid = false ∧
      (f a).depositPaidAt = none ∧ (f a).depositRefundedAt = none)
    (paid : (f a).depositPaid = true →
      (f a).depositPaidAt.isSome = true ∧ (f a).depositRefundedAt = none)
    (paid_at : (f a).depositPaidAt.isSome = true →
      ∃ i, (f a).depositPaymentIntentId = some i ∧ s.known appointmentId i = true)
    (marked : (f a).depositRefundedAt.isSome = true → (f a).depositPaid = false ∧
      ∃ i, (f a).depositPaymentIntentId = some i ∧ s.known appointmentId i = true ∧
        (s.stripe.executed (.deposit i) = true ∨ 0 < duties'.2 i))
    (executed : ∀ i, s.stripe.executed (.deposit i) = true → (f a).status ≠ .pendingPayment ∧
      ¬((f a).depositPaid = true ∧ (f a).depositPaymentIntentId = some i))
    (placed : ∀ i, s.known appointmentId i = true → (f a).records i = true ∨
      s.stripe.executed (.deposit i) = true ∨ 0 < duties'.1 i ∨ 0 < duties'.2 i) :
    HoldBalance appointmentId { s with db := db } duties' (f a) ∧
      HoldLater appointmentId s { s with db := db } := by
  obtain ⟨b, hb, -, hget, -⟩ := Db.updateAppointmentWhere_some hw
  obtain rfl : b = a := Option.some.inj (hb.symm.trans h.row)
  constructor
  · exact {
      row := hget
      own := own _
      waiting := waiting
      paid := paid
      paid_at := paid_at
      marked := marked
      executed := fun hex => ⟨(h.executed hex).1, executed _ hex⟩
      placed := placed _
      refunds := h.refunds
      elsewhere := fun hrow hne =>
        h.elsewhere ((Db.updateAppointmentWhere_other hw hne).symm.trans hrow) hne }
  · refine ⟨fun {c} hc => ⟨b, hb, ?_⟩, id, id, id⟩
    obtain rfl : f b = c := Option.some.inj (hget.symm.trans hc)
    exact hev

/-- `finalize` finds the row waiting, and records the intent. -/
theorem confirm (hknown : s.known appointmentId i = true) {duties : Duties}
    (h : HoldBalance appointmentId s ((Pi.single i 1, 0) + duties) a) {now : ℤ} {db : Db}
    (hw : s.db.updateAppointmentWhere appointmentId (·.status == .pendingPayment)
      (Finalize.confirm i now) = some db) :
    HoldBalance appointmentId { s with db := db } duties (Finalize.confirm i now a) ∧
      HoldLater appointmentId s { s with db := db } := by
  obtain ⟨b, hb, hp, -, -⟩ := Db.updateAppointmentWhere_some hw
  obtain rfl : b = a := Option.some.inj (hb.symm.trans h.row)
  have hstatus : b.status = .pendingPayment := beq_iff_eq.1 hp
  obtain ⟨hunpaid, hat, hmark⟩ := h.waiting hstatus
  refine h.write hw ?_ ?_ ?_ ?_ ?_ ?_ ?_ ?_
  · exact {
      left := fun hne => absurd hstatus hne
      unpaid := fun hne => absurd hstatus hne
      kept := fun hpaid => by simp [hunpaid] at hpaid
      marked := fun hm => by simp [hmark] at hm }
  · rintro _ ⟨⟩
    exact Payments.own_of_known hknown
  · intro hw
    cases hw
  · exact fun _ => ⟨rfl, hmark⟩
  · exact fun _ => ⟨i, rfl, hknown⟩
  · intro hm
    simp [Finalize.confirm, hmark] at hm
  · exact fun j hex => absurd hstatus (h.executed hex).2.1
  · intro j hj
    by_cases hji : j = i
    · subst hji
      exact .inl (Appointment.records_iff.2 ⟨rfl, rfl, hmark⟩)
    · rcases h.placed hj with hr | hex | hd | hd
      · simp [Appointment.records, hunpaid] at hr
      · exact .inr (.inl hex)
      · exact .inr (.inr (.inl (by simpa [hji] using hd)))
      · exact .inr (.inr (.inr (by simpa using hd)))

/-- `finalize` marks the refund of an intent on a row that is not paid and carries no mark. -/
theorem mark (hknown : s.known appointmentId i = true) {duties : Duties}
    (h : HoldBalance appointmentId s ((Pi.single i 1, 0) + duties) a)
    (hstatus : a.status ≠ .pendingPayment) (hunpaid : a.depositPaid = false) {now : ℤ} {db : Db}
    (hw : s.db.updateAppointmentWhere appointmentId (·.depositRefundedAt == none)
      (Finalize.mark i now) = some db) :
    HoldBalance appointmentId { s with db := db } ((0, Pi.single i 1) + duties)
        (Finalize.mark i now a) ∧
      HoldLater appointmentId s { s with db := db } := by
  obtain ⟨b, hb, hp, -, -⟩ := Db.updateAppointmentWhere_some hw
  obtain rfl : b = a := Option.some.inj (hb.symm.trans h.row)
  have hmark : b.depositRefundedAt = none := beq_iff_eq.1 hp
  refine h.write hw ?_ ?_ ?_ ?_ ?_ ?_ ?_ ?_
  · exact {
      left := id
      unpaid := fun _ => id
      kept := fun hpaid => by simp [hunpaid] at hpaid
      marked := fun hm => by simp [hmark] at hm }
  · rintro _ ⟨⟩
    exact Payments.own_of_known hknown
  · exact fun hw => absurd hw hstatus
  · intro hpaid
    simp [Finalize.mark, hunpaid] at hpaid
  · exact fun _ => ⟨i, rfl, hknown⟩
  · exact fun _ => ⟨hunpaid, i, rfl, hknown, .inr (by simp)⟩
  · intro j hex
    refine ⟨(h.executed hex).2.1, fun hpaid => ?_⟩
    simp [Finalize.mark, hunpaid] at hpaid
  · intro j hj
    by_cases hji : j = i
    · subst hji
      exact .inr (.inr (.inr (by simp)))
    · rcases h.placed hj with hr | hex | hd | hd
      · simp [Appointment.records, hunpaid] at hr
      · exact .inr (.inl hex)
      · exact .inr (.inr (.inl (by simpa [hji] using hd)))
      · exact .inr (.inr (.inr (by simpa [hji] using hd)))

/-- Stripe executes the refund of an intent that the row does not record. -/
theorem execute {duties : Duties}
    (h : HoldBalance appointmentId s ((0, Pi.single i 1) + duties) a)
    (hunplaced : Unplaced appointmentId s i) :
    HoldBalance appointmentId { s with stripe := s.stripe.execute (DepositRefund.request i) } duties
        a ∧
      HoldLater appointmentId s
        { s with stripe := s.stripe.execute (DepositRefund.request i) } := by
  set t := s.stripe.execute (DepositRefund.request i) with ht
  have hintents : t.intents = s.stripe.intents := Stripe.intents_execute ..
  have hknown : ∀ j, ({ s with stripe := t } : Payments).known appointmentId j =
      s.known appointmentId j := Payments.known_congr hintents
  have hown : ∀ j, ({ s with stripe := t } : Payments).own appointmentId j =
      s.own appointmentId j := by
    intro j
    rw [Payments.own, Payments.own, hintents]
  have hexec : ∀ j, t.executed (.deposit j) = true ↔
      s.stripe.executed (.deposit j) = true ∨ i = j := by
    intro j
    rw [ht, Stripe.executed_execute]
    simp [DepositRefund.request]
  have hduty : ∀ j, j ≠ i → (((0, Pi.single i 1) + duties : Duties).2 j) = duties.2 j := by
    intro j hj
    simp [hj]
  constructor
  · exact {
      row := h.row
      own := fun hid => (hown _).trans (h.own hid)
      waiting := h.waiting
      paid := h.paid
      paid_at := fun hat => by
        obtain ⟨j, hid, hj⟩ := h.paid_at hat
        exact ⟨j, hid, (hknown j).trans hj⟩
      marked := fun hm => by
        obtain ⟨hpaid, j, hid, hj, hplace⟩ := h.marked hm
        refine ⟨hpaid, j, hid, (hknown j).trans hj, ?_⟩
        by_cases hji : j = i
        · exact .inl ((hexec j).2 (.inr hji.symm))
        · rw [hduty j hji] at hplace
          exact hplace.imp_left fun hex => (hexec j).2 (.inl hex)
      executed := fun {j} hex => by
        rcases (hexec j).1 hex with hex | rfl
        · obtain ⟨hj, hrow⟩ := h.executed hex
          exact ⟨(hknown j).trans hj, hrow⟩
        · exact ⟨(hknown i).trans hunplaced.known, hunplaced.row h.row⟩
      placed := fun {j} hj => by
        by_cases hji : j = i
        · exact .inr (.inl ((hexec j).2 (.inr hji.symm)))
        · rcases h.placed ((hknown j).symm.trans hj) with hr | hex | hd | hd
          · exact .inl hr
          · exact .inr (.inl ((hexec j).2 (.inl hex)))
          · exact .inr (.inr (.inl (by simpa using hd)))
          · exact .inr (.inr (.inr (hduty j hji ▸ hd)))
      refunds := fun j => by
        have hcharged : t.charged j = s.stripe.charged j := by rw [Stripe.charged, hintents]; rfl
        have hj := h.refunds j
        dsimp only
        rw [hcharged]
        cases hex : s.stripe.executed (.deposit i) with
        | true =>
          have hsame : t = s.stripe := by
            rw [ht, Stripe.execute, if_pos (show s.stripe.executed (DepositRefund.request i).key
              = true from hex)]
          rw [hsame]
          exact hj
        | false =>
          have hi := h.refunds i
          rw [hex, if_neg Bool.false_ne_true] at hi
          rw [ht, Stripe.refunded_execute_whole hex rfl]
          by_cases hji : i = j
          · subst hji
            rw [if_pos (show (DepositRefund.request i).intentId = i from rfl),
              if_pos ((hexec i).2 (.inr rfl)), hi, zero_add]
            simp [DepositRefund.request, hi]
          · rw [if_neg (show (DepositRefund.request i).intentId ≠ j from hji), add_zero, hj]
            simp [hexec, hji, ← ht]
      elsewhere := fun hrow hne hid => by
        obtain ⟨p, hp, hother⟩ := h.elsewhere hrow hne hid
        exact ⟨p, hintents ▸ hp, hother⟩ }
  · refine ⟨fun hb => ⟨_, hb, .refl _⟩, fun hj => (hown _).trans hj, fun hj => (hknown _).trans hj,
      fun hj => ?_⟩
    unfold Stripe.status? at hj ⊢
    rwa [hintents]

/-- `refundOnlineDeposit` claims the recorded deposit. -/
theorem claim (h : HoldBalance appointmentId s duties a) {now : ℤ} {db : Db}
    (hw : DepositRefund.claim appointmentId i now s.db = some db) :
    HoldBalance appointmentId { s with db := db } ((0, Pi.single i 1) + duties)
        { a with depositPaid := false, depositRefundedAt := some now } ∧
      HoldLater appointmentId s { s with db := db } ∧
      Unplaced appointmentId { s with db := db } i := by
  obtain ⟨b, hb, hp, hget, -⟩ := Db.updateAppointmentWhere_some hw
  obtain rfl : b = a := Option.some.inj (hb.symm.trans h.row)
  simp only [Bool.and_eq_true, beq_iff_eq] at hp
  obtain ⟨⟨hpaid, -⟩, hid⟩ := hp
  obtain ⟨hat, hmark⟩ := h.paid hpaid
  obtain ⟨j, hj, hknown⟩ := h.paid_at hat
  obtain rfl : j = i := Option.some.inj (hj.symm.trans hid)
  have hstatus : b.status ≠ .pendingPayment := by
    intro hw
    simp [(h.waiting hw).1] at hpaid
  have hwrite : HoldBalance appointmentId { s with db := db } ((0, Pi.single j 1) + duties)
      { b with depositPaid := false, depositRefundedAt := some now } ∧
        HoldLater appointmentId s { s with db := db } := by
    refine h.write hw ?_ ?_ ?_ ?_ ?_ ?_ ?_ ?_
    · exact {
        left := id
        unpaid := fun _ _ => rfl
        kept := fun _ => ⟨rfl, .inr rfl⟩
        marked := fun hm => by simp [hmark] at hm }
    · exact fun _ => h.own
    · exact fun hw => absurd hw hstatus
    · exact fun hp => by cases hp
    · exact fun _ => ⟨j, hid, hknown⟩
    · exact fun _ => ⟨rfl, j, hid, hknown, .inr (by simp)⟩
    · exact fun k hex => ⟨(h.executed hex).2.1, fun hp => by cases hp.1⟩
    · intro k hk
      by_cases hkj : k = j
      · subst hkj
        exact .inr (.inr (.inr (by simp)))
      · rcases h.placed hk with hr | hex | hd | hd
        · have hkid := (Appointment.records_iff.1 hr).2.1
          exact absurd (Option.some.inj (hkid.symm.trans hid)) hkj
        · exact .inr (.inl hex)
        · exact .inr (.inr (.inl (by simpa using hd)))
        · exact .inr (.inr (.inr (by simpa [hkj] using hd)))
  refine ⟨hwrite.1, hwrite.2, hknown, fun {c} hc => ?_⟩
  obtain rfl := Option.some.inj (hget.symm.trans hc)
  exact ⟨hstatus, fun hp => by cases hp.1⟩

/-- `start` saves its intent over one that was cancelled, or over none. -/
theorem save (h : HoldBalance appointmentId s duties a) {seen : Appointment}
    (hcanceled : Superseded s seen) (hown : s.own appointmentId i = true) {db : Db}
    (hw : s.db.updateAppointmentWhere appointmentId
      (fun a => a.depositPaymentIntentId == seen.depositPaymentIntentId)
      (fun a => { a with depositPaymentIntentId := some i }) = some db) :
    HoldBalance appointmentId { s with db := db } duties
        { a with depositPaymentIntentId := some i } ∧
      HoldLater appointmentId s { s with db := db } := by
  obtain ⟨b, hb, hp, -, -⟩ := Db.updateAppointmentWhere_some hw
  obtain rfl : b = a := Option.some.inj (hb.symm.trans h.row)
  rw [beq_iff_eq] at hp
  have hfree : ∀ j, b.depositPaymentIntentId = some j → s.known appointmentId j ≠ true := by
    intro j hj hknown
    exact Payments.not_canceled hknown (hcanceled j (hp ▸ hj))
  have hat : b.depositPaidAt = none := by
    by_contra hne
    obtain ⟨j, hj, hknown⟩ := h.paid_at (Option.isSome_iff_ne_none.2 hne)
    exact hfree j hj hknown
  have hmark : b.depositRefundedAt = none := by
    by_contra hne
    obtain ⟨-, j, hj, hknown, -⟩ := h.marked (Option.isSome_iff_ne_none.2 hne)
    exact hfree j hj hknown
  have hunpaid : b.depositPaid = false := by
    rw [Bool.eq_false_iff]
    intro hpaid
    simpa [hat] using (h.paid hpaid).1
  refine h.write hw ?_ ?_ ?_ ?_ ?_ ?_ ?_ ?_
  · exact {
      left := id
      unpaid := fun _ => id
      kept := fun hpaid => by simp [hunpaid] at hpaid
      marked := fun hm => by simp [hmark] at hm }
  · rintro _ ⟨⟩
    exact hown
  · exact fun hw => h.waiting hw
  · exact h.paid
  · intro hat'
    simp [hat] at hat'
  · intro hm
    simp [hmark] at hm
  · intro j hex
    refine ⟨(h.executed hex).2.1, fun hpaid => ?_⟩
    simp [hunpaid] at hpaid
  · intro j hj
    rcases h.placed hj with hr | hrest
    · simp [Appointment.records, hunpaid] at hr
    · exact .inr hrest

/-- A write that sets a status other than waiting and leaves what is recorded alone. -/
theorem leave (h : HoldBalance appointmentId s duties a) {p : Appointment → Bool}
    {f : Appointment → Appointment} {db : Db}
    (hw : s.db.updateAppointmentWhere appointmentId p f = some db)
    (hstatus : (f a).status ≠ .pendingPayment) (hpaid : (f a).depositPaid = a.depositPaid)
    (hat : (f a).depositPaidAt = a.depositPaidAt)
    (hmark : (f a).depositRefundedAt = a.depositRefundedAt)
    (hid : (f a).depositPaymentIntentId = a.depositPaymentIntentId) :
    HoldBalance appointmentId { s with db := db } duties (f a) ∧
      HoldLater appointmentId s { s with db := db } := by
  have hrecords : ∀ j, (f a).records j = a.records j := by
    intro j
    rw [Appointment.records, Appointment.records, hpaid, hmark, hid]
  refine h.write hw ?_ ?_ ?_ ?_ ?_ ?_ ?_ ?_
  · exact {
      left := fun _ => hstatus
      unpaid := fun _ hp => hpaid.trans hp
      kept := fun hp => ⟨hid, .inl (hpaid.trans hp)⟩
      marked := fun hm => ⟨hmark ▸ hm, hid⟩ }
  · rw [hid]
    exact fun _ => h.own
  · exact fun hw => absurd hw hstatus
  · rw [hpaid, hat, hmark]
    exact h.paid
  · rw [hat, hid]
    exact h.paid_at
  · rw [hmark, hpaid, hid]
    exact h.marked
  · rw [hpaid, hid]
    exact fun j hex => ⟨hstatus, (h.executed hex).2.2⟩
  · intro j hj
    rw [hrecords]
    exact h.placed hj

/-- Stripe moves on by itself: it forgets no approval, no cancellation and no amount, and whatever
it approves anew is some call's duty. -/
theorem of_stripe (h : HoldBalance appointmentId s duties a) {t : Stripe}
    (hrefunds : t.refunds = s.stripe.refunds)
    (hold : ∀ j, s.known appointmentId j = true →
      ({ s with stripe := t } : Payments).known appointmentId j = true ∧
        t.charged j = s.stripe.charged j)
    (hnew : ∀ j, ({ s with stripe := t } : Payments).known appointmentId j = true →
      s.known appointmentId j = true ∨ 0 < duties.1 j)
    (hmeta : ∀ j p, s.stripe.intents j = some p →
      ∃ q, t.intents j = some q ∧ q.appointmentId = p.appointmentId)
    (hcanceled : ∀ j, s.stripe.status? j = some .canceled → t.status? j = some .canceled) :
    HoldBalance appointmentId { s with stripe := t } duties a ∧
      HoldLater appointmentId s { s with stripe := t } := by
  have hexec : ∀ k, t.executed k = s.stripe.executed k := by
    intro k
    rw [Stripe.executed, Stripe.executed, hrefunds]
  have hown : ∀ j, s.own appointmentId j = true →
      ({ s with stripe := t } : Payments).own appointmentId j = true := by
    intro j hj
    obtain ⟨p, hp, hid⟩ := (Option.any_eq_true _ _).1 hj
    obtain ⟨q, hq, hsame⟩ := hmeta j p hp
    exact (Option.any_eq_true _ _).2 ⟨q, hq, hsame ▸ hid⟩
  constructor
  · exact {
      row := h.row
      own := fun hid => hown _ (h.own hid)
      waiting := h.waiting
      paid := h.paid
      paid_at := fun hat => by
        obtain ⟨j, hid, hj⟩ := h.paid_at hat
        exact ⟨j, hid, (hold j hj).1⟩
      marked := fun hm => by
        obtain ⟨hpaid, j, hid, hj, hplace⟩ := h.marked hm
        exact ⟨hpaid, j, hid, (hold j hj).1, hplace.imp_left (hexec _).trans⟩
      executed := fun hex => by
        obtain ⟨hj, hrow⟩ := h.executed ((hexec _).symm.trans hex)
        exact ⟨(hold _ hj).1, hrow⟩
      placed := fun {j} hj => by
        rcases hnew j hj with hj | hd
        · exact (h.placed hj).imp_right (Or.imp_left (hexec _).trans)
        · exact .inr (.inr (.inl hd))
      refunds := fun j => by
        have hj := h.refunds j
        simp only [Stripe.refunded] at hj ⊢
        rw [hrefunds, hj, hexec]
        split
        · next hex => rw [(hold j (h.executed hex).1).2]
        · rfl
      elsewhere := fun hrow hne hid => by
        obtain ⟨p, hp, hother⟩ := h.elsewhere hrow hne hid
        obtain ⟨q, hq, hsame⟩ := hmeta _ p hp
        exact ⟨q, hq, hsame ▸ hother⟩ }
  · exact ⟨fun hb => ⟨_, hb, .refl _⟩, hown _, fun hj => (hold _ hj).1, hcanceled _⟩

/-- An open intent gets a verdict; if it is approved, some call is to place it. -/
theorem verdict (h : HoldBalance appointmentId s duties a) {status : IntentStatus}
    (hopen : ∃ p, s.stripe.intents i = some p ∧ p.status = .opened)
    (hduty : status = .succeeded → 0 < duties.1 i) :
    HoldBalance appointmentId { s with stripe := s.stripe.setStatus i status } duties a ∧
      HoldLater appointmentId s { s with stripe := s.stripe.setStatus i status } := by
  obtain ⟨p, hp, hstatus⟩ := hopen
  have hother : ∀ j, j ≠ i → (s.stripe.setStatus i status).intents j = s.stripe.intents j := by
    intro j hj
    rw [Stripe.intents_setStatus, if_neg hj]
  refine h.of_stripe rfl ?_ ?_ ?_ ?_
  · intro j hj
    refine ⟨?_, Stripe.charged_setStatus ..⟩
    have hji : j ≠ i := by
      rintro rfl
      obtain ⟨q, hq, hsucc, -⟩ := Payments.known_iff.1 hj
      obtain rfl : p = q := Option.some.inj (hp.symm.trans hq)
      rw [hstatus] at hsucc
      cases hsucc
    unfold Payments.known at hj ⊢
    rwa [hother j hji]
  · intro j hj
    by_cases hji : j = i
    · subst hji
      obtain ⟨q, hq, hsucc, -⟩ := Payments.known_iff.1 hj
      dsimp only at hq
      rw [Stripe.intents_setStatus, if_pos rfl, hp] at hq
      obtain rfl := Option.some.inj hq
      exact .inr (hduty hsucc)
    · unfold Payments.known at hj ⊢
      rw [hother j hji] at hj
      exact .inl hj
  · intro j q hq
    by_cases hji : j = i
    · subst hji
      refine ⟨{ q with status := status }, ?_, rfl⟩
      rw [Stripe.intents_setStatus, if_pos rfl, hq, Option.map_some]
    · exact ⟨q, (hother j hji).trans hq, rfl⟩
  · intro j hj
    have hji : j ≠ i := by
      rintro rfl
      simp [Stripe.status?, hp, hstatus] at hj
    unfold Stripe.status? at hj ⊢
    rwa [hother j hji]

/-- A cancellation, whether or not it comes in time. -/
theorem cancel (h : HoldBalance appointmentId s duties a) :
    HoldBalance appointmentId
        { s with stripe := (s.stripe.cancelPaymentIntent i).getD s.stripe } duties a ∧
      HoldLater appointmentId s
        { s with stripe := (s.stripe.cancelPaymentIntent i).getD s.stripe } := by
  cases hc : s.stripe.cancelPaymentIntent i with
  | none => exact ⟨h, .refl _ _⟩
  | some t =>
    obtain ⟨hopen, rfl⟩ := Stripe.cancelPaymentIntent_ok hc
    exact h.verdict hopen fun hs => by cases hs

/-- A new intent is open. -/
theorem create (h : HoldBalance appointmentId s duties a) {amount : ℤ} {t : Stripe}
    (hc : s.stripe.createPaymentIntent i amount appointmentId = some t) :
    HoldBalance appointmentId { s with stripe := t } duties a ∧
      HoldLater appointmentId s { s with stripe := t } ∧
      ({ s with stripe := t } : Payments).own appointmentId i = true := by
  obtain ⟨hfresh, rfl⟩ := Stripe.createPaymentIntent_ok hc
  have hother : ∀ j, s.stripe.intents j ≠ none →
      Function.update s.stripe.intents i (some ⟨amount, .opened, appointmentId⟩) j =
        s.stripe.intents j := by
    intro j hj
    have hji : j ≠ i := by
      rintro rfl
      exact hj hfresh
    exact Function.update_of_ne hji ..
  rw [← and_assoc]
  refine ⟨h.of_stripe rfl ?_ ?_ ?_ ?_, by simp [Payments.own]⟩
  · intro j hj
    obtain ⟨p, hp, -⟩ := Payments.known_iff.1 hj
    have hsame := hother j (by simp [hp])
    unfold Payments.known Stripe.charged at *
    dsimp only
    rw [hsame]
    exact ⟨hj, rfl⟩
  · intro j hj
    unfold Payments.known at hj ⊢
    dsimp only at hj
    by_cases hji : j = i
    · subst hji
      simp at hj
    · rw [Function.update_of_ne hji] at hj
      exact .inl hj
  · intro j p hp
    exact ⟨p, (hother j (by simp [hp])).trans hp, rfl⟩
  · intro j hj
    unfold Stripe.status? at hj ⊢
    dsimp only
    rwa [hother j (by intro e; simp [e] at hj)]

end HoldBalance

end Writes

end Barbershop
