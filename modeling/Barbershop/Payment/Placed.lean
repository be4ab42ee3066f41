import Barbershop.Payment.HoldWrites

/-!
# Every approved intent is placed

The steps of the calls on a waiting deposit, one lemma for each kind of call, and from them the
runs: at rest every approved intent is recorded or was given back, and not both.
-/

namespace Barbershop

open Lib

section Steps

variable {currency : String} {appointmentId : ℕ} {s s' : Payments} {m : Duties} {a : Appointment}
  {k : Chance}

/-- A call has moved on, or ended: the balance holds with its new duty, the row has evolved, and
what the call relies on from now on is true. -/
structure Goes (appointmentId : ℕ) {τ : Type} (duty : τ → Duties) (ok : Payments → τ → Prop)
    (s : Payments) (m : Duties) (s' : Payments) (c : Option τ) : Prop where
  whole : ∃ b, HoldBalance appointmentId s' (c.elim 0 duty + m) b
  later : HoldLater appointmentId s s'
  ok : ∀ c' ∈ c, ok s' c'

namespace Goes

variable {τ τ' : Type} {duty : τ → Duties} {ok : Payments → τ → Prop} {duty' : τ' → Duties}
  {ok' : Payments → τ' → Prop}

/-- A call that only looked. -/
theorem look (h : HoldBalance appointmentId s m a) {c : Option τ} (hduty : c.elim 0 duty = 0)
    (hok : ∀ c' ∈ c, ok s c') : Goes appointmentId duty ok s m s c :=
  ⟨⟨a, by rwa [hduty, zero_add]⟩, .refl _ _, hok⟩

/-- A call inside another. -/
theorem within {ρ ρ' : Type} {p : Progress τ ρ} {wrap : τ → τ'} {after : ρ → Progress τ' ρ'}
    (h : Goes appointmentId duty ok s m s' p.running) (hduty : ∀ c, duty' (wrap c) = duty c)
    (hok : ∀ c, ok s' c → ok' s' (wrap c))
    (hafter : ∀ r, (after r).running.elim 0 duty' = 0 ∧ ∀ c' ∈ (after r).running, ok' s' c') :
    Goes appointmentId duty' ok' s m s' (p.within wrap after).running := by
  obtain ⟨b, hb⟩ := h.whole
  cases p with
  | next c =>
    refine ⟨⟨b, ?_⟩, h.later, ?_⟩
    · simpa [Progress.within, hduty] using hb
    · rintro _ ⟨⟩
      exact hok c (h.ok c rfl)
  | done r =>
    obtain ⟨hzero, hr⟩ := hafter r
    refine ⟨⟨b, ?_⟩, h.later, hr⟩
    simpa [Progress.within, hzero] using hb

end Goes

/-- A refund request, which Stripe executes. -/
theorem refund_goes {i : String} {t : Stripe} {τ : Type} {duty : τ → Duties}
    {ok : Payments → τ → Prop} (hk : k.answer = .accepted) (hok : Unplaced appointmentId s i)
    (h : HoldBalance appointmentId s ((0, Pi.single i 1) + m) a)
    (hstep : s.stripe.createRefund (DepositRefund.request i) k.answer = some t) :
    Goes appointmentId duty ok s m { s with stripe := t } none := by
  rw [hk] at hstep
  obtain rfl : s.stripe.execute (DepositRefund.request i) = t := Option.some.inj hstep
  obtain ⟨hb, hl⟩ := h.execute hok
  exact ⟨⟨a, by simpa using hb⟩, hl, by simp⟩

/-- The appointment of an intent is the one of its metadata. -/
theorem Finalize.find_eq {i : String} (hknown : s.known appointmentId i = true)
    (h : HoldBalance appointmentId s m a) : Finalize.find i s = some (appointmentId, a) := by
  obtain ⟨p, hp, -, hmeta⟩ := Payments.known_iff.1 hknown
  cases hfind : Finalize.find i s with
  | none =>
    have := Table.find?_none.1 hfind appointmentId a h.row
    simp [hp, hmeta] at this
  | some found =>
    obtain ⟨id, b⟩ := found
    obtain ⟨hrow, hmatch⟩ := Table.find?_some hfind
    have hid : id = appointmentId := by
      by_contra hne
      simp only [Bool.or_eq_true, beq_iff_eq, hp, Option.any_some, hmeta] at hmatch
      rcases hmatch with hb | hid
      · obtain ⟨q, hq, hother⟩ := h.elsewhere hrow hne hb
        obtain rfl : p = q := Option.some.inj (hp.symm.trans hq)
        exact hother hmeta
      · exact hne hid.symm
    subst hid
    obtain rfl : b = a := Option.some.inj (hrow.symm.trans h.row)
    rfl

/-- The row no longer waits: what was read decides what is left to do. -/
theorem Finalize.settled_goes {i : String} {seen : Appointment}
    (hknown : s.known appointmentId i = true) (hev : Evolves seen a)
    (hstatus : a.status ≠ .pendingPayment)
    (hfresh : seen.status = .pendingPayment → a.records i = false)
    (h : HoldBalance appointmentId s ((Pi.single i 1, 0) + m) a) :
    Goes appointmentId Finalize.duty (Finalize.Ok appointmentId) s m s
      (Finalize.settled i appointmentId seen).running := by
  have hrow : ∀ {b}, s.db.appointments.get? appointmentId = some b → b = a := fun hb =>
    Option.some.inj (hb.symm.trans h.row)
  unfold Finalize.settled
  split
  · next hseen =>
    refine ⟨⟨a, h⟩, .refl _ _, ?_⟩
    rintro _ ⟨⟩
    refine ⟨hknown, rfl, fun hb => ?_⟩
    rw [hrow hb]
    exact ⟨hstatus, hev.unpaid (by simp [hseen.1]) hseen.2⟩
  · split
    · next hseen =>
      obtain ⟨hid, hplace⟩ := hseen
      refine ⟨⟨a, ?_⟩, .refl _ _, by rintro _ ⟨⟩⟩
      simp only [Progress.running_done, Option.elim_none, zero_add]
      -- the duty of this call is not needed: the row records the intent, or carries its mark
      have hmarked : a.depositRefundedAt.isSome = true → a.depositPaymentIntentId = some i →
          s.stripe.executed (.deposit i) = true ∨ 0 < m.2 i := by
        intro hm hida
        obtain ⟨-, j, hj, -, hduty⟩ := h.marked hm
        obtain rfl : j = i := Option.some.inj (hj.symm.trans hida)
        simpa using hduty
      refine h.drop ?_
      rcases hplace with hpaid | hmark
      · obtain ⟨hida, hpaid | hmark⟩ := hev.kept hpaid
        · exact .inl (Appointment.records_iff.2 ⟨hpaid, hida.trans hid, (h.paid hpaid).2⟩)
        · exact .inr (hmarked hmark (hida.trans hid))
      · obtain ⟨hmark, hida⟩ := hev.marked hmark
        exact .inr (hmarked hmark (hida.trans hid))
    · next hcancelled hseen =>
      refine ⟨⟨a, h.ask⟩, .refl _ _, ?_⟩
      rintro _ ⟨⟩
      refine ⟨hknown, fun hb => ?_⟩
      rw [hrow hb]
      refine ⟨hstatus, fun hrec => ?_⟩
      by_cases hwait : seen.status = .pendingPayment
      · exact h.not_records (hfresh hwait) hrec
      · cases hpaid : seen.depositPaid with
        | false =>
          have := hev.unpaid hwait hpaid
          simp [this] at hrec
        | true => exact hseen ⟨(hev.kept hpaid).1 ▸ hrec.2, .inl hpaid⟩

theorem Finalize.goes {c : Finalize} {p : Progress Finalize FinalizeResult}
    (hk : k.answer = .accepted) (hok : c.Ok appointmentId s) (hfresh : c.Fresh s)
    (h : HoldBalance appointmentId s (c.duty + m) a) (hstep : c.step k s = some (s', p)) :
    Goes appointmentId Finalize.duty (Finalize.Ok appointmentId) s m s' p.running := by
  cases c with
  | reading i =>
    simp only [Finalize.step, Finalize.find_eq hok h] at hstep
    cases hstep
    refine ⟨⟨a, h⟩, .refl _ _, ?_⟩
    rintro _ ⟨⟩
    refine ⟨hok, rfl, fun hb => ?_⟩
    rw [Option.some.inj (hb.symm.trans h.row)]
    exact .refl a
  | applying i id seen =>
    obtain ⟨hknown, rfl, hseen⟩ := hok
    simp only [Finalize.step] at hstep
    split at hstep
    · next db hw =>
      cases hstep
      obtain ⟨hb, hl⟩ := HoldBalance.confirm hknown h hw
      exact ⟨⟨_, by simpa using hb⟩, hl, by rintro _ ⟨⟩⟩
    · next hw =>
      cases hstep
      have hstatus : a.status ≠ .pendingPayment := by
        simpa using Db.updateAppointmentWhere_none hw h.row
      exact settled_goes hknown (hseen h.row) hstatus
        (fun hwait => (hfresh hwait a h.row).resolve_left hstatus) h
  | marking i id =>
    obtain ⟨hknown, rfl, hrow⟩ := hok
    obtain ⟨hstatus, hunpaid⟩ := hrow h.row
    simp only [Finalize.step] at hstep
    split at hstep
    · next db hw =>
      cases hstep
      obtain ⟨hb, hl⟩ := HoldBalance.mark hknown h hstatus hunpaid hw
      obtain ⟨b, hb₀, -, hget, -⟩ := Db.updateAppointmentWhere_some hw
      obtain rfl : b = a := Option.some.inj (hb₀.symm.trans h.row)
      refine ⟨⟨_, hb⟩, hl, ?_⟩
      rintro _ ⟨⟩
      refine ⟨hknown, fun {c} hc => ?_⟩
      obtain rfl := Option.some.inj (hget.symm.trans hc)
      exact ⟨hstatus, fun hrec => by simp [Finalize.mark, hunpaid] at hrec⟩
    · next hw =>
      cases hstep
      have hmark : a.depositRefundedAt.isSome = true := by
        simpa using Db.updateAppointmentWhere_none hw h.row
      obtain ⟨-, j, hj, -, hduty⟩ := h.marked hmark
      have hid := (hfresh a h.row).resolve_left (Option.isSome_iff_ne_none.1 hmark)
      obtain rfl : j = i := Option.some.inj (hj.symm.trans hid)
      have hdrop := HoldBalance.drop h (.inr (by simpa [Finalize.duty] using hduty))
      exact ⟨⟨a, by simpa using hdrop⟩, .refl _ _, by rintro _ ⟨⟩⟩
  | refunding i r =>
    simp only [Finalize.step, Option.map_eq_some_iff] at hstep
    obtain ⟨t, hanswer, hout⟩ := hstep
    cases hout
    exact refund_goes hk hok h hanswer

theorem DepositRefund.goes {c : DepositRefund}
    {p : Progress DepositRefund (Except PaymentError Bool)} (hk : k.answer = .accepted)
    (hok : c.Ok appointmentId s) (h : HoldBalance appointmentId s (c.duty + m) a)
    (hstep : c.step appointmentId k s = some (s', p)) :
    Goes appointmentId DepositRefund.duty (DepositRefund.Ok appointmentId) s m s' p.running := by
  cases c with
  | reading =>
    simp only [DepositRefund.duty, zero_add] at h
    simp only [DepositRefund.step] at hstep
    split at hstep
    all_goals
      cases hstep
      refine .look h rfl ?_
      rintro _ ⟨⟩
    trivial
  | claiming i =>
    simp only [DepositRefund.duty, zero_add] at h
    simp only [DepositRefund.step] at hstep
    split at hstep
    · cases hstep
      exact .look h rfl (by rintro _ ⟨⟩)
    · next db hw =>
      cases hstep
      obtain ⟨hb, hl, hun⟩ := h.claim hw
      refine ⟨⟨_, hb⟩, hl, ?_⟩
      rintro _ ⟨⟩
      exact hun
  | calling i claimedAt =>
    simp only [DepositRefund.step, Option.map_eq_some_iff] at hstep
    obtain ⟨t, hanswer, hout⟩ := hstep
    cases hout
    rw [hk]
    exact refund_goes hk hok h hanswer
  | undoing i claimedAt => exact absurd hok id

/-- A call goes on to finalize an approved intent. -/
theorem finalize_goes {τ : Type} {wrap : Finalize → τ} {duty : τ → Duties}
    {ok : Payments → τ → Prop} {i : String} (hknown : s.known appointmentId i = true)
    (h : HoldBalance appointmentId s m a) (hduty : ∀ c, duty (wrap c) = c.duty)
    (hok : ∀ c : Finalize, c.Ok appointmentId s → ok s (wrap c)) :
    Goes appointmentId duty ok s m s (some (wrap (.reading i))) := by
  refine ⟨⟨a, ?_⟩, .refl _ _, ?_⟩
  · rw [Option.elim_some, hduty]
    exact h.add _
  · rintro _ ⟨⟩
    exact hok _ hknown

theorem StartDeposit.goes {c : StartDeposit} {p : Progress StartDeposit StartDeposit.Output}
    (hk : k.answer = .accepted) (hok : c.Ok appointmentId s)
    (hfresh : ∀ f, c = .finalizing f → f.Fresh s)
    (h : HoldBalance appointmentId s (c.duty + m) a)
    (hstep : c.step currency appointmentId k s = some (s', p)) :
    Goes appointmentId StartDeposit.duty (StartDeposit.Ok appointmentId) s m s' p.running := by
  cases c with
  | reading =>
    simp only [StartDeposit.duty, zero_add] at h
    simp only [StartDeposit.step] at hstep
    split at hstep
    · cases hstep
      exact .look h rfl (by rintro _ ⟨⟩)
    · split at hstep
      · cases hstep
        exact .look h rfl (by rintro _ ⟨⟩)
      · split at hstep
        · next hnone =>
          cases hstep
          refine .look h rfl ?_
          rintro _ ⟨⟩ i hi
          simp [hnone] at hi
        · next appt hrow _ _ _ i hid =>
          cases hstep
          obtain rfl : appt = a := Option.some.inj (hrow.symm.trans h.row)
          refine .look h rfl ?_
          rintro _ ⟨⟩
          exact ⟨hid, h.own hid⟩
  | retrieving seen i =>
    simp only [StartDeposit.duty, zero_add] at h
    simp only [StartDeposit.step] at hstep
    split at hstep
    · cases hstep
      exact .look h rfl (by rintro _ ⟨⟩)
    · cases hstep
      exact .look h rfl (by rintro _ ⟨⟩)
    · next hcanceled =>
      cases hstep
      refine .look h rfl ?_
      rintro _ ⟨⟩ j hj
      obtain rfl : i = j := Option.some.inj (hok.1.symm.trans hj)
      exact hcanceled
    · next hsucc =>
      cases hstep
      exact finalize_goes (Payments.known_of_own hok.2 hsucc) h (fun _ => rfl) (fun _ => id)
  | creating seen =>
    simp only [StartDeposit.duty, zero_add] at h
    simp only [StartDeposit.step, Option.map_eq_some_iff] at hstep
    obtain ⟨t, hc, hout⟩ := hstep
    cases hout
    obtain ⟨hb, hl, hown⟩ := h.create hc
    refine ⟨⟨a, by simpa [StartDeposit.duty] using hb⟩, hl, ?_⟩
    rintro _ ⟨⟩
    exact ⟨fun i hi => hl.canceled (hok i hi), hown⟩
  | saving seen j =>
    simp only [StartDeposit.duty, zero_add] at h
    simp only [StartDeposit.step] at hstep
    split at hstep
    · next db hw =>
      cases hstep
      obtain ⟨hb, hl⟩ := h.save hok.1 hok.2 hw
      exact ⟨⟨_, by simpa using hb⟩, hl, by rintro _ ⟨⟩⟩
    · cases hstep
      refine .look h rfl ?_
      rintro _ ⟨⟩
      trivial
  | abandoning j =>
    simp only [StartDeposit.duty, zero_add] at h
    cases hstep
    obtain ⟨hb, hl⟩ := h.cancel
    refine ⟨⟨a, by simpa [StartDeposit.duty] using hb⟩, hl, ?_⟩
    rintro _ ⟨⟩
    trivial
  | finalizing c =>
    obtain ⟨⟨s₁, q⟩, hc, hout⟩ := Option.map_eq_some_iff.1 hstep
    cases hout
    refine Goes.within (Finalize.goes hk hok (hfresh c rfl) h hc) (fun _ => rfl) (fun _ => id) ?_
    intro r
    exact ⟨rfl, by rintro _ ⟨⟩⟩

theorem ConfirmDeposit.goes {c : ConfirmDeposit}
    {p : Progress ConfirmDeposit (Except PaymentError FinalizeResult)}
    (hk : k.answer = .accepted) (hok : c.Ok appointmentId s)
    (hfresh : ∀ f, c = .finalizing f → f.Fresh s)
    (h : HoldBalance appointmentId s (c.duty + m) a)
    (hstep : c.step appointmentId k s = some (s', p)) :
    Goes appointmentId ConfirmDeposit.duty (ConfirmDeposit.Ok appointmentId) s m s' p.running := by
  cases c with
  | reading =>
    simp only [ConfirmDeposit.duty, zero_add] at h
    simp only [ConfirmDeposit.step] at hstep
    split at hstep
    · cases hstep
      exact .look h rfl (by rintro _ ⟨⟩)
    · next appt hrow =>
      obtain rfl : appt = a := Option.some.inj (hrow.symm.trans h.row)
      split at hstep
      · cases hstep
        exact .look h rfl (by rintro _ ⟨⟩)
      · split at hstep
        · cases hstep
          exact .look h rfl (by rintro _ ⟨⟩)
        · next hid =>
          cases hstep
          refine .look h rfl ?_
          rintro _ ⟨⟩
          exact h.own hid
  | retrieving i =>
    simp only [ConfirmDeposit.duty, zero_add] at h
    simp only [ConfirmDeposit.step] at hstep
    split at hstep
    · cases hstep
      exact .look h rfl (by rintro _ ⟨⟩)
    · next hsucc =>
      cases hstep
      exact finalize_goes (Payments.known_of_own hok hsucc) h (fun _ => rfl) (fun _ => id)
    · cases hstep
      exact .look h rfl (by rintro _ ⟨⟩)
  | finalizing c =>
    obtain ⟨⟨s₁, q⟩, hc, hout⟩ := Option.map_eq_some_iff.1 hstep
    cases hout
    refine Goes.within (Finalize.goes hk hok (hfresh c rfl) h hc) (fun _ => rfl) (fun _ => id) ?_
    intro r
    exact ⟨rfl, by rintro _ ⟨⟩⟩

theorem ReleaseHold.goes {c : ReleaseHold} {p : Progress ReleaseHold Bool}
    (hk : k.answer = .accepted) (hok : c.Ok appointmentId s)
    (hfresh : ∀ f, c = .finalizing f → f.Fresh s)
    (h : HoldBalance appointmentId s (c.duty + m) a)
    (hstep : c.step appointmentId k s = some (s', p)) :
    Goes appointmentId ReleaseHold.duty (ReleaseHold.Ok appointmentId) s m s' p.running := by
  cases c with
  | reading =>
    simp only [ReleaseHold.duty, zero_add] at h
    simp only [ReleaseHold.step] at hstep
    split at hstep
    · cases hstep
      exact .look h rfl (by rintro _ ⟨⟩)
    · next appt hrow =>
      obtain rfl : appt = a := Option.some.inj (hrow.symm.trans h.row)
      split at hstep
      · cases hstep
        exact .look h rfl (by rintro _ ⟨⟩)
      · split at hstep
        · cases hstep
          refine .look h rfl ?_
          rintro _ ⟨⟩
          trivial
        · next hid =>
          cases hstep
          refine .look h rfl ?_
          rintro _ ⟨⟩
          exact h.own hid
  | retrieving i =>
    simp only [ReleaseHold.duty, zero_add] at h
    simp only [ReleaseHold.step] at hstep
    split at hstep
    · cases hstep
      exact .look h rfl (by rintro _ ⟨⟩)
    · next hsucc =>
      cases hstep
      exact finalize_goes (Payments.known_of_own hok hsucc) h (fun _ => rfl) (fun _ => id)
    all_goals
      cases hstep
      refine .look h rfl ?_
      rintro _ ⟨⟩
      trivial
  | canceling i =>
    simp only [ReleaseHold.duty, zero_add] at h
    cases hstep
    obtain ⟨hb, hl⟩ := h.cancel
    refine ⟨⟨a, by simpa [ReleaseHold.duty] using hb⟩, hl, ?_⟩
    rintro _ ⟨⟩
    trivial
  | releasing =>
    simp only [ReleaseHold.duty, zero_add] at h
    simp only [ReleaseHold.step] at hstep
    split at hstep
    · next db hw =>
      cases hstep
      obtain ⟨hb, hl⟩ := h.leave hw (fun e => by cases e) rfl rfl rfl rfl
      exact ⟨⟨_, by simpa using hb⟩, hl, by rintro _ ⟨⟩⟩
    · cases hstep
      exact .look h rfl (by rintro _ ⟨⟩)
  | finalizing c =>
    obtain ⟨⟨s₁, q⟩, hc, hout⟩ := Option.map_eq_some_iff.1 hstep
    cases hout
    refine Goes.within (Finalize.goes hk hok (hfresh c rfl) h hc) (fun _ => rfl) (fun _ => id) ?_
    intro r
    exact ⟨rfl, by rintro _ ⟨⟩⟩

theorem SettleForStaff.goes {c : SettleForStaff} {p : Progress SettleForStaff (Result Settled)}
    (hk : k.answer = .accepted) (hok : c.Ok appointmentId s)
    (hfresh : ∀ f, c = .finalizing f → f.Fresh s)
    (h : HoldBalance appointmentId s (c.duty + m) a)
    (hstep : c.step appointmentId k s = some (s', p)) :
    Goes appointmentId SettleForStaff.duty (SettleForStaff.Ok appointmentId) s m s' p.running := by
  cases c with
  | reading =>
    simp only [SettleForStaff.duty, zero_add] at h
    simp only [SettleForStaff.step] at hstep
    split at hstep
    · cases hstep
      exact .look h rfl (by rintro _ ⟨⟩)
    · next appt hrow =>
      obtain rfl : appt = a := Option.some.inj (hrow.symm.trans h.row)
      split at hstep
      · cases hstep
        exact .look h rfl (by rintro _ ⟨⟩)
      · next hid =>
        split at hstep
        · cases hstep
          refine .look h rfl ?_
          rintro _ ⟨⟩
          exact h.own hid
        · cases hstep
          exact .look h rfl (by rintro _ ⟨⟩)
  | retrieving i =>
    simp only [SettleForStaff.duty, zero_add] at h
    simp only [SettleForStaff.step] at hstep
    split at hstep
    · cases hstep
      exact .look h rfl (by rintro _ ⟨⟩)
    · next hsucc =>
      cases hstep
      exact finalize_goes (Payments.known_of_own hok hsucc) h (fun _ => rfl) (fun _ => id)
    · cases hstep
      exact .look h rfl (by rintro _ ⟨⟩)
    · cases hstep
      refine .look h rfl ?_
      rintro _ ⟨⟩
      trivial
  | canceling i =>
    simp only [SettleForStaff.duty, zero_add] at h
    simp only [SettleForStaff.step] at hstep
    split at hstep
    · cases hstep
      exact .look h rfl (by rintro _ ⟨⟩)
    · next t ht =>
      cases hstep
      obtain ⟨hopen, rfl⟩ := Stripe.cancelPaymentIntent_ok ht
      obtain ⟨hb, hl⟩ := @HoldBalance.verdict _ _ _ _ _ h .canceled hopen fun e => by cases e
      exact ⟨⟨a, by simpa using hb⟩, hl, by rintro _ ⟨⟩⟩
  | finalizing c =>
    obtain ⟨⟨s₁, q⟩, hc, hout⟩ := Option.map_eq_some_iff.1 hstep
    cases hout
    refine Goes.within (Finalize.goes hk hok (hfresh c rfl) h hc) (fun _ => rfl) (fun _ => id) ?_
    intro r
    exact ⟨rfl, by rintro _ ⟨⟩⟩

theorem SetStatus.goes {c : SetStatus} {p : Progress SetStatus (Result Unit)}
    (hk : k.answer = .accepted) (hok : c.Ok appointmentId s)
    (hfresh : ∀ u seen f, c = .settling u seen (.finalizing f) → f.Fresh s)
    (h : HoldBalance appointmentId s (c.duty + m) a)
    (hstep : c.step appointmentId k s = some (s', p)) :
    Goes appointmentId SetStatus.duty (SetStatus.Ok appointmentId) s m s' p.running := by
  cases c with
  | reading u =>
    simp only [SetStatus.duty, zero_add] at h
    simp only [SetStatus.step] at hstep
    split at hstep
    · cases hstep
      exact .look h rfl (by rintro _ ⟨⟩)
    · split at hstep
      · cases hstep
        exact .look h rfl (by rintro _ ⟨⟩)
      · split at hstep
        · cases hstep
          refine .look h rfl ?_
          rintro _ ⟨⟩
          exact ⟨hok, trivial⟩
        · cases hstep
          refine .look h rfl ?_
          rintro _ ⟨⟩
          exact hok
  | settling u seen c =>
    obtain ⟨⟨s₁, q⟩, hc, hout⟩ := Option.map_eq_some_iff.1 hstep
    cases hout
    obtain ⟨hstaff, hok⟩ := hok
    refine Goes.within
      (SettleForStaff.goes hk hok (fun f e => hfresh u seen f (e ▸ rfl)) h hc) (fun _ => rfl)
      (fun _ hc' => ⟨hstaff, hc'⟩) ?_
    intro r
    rcases r with e | (_ | _ | _)
    · exact ⟨rfl, by rintro _ ⟨⟩⟩
    all_goals
      refine ⟨rfl, ?_⟩
      rintro _ ⟨⟩
      exact hstaff
  | rereading u seen =>
    simp only [SetStatus.duty, zero_add] at h
    cases hstep
    refine .look h rfl ?_
    rintro _ ⟨⟩
    exact hok
  | updating u seen held =>
    simp only [SetStatus.duty, zero_add] at h
    simp only [SetStatus.step] at hstep
    split at hstep
    · cases hstep
      exact .look h rfl (by rintro _ ⟨⟩)
    · split at hstep
      · cases hstep
        exact .look h rfl (by rintro _ ⟨⟩)
      · next db hw =>
        cases hstep
        have hstatus : (SetStatus.write u seen held a).status ≠ .pendingPayment := by
          intro e
          have hstaff : u.status.staff = true := hok
          rw [show u.status = .pendingPayment from e] at hstaff
          cases hstaff
        obtain ⟨hb, hl⟩ := h.leave hw hstatus rfl rfl rfl rfl
        split
        all_goals
          refine ⟨⟨_, by simpa [SetStatus.duty, DepositRefund.duty] using hb⟩, hl, ?_⟩
          rintro _ ⟨⟩
        trivial
  | refunding c =>
    obtain ⟨⟨s₁, q⟩, hc, hout⟩ := Option.map_eq_some_iff.1 hstep
    cases hout
    refine Goes.within (DepositRefund.goes hk hok h hc) (fun _ => rfl) (fun _ => id) ?_
    intro r
    exact ⟨rfl, by rintro _ ⟨⟩⟩

/-- What a call of one kind keeps, the system keeps. -/
theorem Goes.keeps {τ : Type} {wrap : τ → HoldCall} {duty : τ → Duties}
    {ok : Payments → τ → Prop} {c : Option τ} (h : Goes appointmentId duty ok s m s' c)
    (hduty : ∀ c, (wrap c).duty = duty c)
    (hok : ∀ c, ok s' c → (wrap c).Ok appointmentId s') (c₀ : Option HoldCall) :
    (holdInv appointmentId).Kept s c₀ m s' (c.map wrap) where
  whole := by
    obtain ⟨b, hb⟩ := h.whole
    cases c with
    | none => exact ⟨b, hb⟩
    | some c => exact ⟨b, by simpa [holdInv, hduty] using hb⟩
  mine b hb := by
    obtain ⟨c', hc', rfl⟩ := Option.map_eq_some_iff.1 hb
    exact hok c' (h.ok c' hc')
  others d hd _ := HoldCall.Ok.later hd h.later
  apart _ _ _ _ _ := trivial

theorem hold_keeps {c : HoldCall} {out : Payments × Option HoldCall} (hfresh : c.Fresh s)
    (hstep : (depositCalls currency appointmentId).step k c s = some out) :
    (holdInv appointmentId).Keeps s (some c) out := by
  simp only [depositCalls, Option.ite_none_right_eq_some] at hstep
  obtain ⟨hk, hstep⟩ := hstep
  rintro m ⟨a, h⟩ hc
  have hok : c.Ok appointmentId s := hc c rfl
  cases c with
  | start c =>
    obtain ⟨⟨s₁, q⟩, hc, rfl⟩ := Option.map_eq_some_iff.1 hstep
    refine (StartDeposit.goes hk hok ?_ h hc).keeps (fun _ => rfl) (fun _ => id) _
    rintro f rfl
    exact hfresh f rfl
  | confirm c =>
    obtain ⟨⟨s₁, q⟩, hc, rfl⟩ := Option.map_eq_some_iff.1 hstep
    refine (ConfirmDeposit.goes hk hok ?_ h hc).keeps (fun _ => rfl) (fun _ => id) _
    rintro f rfl
    exact hfresh f rfl
  | webhook c =>
    obtain ⟨⟨s₁, q⟩, hc, rfl⟩ := Option.map_eq_some_iff.1 hstep
    exact (Finalize.goes hk hok (hfresh c rfl) h hc).keeps (fun _ => rfl) (fun _ => id) _
  | release c =>
    obtain ⟨⟨s₁, q⟩, hc, rfl⟩ := Option.map_eq_some_iff.1 hstep
    refine (ReleaseHold.goes hk hok ?_ h hc).keeps (fun _ => rfl) (fun _ => id) _
    rintro f rfl
    exact hfresh f rfl
  | setStatus c =>
    obtain ⟨⟨s₁, q⟩, hc, rfl⟩ := Option.map_eq_some_iff.1 hstep
    refine (SetStatus.goes hk hok ?_ h hc).keeps (fun _ => rfl) (fun _ => id) _
    rintro u seen f rfl
    exact hfresh f rfl

/-- A call begins, after a move of Stripe or none. -/
theorem begin_keeps_hold {c : HoldCall} (h : HoldBalance appointmentId s' (c.duty + m) a)
    (hl : HoldLater appointmentId s s') (hok : c.Ok appointmentId s') :
    (holdInv appointmentId).Kept s none m s' (some c) where
  whole := ⟨a, h⟩
  mine := by
    rintro _ ⟨⟩
    exact hok
  others d hd _ := HoldCall.Ok.later hd hl
  apart _ _ _ _ _ := trivial

theorem hold_begins {e : HoldEvent} {out : Payments × Option HoldCall}
    (hbegin : (depositCalls currency appointmentId).event e s = some out) :
    (holdInv appointmentId).Keeps s none out := by
  rintro m ⟨a, h⟩ -
  have h : HoldBalance appointmentId s m a := by simpa using h
  cases e with
  | start | confirm | release =>
    cases hbegin
    exact begin_keeps_hold (h.add _) (.refl _ _) trivial
  | webhook i =>
    obtain ⟨hknown, hout⟩ := Option.ite_none_right_eq_some.1 hbegin
    cases hout
    exact begin_keeps_hold (h.add _) (.refl _ _) hknown
  | setStatus u =>
    obtain ⟨hstaff, hout⟩ := Option.ite_none_right_eq_some.1 hbegin
    cases hout
    exact begin_keeps_hold (h.add _) (.refl _ _) hstaff
  | approve i =>
    obtain ⟨hown, hout⟩ := Option.ite_none_right_eq_some.1 hbegin
    obtain ⟨t, ht, rfl⟩ := Option.map_eq_some_iff.1 hout
    obtain ⟨hopen, rfl⟩ := Stripe.approve_ok ht
    obtain ⟨hb, hl⟩ := @HoldBalance.verdict _ _ _ _ _
      (h.add (Finalize.reading i).duty) .succeeded hopen fun _ => by simp [Finalize.duty]
    refine begin_keeps_hold hb hl ?_
    obtain ⟨p, hp, -⟩ := hopen
    refine Payments.known_of_own (hl.own hown) ?_
    simp [Stripe.status?, Stripe.intents_setStatus, hp]

end Steps

/-- An appointment that waits for its deposit, with nothing paid for it; the intents of other
appointments are their own. -/
structure Waiting (appointmentId : ℕ) (s : Payments) (a : Appointment) : Prop where
  row : s.db.appointments.get? appointmentId = some a
  status : a.status = .pendingPayment
  unpaid : a.depositPaid = false
  unpaid_at : a.depositPaidAt = none
  unmarked : a.depositRefundedAt = none
  own : ∀ {i}, a.depositPaymentIntentId = some i → s.own appointmentId i = true
  unapproved : ∀ i, s.known appointmentId i = false
  refunds : s.stripe.refunds = []
  elsewhere : ∀ {id b i}, s.db.appointments.get? id = some b → id ≠ appointmentId →
    b.depositPaymentIntentId = some i →
      ∃ p, s.stripe.intents i = some p ∧ p.appointmentId ≠ appointmentId

theorem Waiting.balance {appointmentId : ℕ} {s : Payments} {a : Appointment}
    (h : Waiting appointmentId s a) : HoldBalance appointmentId s 0 a where
  row := h.row
  own := h.own
  waiting _ := ⟨h.unpaid, h.unpaid_at, h.unmarked⟩
  paid hp := by simp [h.unpaid] at hp
  paid_at hp := by simp [h.unpaid_at] at hp
  marked hp := by simp [h.unmarked] at hp
  executed hex := by simp [Stripe.executed, h.refunds] at hex
  placed hknown := by simp [h.unapproved] at hknown
  refunds := by simp [Stripe.refunded, Stripe.executed, h.refunds]
  elsewhere := h.elsewhere

/-- In every run in which no call refunds what it read as waiting and another has recorded, and no
call meets the mark of another intent: once all calls have finished, every approved intent is the
recorded deposit and was not given back, or is not recorded and was given back in full. -/
theorem deposits_placed {currency : String} {appointmentId : ℕ} {s : Payments} {a : Appointment}
    (hwaiting : Waiting appointmentId s a) {moves : List (Move HoldEvent Chance)}
    {x : Calls Payments HoldCall}
    (hmeets : (depositCalls currency appointmentId).machine.Meets
      (CallSystem.When (fun _ _ => True) fun _ c s => c.Fresh s) (.idle s) moves)
    (hrun : (depositCalls currency appointmentId).machine.run (.idle s) moves = some x)
    (hquiet : x.quiet = true) :
    ∃ b, x.shared.db.appointments.get? appointmentId = some b ∧
      ∀ i, x.shared.known appointmentId i = true →
        (b.records i = true ∧ x.shared.stripe.refunded i = 0) ∨
        (b.records i = false ∧ x.shared.stripe.refunded i = x.shared.stripe.charged i) := by
  have hinv := CallInv.Holds.run (I := holdInv appointmentId) (fun _ h => hold_begins h)
    (fun hfresh h => hold_keeps hfresh h) (CallInv.holds_idle ⟨a, hwaiting.balance⟩) hmeets hrun
  obtain ⟨b, hb⟩ := hinv.quiet hquiet
  refine ⟨b, hb.row, fun i hknown => ?_⟩
  have hrefunds := hb.refunds i
  rcases hb.placed hknown with hr | hex | hd | hd
  · refine .inl ⟨hr, ?_⟩
    rw [hrefunds, if_neg]
    intro hex
    obtain ⟨hpaid, hid, -⟩ := Appointment.records_iff.1 hr
    exact (hb.executed hex).2.2 ⟨hpaid, hid⟩
  · refine .inr ⟨?_, ?_⟩
    · rw [Bool.eq_false_iff]
      intro hr
      obtain ⟨hpaid, hid, -⟩ := Appointment.records_iff.1 hr
      exact (hb.executed hex).2.2 ⟨hpaid, hid⟩
    · rw [hrefunds, if_pos hex]
  · exact absurd hd (lt_irrefl 0)
  · exact absurd hd (lt_irrefl 0)

/-- The visit while it waits for a deposit of thirty. -/
def heldVisit : Payments where
  db := { Db.empty with appointments := Table.empty.insert { visit with
    status := .pendingPayment
    holdExpiresAt := some 900
    depositAmount := some 30 } }
  stripe := { intents := fun _ => none, refunds := [] }

theorem heldVisit_waiting : Waiting 1 heldVisit { visit with
    status := .pendingPayment
    holdExpiresAt := some 900
    depositAmount := some 30 } where
  row := rfl
  status := rfl
  unpaid := rfl
  unpaid_at := rfl
  unmarked := rfl
  own := by simp [visit]
  unapproved _ := rfl
  refunds := rfl
  elsewhere := by
    intro id b i hb hne
    simp only [heldVisit, Table.get?_insert] at hb
    split at hb
    · next h => exact absurd h hne
    · cases hb

/-- A step that may open the payment intent `newIntent`. -/
def opening (newIntent : String) : Chance := { chance 0 .accepted with newIntent := newIntent }

/-- The client opens the payment screen, pays, and the webhook comes. -/
def paidOnce : List (Move HoldEvent Chance) :=
  [.event .start, .step 1 (opening "pi_1"), .step 1 (opening "pi_1"), .step 1 (opening "pi_1"),
    .event (.approve "pi_1"), .step 2 (chance 1 .accepted), .step 2 (chance 1 .accepted)]

theorem paidOnce_placed : ∃ x b,
    (depositCalls "BRL" 1).machine.run (.idle heldVisit) paidOnce = some x ∧
      x.shared.db.appointments.get? 1 = some b ∧ x.shared.known 1 "pi_1" = true ∧
        ((b.records "pi_1" = true ∧ x.shared.stripe.refunded "pi_1" = 0) ∨
          (b.records "pi_1" = false ∧
            x.shared.stripe.refunded "pi_1" = x.shared.stripe.charged "pi_1")) := by
  have hmeets : (depositCalls "BRL" 1).machine.Meets
      (CallSystem.When (fun _ _ => True) fun _ c s => c.Fresh s) (.idle heldVisit) paidOnce := by
    decide +kernel
  have hsome : ((depositCalls "BRL" 1).machine.run (.idle heldVisit) paidOnce).any
      (fun x => x.quiet && x.shared.known 1 "pi_1") = true := by
    decide +kernel
  obtain ⟨x, hx, hout⟩ := (Option.any_eq_true _ _).1 hsome
  obtain ⟨hquiet, hknown⟩ := Bool.and_eq_true_iff.1 hout
  obtain ⟨b, hb, hplaced⟩ := deposits_placed heldVisit_waiting hmeets hx hquiet
  exact ⟨x, b, hx, hb, hknown, hplaced "pi_1" hknown⟩

/-- The webhook comes twice: both calls read the appointment waiting, and one confirms it. -/
def confirmedTwice : List (Move HoldEvent Chance) :=
  [.event .start, .step 1 (opening "pi_1"), .step 1 (opening "pi_1"), .step 1 (opening "pi_1"),
    .event (.approve "pi_1"), .event (.webhook "pi_1"), .step 2 (chance 1 .accepted),
    .step 3 (chance 1 .accepted), .step 2 (chance 2 .accepted), .step 3 (chance 3 .accepted),
    .step 3 (chance 4 .accepted)]

theorem confirmedTwice_recorded_and_refunded : ∃ x b,
    (depositCalls "BRL" 1).machine.run (.idle heldVisit) confirmedTwice = some x ∧
      x.quiet = true ∧ x.shared.db.appointments.get? 1 = some b ∧
        x.shared.known 1 "pi_1" = true ∧ b.records "pi_1" = true ∧
          x.shared.stripe.refunded "pi_1" = 3000 ∧ x.shared.stripe.charged "pi_1" = 3000 := by
  have hrun : ((depositCalls "BRL" 1).machine.run (.idle heldVisit) confirmedTwice).any
      (fun x => x.quiet && (x.shared.db.appointments.get? 1).any (·.records "pi_1") &&
        x.shared.known 1 "pi_1" && x.shared.stripe.refunded "pi_1" == 3000 &&
          x.shared.stripe.charged "pi_1" == 3000) = true := by
    decide +kernel
  obtain ⟨x, hx, hout⟩ := (Option.any_eq_true _ _).1 hrun
  simp only [Bool.and_eq_true, beq_iff_eq, Option.any_eq_true] at hout
  obtain ⟨⟨⟨⟨hquiet, b, hb, hrecords⟩, hknown⟩, hback⟩, hcharged⟩ := hout
  exact ⟨x, b, hx, hquiet, hb, hknown, hrecords, hback, hcharged⟩

end Barbershop
