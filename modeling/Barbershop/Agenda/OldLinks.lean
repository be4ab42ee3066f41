import Barbershop.Agenda.AppointmentUpdate
import Barbershop.Agenda.Link
import Barbershop.Lib.Machine
import Barbershop.Service

/-!
# Links of an appointment that was edited

Links are issued with the version of their time, and edits raise the version. `LinkBooks` keeps the
appointments and, for the statements, every link that was issued.

What a reader finds in an issued link is what was signed for it (`IssuedLink.read_token`), so the
mode of a link is decided by its version. The law of the runs is `LinkBooks.Timely`: no link is of a
later version than its appointment. A change of customer takes two steps of the version at once,
which leaves every earlier link behind the one version of grace.
-/

namespace Barbershop

open Lib

/-! ## Links that were issued -/

inductive IssuedLink where
  | manage (id version : ℕ)
  | review (id version : ℕ)
  | staffReview (id userId version : ℕ)
  | support (ticketId : ℕ)
  | waitlistLeave (entryId : ℕ)
  /-- Of the time before the versions. -/
  | old (purpose : AppointmentPurpose) (id : ℕ)
  deriving DecidableEq, Repr

namespace IssuedLink

def token (mac : Mac) : IssuedLink → LinkText
  | manage id version => createAppointmentToken mac id version
  | review id version => createReviewToken mac id version
  | staffReview id userId version => createStaffReviewToken mac id userId version
  | support ticketId => createSupportToken mac ticketId
  | waitlistLeave entryId => createWaitlistLeaveToken mac entryId
  | old purpose id => dotted [decimal id, sign mac id purpose.toPurpose none]

/-- What a link is for and what it names, if it is of an appointment. -/
def appointment : IssuedLink → Option (AppointmentPurpose × AppointmentLink)
  | manage id version => some (.manage, ⟨id, version⟩)
  | review id version => some (.review, ⟨id, version⟩)
  | staffReview id _ version => some (.review, ⟨id, version⟩)
  | old purpose id => some (purpose, ⟨id, 0⟩)
  | support _ | waitlistLeave _ => none

end IssuedLink

/-! ## What the readers find -/

theorem dotted_dotted {fs gs : List LinkText} (hfs : fs ≠ []) (hgs : gs ≠ []) :
    dotted (dotted fs :: gs) = dotted (fs ++ gs) := by
  induction fs with
  | nil => exact absurd rfl hfs
  | cons f fs ih =>
    by_cases hnil : fs = []
    · subst hnil
      simp [dotted]
    · rw [dotted_cons f hnil, List.cons_append, dotted_cons f (by simp [hnil]),
        dotted_cons _ hgs, ← ih hnil, dotted_cons _ hgs, List.append_assoc, List.cons_append]

section Reading

variable {mac : Mac} (hmac : mac.Lawful) {purpose : AppointmentPurpose} {r : AppointmentLink}
  {id version : ℕ} {q : LinkPayload}
include hmac

/-- What is found in three fields, the last of which is a signature. -/
theorem readBody_signed
    (h : readBody mac purpose (dotted [decimal id, decimal version, mac q.text]) = some r)
    (hq : isSafeInteger id = true → isSafeInteger version = true → q.Safe) :
    q = .link purpose.toPurpose id (some version) ∧ r = ⟨id, version⟩ := by
  have hfields : fieldsOf (dotted [decimal id, decimal version, mac q.text]) =
      [decimal id, decimal version, mac q.text] :=
    fieldsOf_joined (by simp [isField_decimal, hmac.isField]) (by simp)
  simp only [readBody, hfields, isNumber_decimal, hmac.shape, numberOf_decimal, Bool.and_true,
    if_true] at h
  split at h
  · next hc =>
    simp only [Bool.and_eq_true, beq_iff_eq] at hc
    obtain ⟨⟨hid, hversion⟩, hsign⟩ := hc
    have hsafe : (LinkPayload.link purpose.toPurpose id (some version)).Safe := by
      simp [LinkPayload.Safe, LinkPayload.parts, hid, hversion]
    exact ⟨(hmac.payload_eq hsafe (hq hid hversion) hsign).symm, (Option.some.inj h).symm⟩
  · cases h

/-- What is found in two fields. -/
theorem readBody_old (h : readBody mac purpose (dotted [decimal id, mac q.text]) = some r)
    (hq : isSafeInteger id = true → q.Safe) :
    q = .link purpose.toPurpose id none ∧ r = ⟨id, 0⟩ := by
  have hfields : fieldsOf (dotted [decimal id, mac q.text]) = [decimal id, mac q.text] :=
    fieldsOf_joined (by simp [isField_decimal, hmac.isField]) (by simp)
  simp only [readBody, hfields, isNumber_decimal, hmac.shape, numberOf_decimal, Bool.and_true,
    if_true] at h
  split at h
  · next hc =>
    simp only [Bool.and_eq_true, beq_iff_eq] at hc
    obtain ⟨hid, hsign⟩ := hc
    have hsafe : (LinkPayload.link purpose.toPurpose id none).Safe := by
      simp [LinkPayload.Safe, LinkPayload.parts, hid]
    exact ⟨(hmac.payload_eq hsafe (hq hid) hsign).symm, (Option.some.inj h).symm⟩
  · cases h

end Reading

namespace IssuedLink

variable {mac : Mac} (ℓ : IssuedLink)

def fields (mac : Mac) : IssuedLink → List LinkText
  | manage id version =>
    [decimal id, decimal version, sign mac id .appointmentManage (some version)]
  | review id version =>
    [decimal id, decimal version, sign mac id .appointmentReview (some version)]
  | staffReview id userId version =>
    [decimal id, decimal version, sign mac id .appointmentReview (some version), decimal userId,
      staffMark mac id version userId]
  | support ticketId => [decimal ticketId, sign mac ticketId .supportTicket none]
  | waitlistLeave entryId => [decimal entryId, sign mac entryId .waitlistLeave none]
  | old purpose id => [decimal id, sign mac id purpose.toPurpose none]

theorem fields_ne_nil (mac : Mac) : ℓ.fields mac ≠ [] := by cases ℓ <;> simp [fields]

theorem token_eq (mac : Mac) : ℓ.token mac = dotted (ℓ.fields mac) := by
  cases ℓ with
  | staffReview id userId version => exact dotted_dotted (by simp) (by simp)
  | _ => rfl

variable (hmac : mac.Lawful)
include hmac

theorem isField_of_mem : ∀ f ∈ ℓ.fields mac, IsField f := by
  cases ℓ <;> simp [fields, sign, staffMark, isField_decimal, hmac.isField]

@[simp] theorem trimmed_token : trimmed (ℓ.token mac) = ℓ.token mac := by
  rw [token_eq]
  exact trimmed_dotted (ℓ.isField_of_mem hmac)

theorem fieldsOf_token : fieldsOf (ℓ.token mac) = ℓ.fields mac := by
  rw [token_eq]
  exact fieldsOf_joined (ℓ.isField_of_mem hmac) (ℓ.fields_ne_nil mac)

/-- Without the mark of the staff a link is read as a whole. -/
theorem readBody_token {purpose : AppointmentPurpose} {r : AppointmentLink}
    (h : readBody mac purpose (ℓ.token mac) = some r) : ℓ.appointment = some (purpose, r) := by
  cases ℓ with
  | manage id version =>
    obtain ⟨hq, rfl⟩ := readBody_signed hmac h fun hid hversion => by
      simp [LinkPayload.Safe, LinkPayload.parts, hid, hversion]
    cases purpose <;> simp_all [appointment, AppointmentPurpose.toPurpose]
  | review id version =>
    obtain ⟨hq, rfl⟩ := readBody_signed hmac h fun hid hversion => by
      simp [LinkPayload.Safe, LinkPayload.parts, hid, hversion]
    cases purpose <;> simp_all [appointment, AppointmentPurpose.toPurpose]
  | staffReview id userId version =>
    rw [readBody, fieldsOf_token _ hmac] at h
    cases h
  | support ticketId =>
    obtain ⟨hq, rfl⟩ := readBody_old hmac h fun hid => by
      simp [LinkPayload.Safe, LinkPayload.parts, hid]
    cases purpose <;> simp_all [AppointmentPurpose.toPurpose]
  | waitlistLeave entryId =>
    obtain ⟨hq, rfl⟩ := readBody_old hmac h fun hid => by
      simp [LinkPayload.Safe, LinkPayload.parts, hid]
    cases purpose <;> simp_all [AppointmentPurpose.toPurpose]
  | old purpose' id =>
    obtain ⟨hq, rfl⟩ := readBody_old hmac h fun hid => by
      simp [LinkPayload.Safe, LinkPayload.parts, hid]
    cases purpose <;> cases purpose' <;> simp_all [appointment, AppointmentPurpose.toPurpose]

/-- What a reader of the links of appointments finds in a link is what the link was issued for. -/
theorem read_token {purpose : AppointmentPurpose} {r : AppointmentLink}
    (h : readAppointmentLink mac (some (ℓ.token mac)) purpose = some r) :
    ℓ.appointment = some (purpose, r) := by
  simp only [readAppointmentLink, Option.getD_some, ℓ.trimmed_token hmac] at h
  cases purpose with
  | manage => exact ℓ.readBody_token hmac h
  | review =>
    obtain ⟨peeled, hpeel, hbody⟩ := Option.bind_eq_some_iff.1 h
    unfold stripStaffReview at hpeel
    rw [ℓ.fieldsOf_token hmac] at hpeel
    cases ℓ with
    | staffReview id userId version =>
      simp only [fields, numberOf_decimal] at hpeel
      split at hpeel
      · split at hpeel
        · obtain rfl := Option.some.inj hpeel
          exact (review id version).readBody_token hmac hbody
        · cases hpeel
      · obtain rfl := Option.some.inj hpeel
        exact (staffReview id userId version).readBody_token hmac hbody
    | _ =>
      obtain rfl := Option.some.inj hpeel
      exact readBody_token _ hmac hbody

/-- The purpose that is signed for a link without a version. -/
def plainPurpose : IssuedLink → Option LinkPurpose
  | support _ => some .supportTicket
  | waitlistLeave _ => some .waitlistLeave
  | old purpose _ => some purpose.toPurpose
  | manage _ _ | review _ _ | staffReview _ _ _ => none

/-- A reader of the links without a version accepts those of its own purpose. -/
theorem verify_token {purpose : LinkPurpose} {id : ℕ}
    (h : verifyLink mac (some (ℓ.token mac)) purpose = some id) :
    ℓ.plainPurpose = some purpose := by
  simp only [verifyLink, Option.getD_some, ℓ.trimmed_token hmac, ℓ.fieldsOf_token hmac] at h
  split at h
  · next f₁ f₂ hfields =>
    split at h
    · split at h
      · next hc =>
        simp only [Bool.and_eq_true, beq_iff_eq] at hc
        obtain ⟨hid, hsign⟩ := hc
        -- both signatures are of the number in the first field
        have hpurpose : ∀ {n : ℕ} {purpose' : LinkPurpose}, f₁ = decimal n →
            f₂ = sign mac n purpose' none → purpose' = purpose := by
          rintro n purpose' rfl rfl
          rw [numberOf_decimal] at hid hsign
          have hpayload := hmac.payload_eq (p := .link purpose n none) (q := .link purpose' n none)
            (by simp [LinkPayload.Safe, LinkPayload.parts, hid])
            (by simp [LinkPayload.Safe, LinkPayload.parts, hid]) hsign
          cases hpayload
          rfl
        cases ℓ <;> simp only [fields, List.cons.injEq, and_true, reduceCtorEq, and_false] at hfields
        all_goals exact congrArg some (hpurpose hfields.1.symm hfields.2.symm)
      · cases h
    · cases h
  · cases h

end IssuedLink

/-! ## Which link each reader accepts -/

inductive LinkReader where
  | manage | review | staffReview | support | waitlistLeave
  deriving DecidableEq, Repr

def LinkReader.accepts (mac : Mac) (token : Option LinkText) : LinkReader → Bool
  | manage => (readAppointmentLink mac token .manage).isSome
  | review => (readAppointmentLink mac token .review).isSome
  | staffReview => (reviewLinkRequester mac token).isSome
  | support => (verifySupportToken mac token).isSome
  | waitlistLeave => (verifyWaitlistLeaveToken mac token).isSome

/-- The reader of a link's own purpose. -/
def IssuedLink.reader : IssuedLink → LinkReader
  | manage _ _ | old .manage _ => .manage
  | review _ _ | old .review _ => .review
  | staffReview _ _ _ => .staffReview
  | support _ => .support
  | waitlistLeave _ => .waitlistLeave

/-- A link is accepted by the reader of its purpose; one that the staff asked for also as the link
for a review that it carries. -/
theorem IssuedLink.reader_of_accepts {mac : Mac} (hmac : mac.Lawful) (ℓ : IssuedLink)
    {reader : LinkReader} (h : reader.accepts mac (some (ℓ.token mac)) = true) :
    reader = ℓ.reader ∨ ℓ.reader = .staffReview ∧ reader = .review := by
  cases reader with
  | manage =>
    obtain ⟨r, hr⟩ := Option.isSome_iff_exists.1 h
    have hread := ℓ.read_token hmac hr
    cases ℓ <;> simp_all [appointment, IssuedLink.reader]
  | review =>
    obtain ⟨r, hr⟩ := Option.isSome_iff_exists.1 h
    have hread := ℓ.read_token hmac hr
    cases ℓ <;> simp_all [appointment, IssuedLink.reader]
  | staffReview =>
    obtain ⟨userId, hr⟩ := Option.isSome_iff_exists.1 h
    simp only [reviewLinkRequester, Option.getD_some, ℓ.trimmed_token hmac] at hr
    obtain ⟨peeled, hpeel, huser⟩ := Option.bind_eq_some_iff.1 hr
    unfold stripStaffReview at hpeel
    rw [ℓ.fieldsOf_token hmac] at hpeel
    cases ℓ with
    | staffReview id userId version => exact .inl rfl
    | _ =>
      obtain rfl := Option.some.inj hpeel
      cases huser
  | support =>
    obtain ⟨id, hid⟩ := Option.isSome_iff_exists.1 h
    have hplain := ℓ.verify_token hmac hid
    cases ℓ <;> simp_all [plainPurpose, IssuedLink.reader]
    next purpose _ => cases purpose <;> cases hplain
  | waitlistLeave =>
    obtain ⟨id, hid⟩ := Option.isSome_iff_exists.1 h
    have hplain := ℓ.verify_token hmac hid
    cases ℓ <;> simp_all [plainPurpose, IssuedLink.reader]
    next purpose _ => cases purpose <;> cases hplain

/-! ## Runs -/

structure LinkBooks where
  appointments : Table Appointment
  issued : List IssuedLink

inductive LinkEvent where
  | updateAppointment (ctx : Caller) (id : ℕ) (data : AppointmentChange) (ans : UpdateAnswers)
  /-- The cancellation of a series or of a day on which the unit is closed. -/
  | cancelElsewhere (id : ℕ)
  | manageLink (id : ℕ)
  | reviewLink (id : ℕ)
  | staffReviewLink (id userId : ℕ)
  | supportLink (ticketId : ℕ)
  | waitlistLeaveLink (entryId : ℕ)

/-- `none`: the request is refused, or there is no such appointment. -/
def LinkEvent.step (s : LinkBooks) : LinkEvent → Option LinkBooks
  | updateAppointment ctx id data ans => do
    let a ← s.appointments.get? id
    let a' ← (Barbershop.updateAppointment ctx data ans a).toOption
    return { s with appointments := s.appointments.modify id fun _ => a' }
  | cancelElsewhere id => do
    let a ← s.appointments.get? id
    guard (a.status = .confirmed)
    return { s with appointments := s.appointments.modify id fun _ =>
      { a with status := .cancelled, linkVersion := a.linkVersion + 1 } }
  | manageLink id => do
    let a ← s.appointments.get? id
    return { s with issued := .manage id a.linkVersion :: s.issued }
  | reviewLink id => do
    let a ← s.appointments.get? id
    return { s with issued := .review id a.linkVersion :: s.issued }
  | staffReviewLink id userId => do
    let a ← s.appointments.get? id
    return { s with issued := .staffReview id userId a.linkVersion :: s.issued }
  | supportLink ticketId => some { s with issued := .support ticketId :: s.issued }
  | waitlistLeaveLink entryId => some { s with issued := .waitlistLeave entryId :: s.issued }

def appointmentLinks : Machine LinkBooks LinkEvent := ⟨LinkEvent.step⟩

namespace LinkBooks

variable {s s' : LinkBooks} {e : LinkEvent}

/-- No link is of a later version than its appointment. -/
def Timely (s : LinkBooks) : Prop :=
  ∀ ℓ ∈ s.issued, ∀ purpose r, ℓ.appointment = some (purpose, r) →
    ∀ a, s.appointments.get? r.id = some a → r.version ≤ a.linkVersion

/-- What a step may do to the appointments: no version goes down. -/
def Ahead (s s' : LinkBooks) : Prop :=
  ∀ id a', s'.appointments.get? id = some a' →
    ∃ a, s.appointments.get? id = some a ∧ a.linkVersion ≤ a'.linkVersion

theorem Ahead.refl (s : LinkBooks) : s.Ahead s := fun _ a h => ⟨a, h, le_rfl⟩

theorem Ahead.trans {s₁ s₂ s₃ : LinkBooks} (h₁ : s₁.Ahead s₂) (h₂ : s₂.Ahead s₃) : s₁.Ahead s₃ := by
  intro id a₃ h
  obtain ⟨a₂, hget₂, hle₂⟩ := h₂ id a₃ h
  obtain ⟨a₁, hget₁, hle₁⟩ := h₁ id a₂ hget₂
  exact ⟨a₁, hget₁, hle₁.trans hle₂⟩

/-- An edit of one appointment that does not lower its version. -/
theorem ahead_modify {id : ℕ} {a a' : Appointment} {issued : List IssuedLink}
    (hget : s.appointments.get? id = some a) (hle : a.linkVersion ≤ a'.linkVersion) :
    s.Ahead ⟨s.appointments.modify id fun _ => a', issued⟩ := by
  intro j b hb
  by_cases hj : j = id
  · subst hj
    rw [Table.get?_modify_self, hget] at hb
    obtain rfl := Option.some.inj hb
    exact ⟨a, hget, hle⟩
  · rw [Table.get?_modify_of_ne _ _ hj] at hb
    exact ⟨b, hb, le_rfl⟩

/-- What a step does: an edit that does not lower the version, or a link of the present version. -/
theorem step_cases (h : e.step s = some s') :
    (∃ id a a', s.appointments.get? id = some a ∧ a.linkVersion ≤ a'.linkVersion ∧
      s' = { s with appointments := s.appointments.modify id fun _ => a' }) ∨
    ∃ ℓ, s' = { s with issued := ℓ :: s.issued } ∧ ∀ purpose r, ℓ.appointment = some (purpose, r) →
      ∀ a, s.appointments.get? r.id = some a → r.version = a.linkVersion := by
  cases e with
  | updateAppointment ctx id data ans =>
    simp only [LinkEvent.step, Option.bind_eq_bind, Option.bind_eq_some_iff] at h
    obtain ⟨a, hget, a', hok, hs⟩ := h
    obtain ⟨-, rfl⟩ := updateAppointment_ok (toOption_eq_some.1 hok)
    exact .inl ⟨id, a, _, hget, data.le_write_linkVersion a ans, (Option.some.inj hs).symm⟩
  | cancelElsewhere id =>
    simp only [LinkEvent.step, Option.bind_eq_bind, Option.bind_eq_some_iff] at h
    obtain ⟨a, hget, -, -, hs⟩ := h
    exact .inl ⟨id, a, _, hget, Nat.le_succ _, (Option.some.inj hs).symm⟩
  | supportLink ticketId =>
    refine .inr ⟨_, (Option.some.inj h).symm, fun purpose r hr => ?_⟩
    cases hr
  | waitlistLeaveLink entryId =>
    refine .inr ⟨_, (Option.some.inj h).symm, fun purpose r hr => ?_⟩
    cases hr
  | manageLink id | reviewLink id | staffReviewLink id userId =>
    simp only [LinkEvent.step, Option.bind_eq_bind, Option.bind_eq_some_iff] at h
    obtain ⟨a, hget, hs⟩ := h
    refine .inr ⟨_, (Option.some.inj hs).symm, fun purpose r hr b hb => ?_⟩
    cases hr
    rw [hget] at hb
    exact congrArg Appointment.linkVersion (Option.some.inj hb)

theorem step_ahead (h : e.step s = some s') : s.Ahead s' := by
  obtain ⟨id, a, a', hget, hle, rfl⟩ | ⟨ℓ, rfl, -⟩ := step_cases h
  · exact ahead_modify hget hle
  · exact Ahead.refl s

theorem Timely.step (hs : s.Timely) (h : e.step s = some s') : s'.Timely := by
  intro ℓ hℓ purpose r hr a' ha'
  obtain ⟨a, ha, hle⟩ := step_ahead h r.id a' ha'
  obtain ⟨id, b, b', hget, hle', rfl⟩ | ⟨ℓ', rfl, hnew⟩ := step_cases h
  · exact (hs ℓ hℓ purpose r hr a ha).trans hle
  · rcases List.mem_cons.1 hℓ with rfl | hℓ
    · exact (hnew purpose r hr a' ha').le
    · exact hs ℓ hℓ purpose r hr a' ha'

/-- Where only links of the time before the versions are out, every link is timely. -/
theorem timely_of_old (h : ∀ ℓ ∈ s.issued, ∃ purpose id, ℓ = .old purpose id) : s.Timely := by
  intro ℓ hℓ purpose r hr a ha
  obtain ⟨purpose', id, rfl⟩ := h ℓ hℓ
  cases hr
  exact Nat.zero_le _

end LinkBooks

/-- What a text has passed when it is read as a link to manage an appointment: a signature under
this purpose stands in it, of the id that is read and of the version, if the text has one. -/
theorem AppointmentLink.of_read {mac : Mac} {token : LinkText} {r : AppointmentLink}
    (h : readAppointmentLink mac (some token) .manage = some r) :
    ∃ version : Option ℕ, version.getD 0 = r.version ∧
      (LinkPayload.link .appointmentManage r.id version).Safe ∧
      mac (LinkPayload.link .appointmentManage r.id version).text ∈ fieldsOf (trimmed token) := by
  simp only [readAppointmentLink, Option.getD_some, readBody] at h
  split at h
  · next f₁ f₂ f₃ hfields =>
    split at h
    · split at h
      · next hc =>
        simp only [Bool.and_eq_true, beq_iff_eq] at hc
        obtain ⟨⟨hid, hversion⟩, hsign⟩ := hc
        obtain rfl := Option.some.inj h
        refine ⟨some (numberOf f₂), rfl, ?_, ?_⟩
        · simp [LinkPayload.Safe, LinkPayload.parts, hid, hversion]
        · rw [hfields, ← hsign]
          simp [sign, AppointmentPurpose.toPurpose]
      · cases h
    · cases h
  · next f₁ f₂ hfields =>
    split at h
    · split at h
      · next hc =>
        simp only [Bool.and_eq_true, beq_iff_eq] at hc
        obtain ⟨hid, hsign⟩ := hc
        obtain rfl := Option.some.inj h
        refine ⟨none, rfl, ?_, ?_⟩
        · simp [LinkPayload.Safe, LinkPayload.parts, hid]
        · rw [hfields, ← hsign]
          simp [sign, AppointmentPurpose.toPurpose]
      · cases h
    · cases h
  · cases h

/-! ## What the holder of a link can open -/

namespace IssuedLink

/-- What is signed for a link. -/
def payloads : IssuedLink → List LinkPayload
  | manage id version => [.link .appointmentManage id (some version)]
  | review id version => [.link .appointmentReview id (some version)]
  | staffReview id userId version =>
    [.link .appointmentReview id (some version), .staffReview id version userId]
  | support ticketId => [.link .supportTicket ticketId none]
  | waitlistLeave entryId => [.link .waitlistLeave entryId none]
  | old purpose id => [.link purpose.toPurpose id none]

theorem appointment_of_mem_payloads {ℓ : IssuedLink} {id : ℕ} {version : Option ℕ}
    (h : LinkPayload.link .appointmentManage id version ∈ ℓ.payloads) :
    ℓ.appointment = some (.manage, ⟨id, version.getD 0⟩) := by
  cases ℓ with
  | old purpose id' => cases purpose <;> simp_all [payloads, appointment, AppointmentPurpose.toPurpose]
  | _ => simp_all [payloads, appointment]

end IssuedLink

/-- A text that the holder of these links can present: one of them, or a text in which no other
signature stands. -/
def Presentable (mac : Mac) (links : List IssuedLink) (token : LinkText) : Prop :=
  (∃ ℓ ∈ links, token = ℓ.token mac) ∨
    ∀ p : LinkPayload, p.Safe → mac p.text ∈ fieldsOf (trimmed token) → ∃ ℓ ∈ links, p ∈ ℓ.payloads

theorem Presentable.read {mac : Mac} (hmac : mac.Lawful) {links : List IssuedLink}
    {token : LinkText} (h : Presentable mac links token) {r : AppointmentLink}
    (hr : readAppointmentLink mac (some token) .manage = some r) :
    ∃ ℓ ∈ links, ℓ.appointment = some (.manage, r) := by
  rcases h with ⟨ℓ, hℓ, rfl⟩ | h
  · exact ⟨ℓ, hℓ, ℓ.read_token hmac hr⟩
  · obtain ⟨version, hversion, hsafe, hmem⟩ := AppointmentLink.of_read hr
    obtain ⟨ℓ, hℓ, hp⟩ := h _ hsafe hmem
    refine ⟨ℓ, hℓ, ?_⟩
    rw [IssuedLink.appointment_of_mem_payloads hp, hversion]

/-- A link that opens an appointment is of its present version, or of the one before. -/
theorem appointmentLinkMode_some {mac : Mac} {token : Option LinkText} {id : ℕ} {a : Appointment}
    {now : ℤ} {mode : LinkMode} (h : appointmentLinkMode mac token .manage id a now = some mode) :
    ∃ r, readAppointmentLink mac token .manage = some r ∧ r.id = id ∧
      (mode = .current ∧ r.version = a.linkVersion ∨
        mode = .previous ∧ r.version + 1 = a.linkVersion) := by
  unfold appointmentLinkMode at h
  cases hr : readAppointmentLink mac token .manage with
  | none =>
    rw [hr] at h
    cases h
  | some r =>
    simp only [hr] at h
    refine ⟨r, rfl, ?_⟩
    split at h
    · cases h
    next hid =>
      refine ⟨not_not.1 hid, ?_⟩
      split at h
      · cases h
      · split at h
        · next hv => exact .inl ⟨(Option.some.inj h).symm, hv⟩
        · split at h
          · next hv => exact .inr ⟨(Option.some.inj h).symm, by omega⟩
          · cases h

/-- **Old links stay closed.** After an edit that gives an appointment to another customer, nothing
that a holder of earlier links can present opens it again, in whatever state the appointment is
later. An issued link is the current one of the present version only and the previous one of the
version before only. A link is accepted by the reader of its purpose alone, or is one that the staff
asked for and is read as the link for a review that it carries. -/
theorem old_links_stay_closed {mac : Mac} (hmac : mac.Lawful) {s₀ s₁ s₂ s : LinkBooks}
    {before after : List LinkEvent} {ctx : Caller} {id : ℕ} {data : AppointmentChange}
    {ans : UpdateAnswers} {a₁ a₂ : Appointment}
    (hstart : ∀ ℓ ∈ s₀.issued, ∃ purpose id, ℓ = .old purpose id)
    (hbefore : appointmentLinks.run s₀ before = some s₁)
    (hedit : appointmentLinks.step s₁ (.updateAppointment ctx id data ans) = some s₂)
    (hrow₁ : s₁.appointments.get? id = some a₁) (hrow₂ : s₂.appointments.get? id = some a₂)
    (hcustomer : a₂.customerId ≠ a₁.customerId) (hafter : appointmentLinks.run s₂ after = some s) :
    (∀ token, Presentable mac s₁.issued token → ∀ a, s.appointments.get? id = some a → ∀ now,
      appointmentLinkMode mac (some token) .manage id a now = none) ∧
    (∀ ℓ ∈ s.issued, ∀ id a now,
      (appointmentLinkMode mac (some (ℓ.token mac)) .manage id a now = some .current →
        ℓ.appointment = some (.manage, ⟨id, a.linkVersion⟩)) ∧
      (appointmentLinkMode mac (some (ℓ.token mac)) .manage id a now = some .previous →
        ∃ version, version + 1 = a.linkVersion ∧ ℓ.appointment = some (.manage, ⟨id, version⟩))) ∧
    ∀ ℓ ∈ s.issued, ∀ reader : LinkReader, reader.accepts mac (some (ℓ.token mac)) = true →
      reader = ℓ.reader ∨ ℓ.reader = .staffReview ∧ reader = .review := by
  have htimely : s₁.Timely := appointmentLinks.run_inv LinkBooks.Timely.step
    (LinkBooks.timely_of_old hstart) hbefore
  have hbump : a₂.linkVersion = a₁.linkVersion + 2 := by
    simp only [appointmentLinks, LinkEvent.step, Option.bind_eq_bind, Option.bind_eq_some_iff]
      at hedit
    obtain ⟨b, hb, b', hok, hs⟩ := hedit
    obtain ⟨-, rfl⟩ := updateAppointment_ok (toOption_eq_some.1 hok)
    obtain rfl := Option.some.inj (hrow₁.symm.trans hb)
    obtain rfl := Option.some.inj hs
    rw [Table.get?_modify_self, hrow₁] at hrow₂
    obtain rfl := Option.some.inj hrow₂
    exact data.write_linkVersion a₁ ans hcustomer
  have hahead : s₂.Ahead s := appointmentLinks.run_rel LinkBooks.Ahead.refl LinkBooks.Ahead.trans
    LinkBooks.step_ahead hafter
  refine ⟨?_, ?_, fun ℓ _ reader => ℓ.reader_of_accepts hmac⟩
  · intro token htoken a ha now
    cases hmode : appointmentLinkMode mac (some token) .manage id a now with
    | none => rfl
    | some mode =>
      obtain ⟨r, hr, rfl, hversion⟩ := appointmentLinkMode_some hmode
      obtain ⟨ℓ, hℓ, hlink⟩ := htoken.read hmac hr
      -- the link is of the version before the change at the latest
      have hold : r.version ≤ a₁.linkVersion := htimely ℓ hℓ _ r hlink a₁ hrow₁
      obtain ⟨b, hb, hle⟩ := hahead r.id a ha
      obtain rfl := Option.some.inj (hrow₂.symm.trans hb)
      omega
  · intro ℓ _ id a now
    constructor
    · intro hmode
      obtain ⟨r, hr, rfl, ⟨-, hv⟩ | ⟨hm, -⟩⟩ := appointmentLinkMode_some hmode
      · rw [ℓ.read_token hmac hr, ← hv]
      · cases hm
    · intro hmode
      obtain ⟨r, hr, rfl, ⟨hm, -⟩ | ⟨-, hv⟩⟩ := appointmentLinkMode_some hmode
      · cases hm
      · exact ⟨r.version, hv, ℓ.read_token hmac hr⟩

/-! ## An appointment to run it on -/

/-- An appointment of a client, no link issued. -/
def oneBooking : LinkBooks := ⟨Table.empty.insert visit, []⟩

/-- The link of the first customer does not open the appointment of the second. -/
theorem secondCustomer_closed : ∃ s a,
    appointmentLinks.run oneBooking
      [.manageLink 1, .updateAppointment (owner 0) 1 (toCustomer 2) noObjection, .manageLink 1] =
        some s ∧
    s.appointments.get? 1 = some a ∧
    appointmentLinkMode sampleMac (some (createAppointmentToken sampleMac 1 0)) .manage 1 a 0 =
      none := by
  let edit : LinkEvent := .updateAppointment (owner 0) 1 (toCustomer 2) noObjection
  let edited := (toCustomer 2).write visit noObjection
  let s₁ : LinkBooks := ⟨oneBooking.appointments, [.manage 1 0]⟩
  let s₂ : LinkBooks := ⟨s₁.appointments.modify 1 fun _ => edited, s₁.issued⟩
  let s : LinkBooks := ⟨s₂.appointments, .manage 1 2 :: s₂.issued⟩
  have hbefore : appointmentLinks.run oneBooking [.manageLink 1] = some s₁ := rfl
  have hedit : appointmentLinks.step s₁ edit = some s₂ := rfl
  have hafter : appointmentLinks.run s₂ [.manageLink 1] = some s := rfl
  have hrow : s₁.appointments.get? 1 = some visit := rfl
  have hrow' : s₂.appointments.get? 1 = some edited := rfl
  have hclosed := old_links_stay_closed sampleMac_lawful (by simp [oneBooking]) hbefore hedit hrow
    hrow' (by decide) hafter
  exact ⟨s, edited, rfl, rfl, hclosed.1 _ (.inl ⟨.manage 1 0, by simp [s₁], rfl⟩) edited rfl 0⟩

/-- A link for a review that the staff asked for is accepted by the reader of the others. -/
theorem staffReview_accepted : ∃ s, appointmentLinks.run oneBooking [.staffReviewLink 1 1] = some s ∧
    ∃ ℓ ∈ s.issued, ℓ.reader = .staffReview ∧
      LinkReader.review.accepts sampleMac (some (ℓ.token sampleMac)) = true :=
  ⟨_, rfl, .staffReview 1 1 0, List.mem_cons_self, rfl, by decide +kernel⟩

end Barbershop
