import Mathlib.Algebra.Group.Pi.Basic
import Barbershop.Staff.Places

/-!
# The fee of a job ends in one place

A fee that was paid is given back, or is on record with its application: not claimed yet, or claimed for an
application that was accepted, or that expired and waits for the hourly refund. Four steps can lose it, and
`JobCall.keepsFee` is what they have to meet: a new intent is recorded where no other can be paid or was
given back, `finalizeFee` claims for the intent on record, the refund of a failed acceptance is carried out,
and who applies again is still withdrawn.

What the calls in flight still owe counts for them, by intent or by application (`FeeStage`).
-/

namespace Barbershop

open Lib

/-! ## What is owed -/

/-- `recording`: an intent that is not on record yet. `deciding`: a paid one whose `finalizeFee` has claimed
the fee. `accepting`: an application that was accepted and has no invite yet. `refunding`: an intent that was
read for a refund. `sending`: an application whose refund was claimed. -/
inductive FeeStage where
  | recording (intentId : ℕ)
  | deciding (intentId : ℕ)
  | accepting (applicationId : ℕ)
  | refunding (intentId : ℕ)
  | sending (applicationId : ℕ)
  deriving DecidableEq

def Acceptance.owes (q : Acceptance) : FeeStage → ℕ := q.fee.elim 0 fun i => Pi.single (.deciding i) 1

/-- The intent that a refund is for, by the application as it was read. -/
def JobApplication.fee (a : JobApplication) : Option ℕ :=
  if a.feePaidAt.isSome then a.feePaymentIntentId else none

def JobApplication.sees (a : JobApplication) : FeeStage → ℕ :=
  a.fee.elim 0 fun i => Pi.single (.refunding i) 1

def JobCall.owes : JobCall → FeeStage → ℕ
  | recording _ i => Pi.single (.recording i) 1
  | deciding q | locking q _ _ | counting q _ _ _ | taking q _ _ => q.owes
  | inviting q _ _ | undoing q => q.owes + Pi.single (.accepting q.applicationId) 1
  | returning i _ | forgetting i _ => Pi.single (.deciding i) 1
  | checking r | judging r _ | expiring r _ _ => r.seen.sees
  | withdrawing _ r | refunding r => r.seen.sees
  | sending r i => Pi.single (.refunding i) 1 + Pi.single (.sending r.applicationId) 1
  | unclaiming r => Pi.single (.sending r.applicationId) 1
  | _ => 0

/-! ## The invariant -/

/-- An intent `i` of the application `p`. -/
structure FeeIntent.Of (x : FeeIntent) (i : ℕ) (p : JobApplication) (m : FeeStage → ℕ) : Prop where
  live : x.status ≠ .canceled → x.refunded = false → p.feePaymentIntentId = some i ∨ 1 ≤ m (.recording i)
  gone : x.refunded = true → x.status = .succeeded ∧
    (p.feePaymentIntentId = some i ∨ p.feePaymentIntentId = none ∨ 1 ≤ m (.recording i))
  owed : 1 ≤ m (.deciding i) → m (.deciding i) = 1 ∧ x.status = .succeeded ∧
    (p.feePaymentIntentId = some i ∧ p.feePaidAt.isSome ∨ p.feePaymentIntentId = none ∧ x.refunded = true)
  seen : 1 ≤ m (.refunding i) → x.status = .succeeded ∧
    (p.feePaymentIntentId = some i ∨ p.feePaymentIntentId = none ∧ x.refunded = true)

/-- Accepted, or taken back from there. -/
def ApplicationStatus.taken : ApplicationStatus → Bool
  | accepted | expired => true
  | _ => false

/-- The application under `id`, among the intents `xs`. -/
structure JobApplication.FeeRow (p : JobApplication) (xs : Table FeeIntent) (id : ℕ)
    (m : FeeStage → ℕ) : Prop where
  recorded : ∀ i ∈ p.feePaymentIntentId, ∃ x, xs.get? i = some x ∧ x.applicationId = id ∧
    p.feeCents.getD 0 ≤ x.amount
  paid : p.feePaidAt.isSome → ∃ i x, p.feePaymentIntentId = some i ∧ xs.get? i = some x ∧
    x.status = .succeeded ∧
    (m (.deciding i) = 1 ∨ p.status.taken = true ∧ m (.accepting id) = 0)
  taken : 1 ≤ m (.accepting id) → m (.accepting id) = 1 ∧ p.status.taken = true
  back : p.feeRefundedAt.isSome → (∃ i x, xs.get? i = some x ∧ x.applicationId = id ∧
    x.refunded = true) ∨ 1 ≤ m (.sending id)

structure FeeSound (s : JobBooks) (m : FeeStage → ℕ) : Prop where
  row : ∀ {id p}, s.applications.get? id = some p → p.FeeRow s.intents id m
  charge : ∀ {i x}, s.intents.get? i = some x →
    ∃ p, s.applications.get? x.applicationId = some p ∧ x.Of i p m
  fresh : ∀ {id}, s.applications.get? id = none → m (.accepting id) = 0
  uncharged : ∀ {i}, s.intents.get? i = none → m (.deciding i) = 0 ∧ m (.refunding i) = 0

/-- What was paid or given back is so for good. -/
structure FeeIntent.Later (x y : FeeIntent) : Prop where
  application : y.applicationId = x.applicationId
  amount : y.amount = x.amount
  paid : x.status = .succeeded → y.status = .succeeded
  back : x.refunded = true → y.refunded = true

theorem FeeIntent.Later.refl (x : FeeIntent) : x.Later x := ⟨rfl, rfl, fun h => h, fun h => h⟩

/-- The application that a stage is about. -/
def FeeStage.application (xs : Table FeeIntent) : FeeStage → Option ℕ
  | recording i | deciding i | refunding i => (xs.get? i).map (·.applicationId)
  | accepting id | sending id => some id

theorem FeeStage.application_some {xs : Table FeeIntent} {i : ℕ} {x : FeeIntent} (hx : xs.get? i = some x) :
    (xs.get? i).map (·.applicationId) = some x.applicationId := by
  rw [hx, Option.map_some]

theorem FeeStage.off {xs : Table FeeIntent} {t : FeeStage} {id : ℕ} {m : FeeStage → ℕ} (u : FeeStage)
    (ht : t.application xs ≠ some id) (hu : u.application xs = some id) :
    (Pi.single u 1 + m : FeeStage → ℕ) t = m t := by
  have hne : t ≠ u := by
    rintro rfl
    exact ht hu
  simp [hne]

/-- Less is seen or being accepted, and the rest is owed as before. -/
structure FeeLowers (m m' : FeeStage → ℕ) : Prop where
  recording : ∀ i, m' (.recording i) = m (.recording i)
  deciding : ∀ i, m' (.deciding i) = m (.deciding i)
  accepting : ∀ id, m' (.accepting id) ≤ m (.accepting id)
  refunding : ∀ i, m' (.refunding i) ≤ m (.refunding i)

/-- The fee of the application is as it was, and it is taken if it was. -/
structure JobApplication.FeeSame (p q : JobApplication) : Prop where
  intent : q.feePaymentIntentId = p.feePaymentIntentId
  cents : q.feeCents = p.feeCents
  paid : q.feePaidAt = p.feePaidAt
  refunded : q.feeRefundedAt = p.feeRefundedAt
  taken : p.status.taken = true → q.status.taken = true

theorem FeeLowers.refl (m : FeeStage → ℕ) : FeeLowers m m :=
  ⟨fun _ => rfl, fun _ => rfl, fun _ => le_rfl, fun _ => le_rfl⟩

theorem FeeLowers.add {a b : FeeStage → ℕ} (h : FeeLowers a b) (m : FeeStage → ℕ) :
    FeeLowers (a + m) (b + m) where
  recording i := congrArg (· + m (.recording i)) (h.recording i)
  deciding i := congrArg (· + m (.deciding i)) (h.deciding i)
  accepting id := Nat.add_le_add_right (h.accepting id) _
  refunding i := Nat.add_le_add_right (h.refunding i) _

theorem JobApplication.FeeSame.refl (p : JobApplication) : p.FeeSame p := ⟨rfl, rfl, rfl, rfl, fun h => h⟩

/-- Of the intent as much is owed, and no more is seen. -/
theorem FeeIntent.Of.later {x : FeeIntent} {i : ℕ} {p q : JobApplication} {m m' : FeeStage → ℕ}
    (h : x.Of i p m) (hi : q.feePaymentIntentId = p.feePaymentIntentId) (hpaid : q.feePaidAt = p.feePaidAt)
    (hrecording : m' (.recording i) = m (.recording i)) (hdeciding : m' (.deciding i) = m (.deciding i))
    (hrefunding : m' (.refunding i) ≤ m (.refunding i)) : x.Of i q m' := by
  constructor
  · rw [hi, hrecording]
    exact h.live
  · rw [hi, hrecording]
    exact h.gone
  · rw [hi, hpaid, hdeciding]
    exact h.owed
  · rw [hi]
    exact fun hone => h.seen (hone.trans hrefunding)

/-- The application keeps its fee while the intents move on. -/
theorem JobApplication.FeeRow.later {p q : JobApplication} {xs xs' : Table FeeIntent} {id : ℕ}
    {m m' : FeeStage → ℕ} (h : p.FeeRow xs id m) (hsame : p.FeeSame q) (hxs : xs.Lasts FeeIntent.Later xs')
    (hdeciding : ∀ i ∈ p.feePaymentIntentId, m' (.deciding i) = m (.deciding i))
    (haccepting : m' (.accepting id) ≤ m (.accepting id)) (hsending : m' (.sending id) = m (.sending id) ∨
      ∃ i x, xs'.get? i = some x ∧ x.applicationId = id ∧ x.refunded = true) : q.FeeRow xs' id m' := by
  constructor
  · rw [hsame.intent, hsame.cents]
    intro i hi
    obtain ⟨x, hx, hid, hle⟩ := h.recorded i hi
    obtain ⟨y, hy, hlater⟩ := hxs hx
    exact ⟨y, hy, hlater.application.trans hid, hlater.amount ▸ hle⟩
  · rw [hsame.paid, hsame.intent]
    intro hpaid
    obtain ⟨i, x, hi, hx, hstatus, hrest⟩ := h.paid hpaid
    obtain ⟨y, hy, hlater⟩ := hxs hx
    refine ⟨i, y, hi, hy, hlater.paid hstatus, hrest.imp (hdeciding i hi).trans fun hrest => ?_⟩
    exact ⟨hsame.taken hrest.1, Nat.le_zero.1 (hrest.2 ▸ haccepting)⟩
  · intro hone
    obtain ⟨htotal, htaken⟩ := h.taken (hone.trans haccepting)
    exact ⟨le_antisymm (htotal ▸ haccepting) hone, hsame.taken htaken⟩
  · rw [hsame.refunded]
    intro hsome
    rcases hsending with hsending | hback
    · rw [hsending]
      refine (h.back hsome).imp_left ?_
      rintro ⟨i, x, hx, hid, hback⟩
      obtain ⟨y, hy, hlater⟩ := hxs hx
      exact ⟨i, y, hy, hlater.application.trans hid, hlater.back hback⟩
    · exact .inl hback

namespace FeeSound

variable {s s' : JobBooks} {m m' : FeeStage → ℕ}

/-- Applications are rewritten that keep their fees. -/
theorem rewrite (h : FeeSound s m) {f : ℕ → JobApplication → JobApplication}
    (hf : ∀ k p, s.applications.get? k = some p → p.FeeSame (f k p))
    (happlications : s'.applications = s.applications.modifyAll f) (hintents : s'.intents = s.intents)
    (hm : FeeLowers m m') (hsending : ∀ id, m' (.sending id) = m (.sending id)) : FeeSound s' m' where
  row {id q} hq := by
    rw [happlications, Table.get?_modifyAll] at hq
    obtain ⟨p, hp, rfl⟩ := Option.map_eq_some_iff.1 hq
    rw [hintents]
    exact (h.row hp).later (hf id p hp) (.refl FeeIntent.Later.refl _) (fun i _ => hm.deciding i)
      (hm.accepting id) (.inl (hsending id))
  charge {i x} hx := by
    rw [hintents] at hx
    obtain ⟨p, hp, hof⟩ := h.charge hx
    have hsame := hf _ p hp
    exact ⟨f x.applicationId p, by rw [happlications, Table.get?_modifyAll, hp, Option.map_some],
      hof.later hsame.intent hsame.paid (hm.recording i) (hm.deciding i) (hm.refunding i)⟩
  fresh {id} hnone := by
    rw [happlications, Table.get?_modifyAll, Option.map_eq_none_iff] at hnone
    exact Nat.le_zero.1 (h.fresh hnone ▸ hm.accepting id)
  uncharged {i} hnone := by
    rw [hintents] at hnone
    obtain ⟨hdeciding, hrefunding⟩ := h.uncharged hnone
    exact ⟨(hm.deciding i).trans hdeciding, Nat.le_zero.1 (hrefunding ▸ hm.refunding i)⟩

/-- One application is rewritten, and what is owed for it changes. -/
theorem application (h : FeeSound s m) {id : ℕ} {f : JobApplication → JobApplication} {p : JobApplication}
    (hp : s.applications.get? id = some p) (happlications : s'.applications = s.applications.modify id f)
    (hintents : s'.intents = s.intents) (hrow : (f p).FeeRow s.intents id m')
    (hcharge : ∀ {i x}, s.intents.get? i = some x → x.applicationId = id → x.Of i p m → x.Of i (f p) m')
    (hm : ∀ t : FeeStage, t.application s.intents ≠ some id → m' t = m t) : FeeSound s' m' where
  row {j q} hq := by
    rw [hintents]
    rw [happlications, Table.get?_modify] at hq
    split at hq
    · next hj =>
      subst hj
      rw [hp, Option.map_some] at hq
      exact Option.some.inj hq ▸ hrow
    · next hj =>
      have hne : some j ≠ some id := fun heq => hj (Option.some.inj heq)
      refine (h.row hq).later (.refl q) (.refl FeeIntent.Later.refl _) (fun i hi => hm _ ?_)
        (hm (.accepting j) hne).le (.inl (hm (.sending j) hne))
      obtain ⟨x, hx, hof, -⟩ := (h.row hq).recorded i hi
      rw [FeeStage.application, hx, Option.map_some, hof]
      exact hne
  charge {i x} hx := by
    rw [hintents] at hx
    obtain ⟨q, hq, hof⟩ := h.charge hx
    by_cases hj : x.applicationId = id
    · obtain rfl := Option.some.inj (hp.symm.trans (hj ▸ hq))
      exact ⟨f p, by rw [happlications, hj, Table.get?_modify_self, hp, Option.map_some],
        hcharge hx hj hof⟩
    · have hmine : ∀ t : FeeStage, t.application s.intents = (s.intents.get? i).map (·.applicationId) →
          m' t = m t := by
        intro t ht
        refine hm t fun heq => hj (Option.some.inj ?_)
        rw [← heq, ht, hx, Option.map_some]
      exact ⟨q, by rw [happlications, Table.get?_modify_of_ne _ _ hj, hq],
        hof.later rfl rfl (hmine (.recording i) rfl) (hmine (.deciding i) rfl) (hmine (.refunding i) rfl).le⟩
  fresh {j} hnone := by
    rw [happlications, Table.get?_modify] at hnone
    split at hnone
    · next hj =>
      subst hj
      rw [hp] at hnone
      cases hnone
    · next hj =>
      exact (hm (.accepting j) fun heq => hj (Option.some.inj heq)).trans (h.fresh hnone)
  uncharged {i} hnone := by
    rw [hintents] at hnone
    have hmine : ∀ t : FeeStage, t.application s.intents = (s.intents.get? i).map (·.applicationId) →
        m' t = m t := by
      intro t ht
      refine hm t ?_
      rw [ht, hnone]
      exact (Option.some_ne_none id).symm
    rw [hmine (.deciding i) rfl, hmine (.refunding i) rfl]
    exact h.uncharged hnone

/-- A pending application is accepted. -/
theorem take (h : FeeSound s m) {id : ℕ} {p : JobApplication} (hp : s.applications.get? id = some p)
    (hpending : p.status = .pending)
    (happlications : s'.applications = s.applications.modify id fun a => { a with status := .accepted })
    (hintents : s'.intents = s.intents) : FeeSound s' (Pi.single (.accepting id) 1 + m) := by
  have hrow := h.row hp
  have hnone : m (.accepting id) = 0 := by
    by_contra hone
    have htaken := (hrow.taken (Nat.one_le_iff_ne_zero.2 hone)).2
    rw [hpending] at htaken
    cases htaken
  refine h.application hp happlications hintents ⟨hrow.recorded, fun hpaid => ?_, ?_, ?_⟩ ?_ ?_
  · -- a paid application that is pending is being decided
    obtain ⟨i, x, hi, hx, hstatus, hone | ⟨htaken, -⟩⟩ := hrow.paid hpaid
    · exact ⟨i, x, hi, hx, hstatus, .inl (by simpa using hone)⟩
    · rw [hpending] at htaken
      cases htaken
  · exact fun _ => ⟨by simp [hnone], rfl⟩
  · simpa using hrow.back
  · exact fun _ _ hof => hof.later rfl rfl (by simp) (by simp) (by simp)
  · exact fun t ht => FeeStage.off (.accepting _) ht rfl

/-- An acceptance is undone: the fee is claimed only where it is still being decided. -/
theorem undo {id : ℕ} (h : FeeSound s (Pi.single (.accepting id) 1 + m))
    (happlications : s'.applications = s.applications.modify id fun a => { a with status := .pending })
    (hintents : s'.intents = s.intents) : FeeSound s' m := by
  cases hp : s.applications.get? id with
  | none =>
    have hfresh := h.fresh hp
    simp at hfresh
  | some p =>
    have hrow := h.row hp
    have hnone : m (.accepting id) = 0 := by
      have hone := (hrow.taken (by simp)).1
      simpa using hone
    refine h.application hp happlications hintents ⟨hrow.recorded, fun hpaid => ?_, ?_, ?_⟩ ?_ ?_
    · obtain ⟨i, x, hi, hx, hstatus, hone | ⟨-, hzero⟩⟩ := hrow.paid hpaid
      · exact ⟨i, x, hi, hx, hstatus, .inl (by simpa using hone)⟩
      · simp at hzero
    · intro hone
      omega
    · simpa using hrow.back
    · exact fun _ _ hof => hof.later rfl rfl (by simp) (by simp) (by simp)
    · exact fun t ht => (FeeStage.off (.accepting _) ht rfl).symm

/-- The acceptance that a fee was claimed for stands. -/
theorem settle {i : ℕ} {x : FeeIntent} (hx : s.intents.get? i = some x)
    (h : FeeSound s (Pi.single (.deciding i) 1 + (Pi.single (.accepting x.applicationId) 1 + m))) :
    FeeSound s m := by
  obtain ⟨p, hp, hof⟩ := h.charge hx
  have hrow := h.row hp
  obtain ⟨hone, htaken⟩ := hrow.taken (by simp)
  have howed := (hof.owed (by simp)).1
  simp only [Pi.add_apply, Pi.single_eq_same, Pi.single_apply, reduceCtorEq, if_false] at hone howed
  refine h.application (f := fun a => a) hp (Table.modify_id _ _).symm rfl
    ⟨hrow.recorded, fun hpaid => ?_, ?_, ?_⟩ ?_ ?_
  · obtain ⟨j, y, hj, hy, hstatus, -⟩ := hrow.paid hpaid
    exact ⟨j, y, hj, hy, hstatus, .inr ⟨htaken, by omega⟩⟩
  · intro hmore
    omega
  · simpa using hrow.back
  · intro j y hy _ hof'
    by_cases hj : j = i
    · subst hj
      refine ⟨by simpa using hof'.live, by simpa using hof'.gone, fun hmore => ?_, by simpa using hof'.seen⟩
      omega
    · exact hof'.later rfl rfl (by simp) (by simp [hj]) (by simp)
  · exact fun t ht => ((FeeStage.off (.deciding i) ht (FeeStage.application_some hx)).trans
      (FeeStage.off (.accepting _) ht rfl)).symm

/-- The fee is claimed for the intent on record. -/
theorem claim (h : FeeSound s m) {i : ℕ} {x : FeeIntent} {p : JobApplication}
    (hx : s.intents.get? i = some x) (hstatus : x.status = .succeeded)
    (hp : s.applications.get? x.applicationId = some p) (hunpaid : p.feePaidAt = none)
    (hi : p.feePaymentIntentId = some i) {now : ℤ} (happlications : s'.applications =
      s.applications.modify x.applicationId fun a => { a with feePaidAt := some now })
    (hintents : s'.intents = s.intents) : FeeSound s' (Pi.single (.deciding i) 1 + m) := by
  have hrow := h.row hp
  have hzero : ∀ {j} {y : FeeIntent}, y.Of j p m → m (.deciding j) = 0 := by
    intro j y hof
    by_contra hone
    rcases (hof.owed (Nat.one_le_iff_ne_zero.2 hone)).2.2 with ⟨-, hpaid⟩ | ⟨hnone, -⟩
    · rw [hunpaid] at hpaid
      cases hpaid
    · rw [hi] at hnone
      cases hnone
  obtain ⟨q, hq, hof⟩ := h.charge hx
  obtain rfl := Option.some.inj (hp.symm.trans hq)
  have hmine := hzero hof
  refine h.application hp happlications hintents ⟨hrow.recorded, fun _ => ?_, ?_, ?_⟩ ?_ ?_
  · exact ⟨i, x, hi, hx, hstatus, .inl (by simp [hmine])⟩
  · simpa using hrow.taken
  · simpa using hrow.back
  · intro j y hy _ hof'
    refine ⟨by simpa using hof'.live, by simpa using hof'.gone, fun hone => ?_, by simpa using hof'.seen⟩
    by_cases hj : j = i
    · subst hj
      obtain rfl := Option.some.inj (hx.symm.trans hy)
      exact ⟨by simp [hmine], hstatus, .inl ⟨hi, rfl⟩⟩
    · have hother := hzero hof'
      simp [hj, hother] at hone
  · exact fun t ht => FeeStage.off (.deciding i) ht (FeeStage.application_some hx)

/-- A fee that was given back is forgotten, and nothing else of it is being decided, or still is. -/
theorem forget (h : FeeSound s m) {i : ℕ} {x : FeeIntent} {p : JobApplication}
    (hx : s.intents.get? i = some x) (hback : x.refunded = true)
    (hp : s.applications.get? x.applicationId = some p)
    (hi : p.feePaymentIntentId = some i ∨ p.feePaymentIntentId = none)
    (hm : ∀ t, t ≠ .deciding i → m' t = m t)
    (hmine : m' (.deciding i) = m (.deciding i) ∨ m' (.deciding i) = 0)
    {f : JobApplication → JobApplication} {now : ℤ} (hf : f p = { p with
      feePaidAt := none
      feeRefundedAt := some now
      feePaymentIntentId := none })
    (happlications : s'.applications = s.applications.modify x.applicationId f)
    (hintents : s'.intents = s.intents) : FeeSound s' m' := by
  refine h.application hp happlications hintents (hf ▸ ⟨nofun, nofun, ?_, fun _ => ?_⟩) ?_ ?_
  · rw [hm _ FeeStage.noConfusion]
    exact (h.row hp).taken
  · exact .inl ⟨i, x, hx, rfl, hback⟩
  · rw [hf]
    intro j y hy _ hof
    have hsame : p.feePaymentIntentId = some j → y.refunded = true := by
      intro hj
      rcases hi with hi | hi
      · obtain rfl := Option.some.inj (hi.symm.trans hj)
        obtain rfl := Option.some.inj (hx.symm.trans hy)
        exact hback
      · rw [hi] at hj
        cases hj
    refine ⟨fun hlive hnot => ?_, fun hgone => ⟨(hof.gone hgone).1, .inr (.inl rfl)⟩, fun hone => ?_,
      fun hone => ?_⟩
    · rw [hm _ FeeStage.noConfusion]
      refine .inr ((hof.live hlive hnot).resolve_left fun hj => ?_)
      rw [hsame hj] at hnot
      cases hnot
    · have hdeciding : m' (.deciding j) = m (.deciding j) := by
        by_cases hj : j = i
        · subst hj
          refine hmine.resolve_right fun hzero => ?_
          rw [hzero] at hone
          cases hone
        · exact hm _ fun heq => hj (FeeStage.deciding.inj heq)
      rw [hdeciding] at hone ⊢
      obtain ⟨htotal, hstatus, hcase⟩ := hof.owed hone
      exact ⟨htotal, hstatus, .inr ⟨rfl, hcase.elim (fun hmine => hsame hmine.1) And.right⟩⟩
    · rw [hm _ FeeStage.noConfusion] at hone
      obtain ⟨hstatus, hcase⟩ := hof.seen hone
      exact ⟨hstatus, .inr ⟨rfl, hcase.elim hsame And.right⟩⟩
  · intro t ht
    refine hm t ?_
    rintro rfl
    exact ht (FeeStage.application_some hx)

/-- Stripe tells that an intent was given back. -/
theorem revoke (h : FeeSound s m) {i : ℕ} {x : FeeIntent} (hx : s.intents.get? i = some x)
    (hback : x.refunded = true) : FeeSound (s.revoke i) m := by
  obtain ⟨p, hp, -⟩ := h.charge hx
  have happlications : (s.revoke i).applications =
      s.applications.modify x.applicationId (·.revoke s.now i) := by
    refine Table.modifyAll_congr (f := fun _ => JobApplication.revoke s.now i)
      (g := fun k a => if k = x.applicationId then JobApplication.revoke s.now i a else a) fun k q hq => ?_
    split
    · rfl
    · next hk =>
      -- no other application has the intent on record
      refine if_neg fun hcond => hk ?_
      obtain ⟨y, hy, hof, -⟩ := (h.row hq).recorded i hcond.1
      obtain rfl := Option.some.inj (hx.symm.trans hy)
      exact hof.symm
  by_cases hcond : p.feePaymentIntentId = some i ∧ p.feePaidAt.isSome = true ∧ p.feeRefundedAt = none
  · exact h.forget hx hback hp (.inl hcond.1) (fun _ _ => rfl) (.inl rfl)
      (f := (·.revoke s.now i)) (if_pos hcond) happlications rfl
  · have hsame : p.revoke s.now i = p := if_neg hcond
    exact h.application hp happlications rfl (hsame.symm ▸ h.row hp) (fun _ _ hof => hsame.symm ▸ hof)
      fun _ _ => rfl

/-- A new intent goes on record where no other can be paid, was paid or was given back. -/
theorem record {i : ℕ} {x : FeeIntent} {p : JobApplication} (hx : s.intents.get? i = some x)
    (hp : s.applications.get? x.applicationId = some p) (hunpaid : p.feePaidAt = none)
    (hcanceled : ∀ j ∈ p.feePaymentIntentId, ∀ y, s.intents.get? j = some y → y.status = .canceled)
    (hnone : ∀ j y, s.intents.get? j = some y → y.applicationId = x.applicationId → y.refunded = false)
    (h : FeeSound s (Pi.single (.recording i) 1 + m)) {u : Option ℕ} (happlications :
      s'.applications = s.applications.modify x.applicationId fun a => { a with
        feePaymentIntentId := some i
        feeCents := some x.amount
        feePayerUserId := u }) (hintents : s'.intents = s.intents) : FeeSound s' m := by
  have hrow := h.row hp
  refine h.application hp happlications hintents ⟨?_, ?_, ?_, ?_⟩ ?_ ?_
  · intro j hj
    obtain rfl := Option.some.inj hj
    exact ⟨x, hx, rfl, le_rfl⟩
  · intro hpaid
    rw [hunpaid] at hpaid
    cases hpaid
  · simpa using hrow.taken
  · simpa using hrow.back
  · intro j y hy hyid hof
    have hkept := hnone j y hy hyid
    refine ⟨fun hlive hnot => ?_, fun hgone => ?_, fun hone => ?_, fun hone => ?_⟩
    · by_cases hj : j = i
      · exact .inl (congrArg some hj.symm)
      · rcases hof.live hlive hnot with hold | hrecording
        · exact absurd (hcanceled j hold y hy) hlive
        · exact .inr (by simpa [hj] using hrecording)
    · rw [hkept] at hgone
      cases hgone
    · rcases (hof.owed (by simpa using hone)).2.2 with ⟨-, hpaid⟩ | ⟨-, hgone⟩
      · rw [hunpaid] at hpaid
        cases hpaid
      · rw [hkept] at hgone
        cases hgone
    · obtain ⟨hstatus, hold | ⟨-, hgone⟩⟩ := hof.seen (by simpa using hone)
      · rw [hcanceled j hold y hy] at hstatus
        cases hstatus
      · rw [hkept] at hgone
        cases hgone
  · exact fun t ht => (FeeStage.off (.recording i) ht (FeeStage.application_some hx)).symm

/-- The refund of an application is claimed, or given up again. -/
theorem refundAt (h : FeeSound s m) {id : ℕ} {p : JobApplication} (hp : s.applications.get? id = some p)
    {at' : Option ℤ} (hback : at'.isSome → 1 ≤ m' (.sending id))
    (hm : ∀ t, t ≠ .sending id → m' t = m t) (happlications : s'.applications =
      s.applications.modify id fun a => { a with feeRefundedAt := at' })
    (hintents : s'.intents = s.intents) : FeeSound s' m' := by
  have hrow := h.row hp
  refine h.application hp happlications hintents ⟨hrow.recorded, ?_, ?_, fun hsome => .inr (hback hsome)⟩
    ?_ fun t ht => hm t ?_
  · rw [hm (.accepting id) FeeStage.noConfusion]
    intro hpaid
    obtain ⟨i, x, hi, hx, hstatus, hrest⟩ := hrow.paid hpaid
    exact ⟨i, x, hi, hx, hstatus, hrest.imp_left (hm _ FeeStage.noConfusion).trans⟩
  · rw [hm _ FeeStage.noConfusion]
    exact hrow.taken
  · exact fun _ _ hof => hof.later rfl rfl (hm _ FeeStage.noConfusion) (hm _ FeeStage.noConfusion)
      (hm _ FeeStage.noConfusion).le
  · rintro rfl
    exact ht rfl

/-- An intent moves on. -/
theorem intent (h : FeeSound s m) {i : ℕ} {x : FeeIntent} {g : FeeIntent → FeeIntent}
    (hx : s.intents.get? i = some x) (hg : x.Later (g x)) (hof : ∀ p, x.Of i p m → (g x).Of i p m')
    (hm : FeeLowers m m') (hsending : ∀ id, m' (.sending id) = m (.sending id) ∨
      id = x.applicationId ∧ (g x).refunded = true)
    (happlications : s'.applications = s.applications)
    (hintents : s'.intents = s.intents.modify i g) : FeeSound s' m' where
  row {id p} hp := by
    rw [hintents]
    refine (h.row (happlications ▸ hp)).later (.refl p) (.modify FeeIntent.Later.refl fun y hy => ?_)
      (fun j _ => hm.deciding j) (hm.accepting id) ((hsending id).imp_right ?_)
    · exact Option.some.inj (hx.symm.trans hy) ▸ hg
    · rintro ⟨rfl, hback⟩
      exact ⟨i, g x, by rw [Table.get?_modify_self, hx, Option.map_some], hg.application, hback⟩
  charge {j y} hy := by
    rw [hintents, Table.get?_modify] at hy
    rw [happlications]
    split at hy
    · next hj =>
      subst hj
      rw [hx, Option.map_some] at hy
      obtain rfl := Option.some.inj hy
      obtain ⟨p, hp, hold⟩ := h.charge hx
      exact ⟨p, hg.application ▸ hp, hof p hold⟩
    · obtain ⟨p, hp, hold⟩ := h.charge hy
      exact ⟨p, hp, hold.later rfl rfl (hm.recording j) (hm.deciding j) (hm.refunding j)⟩
  fresh {id} hnone := Nat.le_zero.1 (h.fresh (happlications ▸ hnone) ▸ hm.accepting id)
  uncharged {j} hnone := by
    have hold : s.intents.get? j = none := by
      rw [hintents, Table.get?_modify] at hnone
      split at hnone
      · exact Option.map_eq_none_iff.1 hnone
      · exact hnone
    exact ⟨(hm.deciding j).trans (h.uncharged hold).1,
      Nat.le_zero.1 ((h.uncharged hold).2 ▸ hm.refunding j)⟩

/-- An intent that was not paid is canceled. -/
theorem cancel (h : FeeSound s m) (i : ℕ) : FeeSound (s.setIntent i fun x =>
    { x with status := if x.status = .opened then .canceled else x.status }) m := by
  cases hx : s.intents.get? i with
  | none =>
    refine h.rewrite (f := fun _ p => p) (fun _ p _ => .refl p) (JobBooks.modifyAll_id _).symm ?_ (.refl m)
      fun _ => rfl
    simp only [JobBooks.setIntent, Table.modify_of_none hx]
  | some x =>
    refine h.intent (g := fun x => { x with status := if x.status = .opened then .canceled else x.status })
      hx ⟨rfl, rfl, fun hpaid => by simp [hpaid], fun h => h⟩ (fun p hof => ?_) (.refl m)
      (fun _ => .inl rfl) rfl rfl
    by_cases hopen : x.status = .opened
    · have hpaid : x.status ≠ .succeeded := by
        rw [hopen]
        exact IntentStatus.noConfusion
      exact ⟨fun hlive => absurd (if_pos hopen) hlive, fun hgone => absurd (hof.gone hgone).1 hpaid,
        fun hone => absurd (hof.owed hone).2.1 hpaid, fun hone => absurd (hof.seen hone).1 hpaid⟩
    · simpa [hopen] using hof

/-- A paid intent is given back. -/
theorem giveBack {i : ℕ} {x : FeeIntent} (h : FeeSound s m) (hx : s.intents.get? i = some x)
    (hstatus : x.status = .succeeded) (hm : FeeLowers m m')
    (hsending : ∀ id, id ≠ x.applicationId → m' (.sending id) = m (.sending id)) :
    FeeSound (s.giveBack i) m' := by
  refine h.intent (g := fun x => { x with refunded := x.status == .succeeded || x.refunded }) hx
    ⟨rfl, rfl, fun h => h, fun h => by simp [h]⟩ (fun p hof => ?_) hm (fun id => ?_) rfl rfl
  · have hback : (x.status == .succeeded || x.refunded) = true := by simp [hstatus]
    refine ⟨fun _ hnot => ?_, fun _ => ⟨hstatus, ?_⟩, fun hone => ?_, fun hone => ⟨hstatus, ?_⟩⟩
    · rw [hback] at hnot
      cases hnot
    · rw [hm.recording]
      by_cases hgone : x.refunded = true
      · exact (hof.gone hgone).2
      · have hlive : x.status ≠ .canceled := hstatus ▸ IntentStatus.noConfusion
        exact (hof.live hlive (Bool.eq_false_iff.2 hgone)).imp_right .inr
    · rw [hm.deciding] at hone ⊢
      obtain ⟨htotal, -, hcase⟩ := hof.owed hone
      exact ⟨htotal, hstatus, hcase.imp_right fun hnone => ⟨hnone.1, hback⟩⟩
    · exact (hof.seen (hone.trans (hm.refunding i))).2.imp_right fun hnone => ⟨hnone.1, hback⟩
  · by_cases hid : id = x.applicationId
    · exact .inr ⟨hid, by simp [hstatus]⟩
    · exact .inl (hsending id hid)

/-- Nothing of a fee changes. -/
theorem same {a b : FeeStage → ℕ} (h : FeeSound s (a + m)) (happlications : s'.applications = s.applications)
    (hintents : s'.intents = s.intents) (hm : FeeLowers a b)
    (hsending : ∀ id, b (.sending id) = a (.sending id)) : FeeSound s' (b + m) :=
  h.rewrite (f := fun _ p => p) (fun _ p _ => .refl p) (happlications.trans (JobBooks.modifyAll_id _).symm)
    hintents (hm.add m) fun id => congrArg (· + m (.sending id)) (hsending id)

/-- A fee is read for a refund. -/
theorem see (h : FeeSound s m) {id : ℕ} {p : JobApplication} (hp : s.applications.get? id = some p) :
    FeeSound s (p.sees + m) := by
  unfold JobApplication.sees
  cases hfee : p.fee with
  | none => simpa using h
  | some i =>
    have hrow := h.row hp
    rw [JobApplication.fee, Option.ite_none_right_eq_some] at hfee
    obtain ⟨hpaid, hi⟩ := hfee
    obtain ⟨j, x, hj, hx, hstatus, -⟩ := hrow.paid hpaid
    obtain rfl := Option.some.inj (hi.symm.trans hj)
    obtain ⟨z, hz, hof, -⟩ := hrow.recorded i hi
    obtain rfl := Option.some.inj (hx.symm.trans hz)
    change FeeSound s (Pi.single (.refunding i) 1 + m)
    refine h.application (f := fun a => a) hp (Table.modify_id _ _).symm rfl (hrow.later (.refl p)
      (.refl FeeIntent.Later.refl _) (by simp) (by simp) (by simp)) (fun {k y} hy _ hof' => ?_) fun t ht => ?_
    · by_cases hk : k = i
      · subst hk
        obtain rfl := Option.some.inj (hx.symm.trans hy)
        exact ⟨by simpa using hof'.live, by simpa using hof'.gone, by simpa using hof'.owed,
          fun _ => ⟨hstatus, .inl hi⟩⟩
      · exact hof'.later rfl rfl (by simp) (by simp) (by simp [hk])
    · exact FeeStage.off (.refunding i) ht (hof ▸ FeeStage.application_some hx)

/-- A new intent, not on record yet. -/
theorem charged (h : FeeSound s m) {x : FeeIntent} (hopen : x.status = .opened) (hkept : x.refunded = false)
    (hp : (s.applications.get? x.applicationId).isSome) (happlications : s'.applications = s.applications)
    (hintents : s'.intents = s.intents.insert x) :
    FeeSound s' (Pi.single (.recording s.intents.next) 1 + m) where
  row {id p} hp := by
    rw [hintents]
    exact (h.row (happlications ▸ hp)).later (.refl p) (.insert FeeIntent.Later.refl _ _) (by simp) (by simp)
      (by simp)
  charge {i y} hy := by
    rw [happlications]
    rw [hintents] at hy
    rcases Table.get?_insert_cases hy with ⟨rfl, rfl⟩ | hold
    · obtain ⟨p, hp⟩ := Option.isSome_iff_exists.1 hp
      have hnone := h.uncharged s.intents.get?_next
      refine ⟨p, hp, fun _ _ => .inr (by simp), fun hgone => ?_, fun hone => ?_, fun hone => ?_⟩
      · rw [hkept] at hgone
        cases hgone
      · simp [hnone.1] at hone
      · simp [hnone.2] at hone
    · obtain ⟨p, hp, hof⟩ := h.charge hold
      have hne : i ≠ s.intents.next := (Table.lt_next_of_get? hold).ne
      exact ⟨p, hp, hof.later rfl rfl (by simp [hne]) (by simp) (by simp)⟩
  fresh {id} hnone := by simpa using h.fresh (happlications ▸ hnone)
  uncharged {i} hnone := by
    have hold : s.intents.get? i = none := by
      by_contra hsome
      obtain ⟨y, hy⟩ := Option.ne_none_iff_exists'.1 hsome
      rw [hintents, Table.get?_insert_of_some x hy] at hnone
      cases hnone
    simpa using h.uncharged hold

/-- A new application. -/
theorem applied (h : FeeSound s m) {openingId userId : ℕ}
    (happlications : s'.applications = s.applications.insert (newApplication openingId userId))
    (hintents : s'.intents = s.intents) : FeeSound s' m where
  row {id p} hp := by
    rw [hintents]
    rw [happlications] at hp
    rcases Table.get?_insert_cases hp with ⟨rfl, rfl⟩ | hold
    · refine ⟨fun i hi => ?_, fun hpaid => ?_, fun hone => ?_, fun hsome => ?_⟩
      · cases hi
      · cases hpaid
      · rw [h.fresh s.applications.get?_next] at hone
        cases hone
      · cases hsome
    · exact h.row hold
  charge {i x} hx := by
    obtain ⟨p, hp, hof⟩ := h.charge (hintents ▸ hx)
    exact ⟨p, by rw [happlications, Table.get?_insert_of_some _ hp], hof⟩
  fresh {id} hnone := by
    refine h.fresh ?_
    by_contra hsome
    obtain ⟨p, hp⟩ := Option.ne_none_iff_exists'.1 hsome
    rw [happlications, Table.get?_insert_of_some _ hp] at hnone
    cases hnone
  uncharged {i} hnone := h.uncharged (hintents ▸ hnone)

end FeeSound

end Barbershop
