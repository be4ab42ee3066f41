import Barbershop.Staff.JobFee

/-!
# Where the fee of a job is

Each step of a call keeps `FeeSound`, if it meets `JobCall.keepsFee`. When all calls have ended, every fee
that was paid has its place (`FeeIntent.Placed`).
-/

namespace Barbershop

open Lib

/-! ## What the steps have to meet -/

/-- A step that can lose a fee, and when it does not. -/
def JobCall.keepsFee (granted : Bool) (s : JobBooks) : JobCall → Bool
  | recording o _ => (s.applications.get? o.applicationId).all fun a => a.feePaidAt.isNone &&
      (a.feePaymentIntentId.bind s.intents.get?).all (·.status == .canceled) &&
      !s.intents.any fun _ x => x.applicationId == o.applicationId && x.refunded
  | claimingFee i _ _ => ((s.intents.get? i).bind fun x => s.applications.get? x.applicationId).all
      fun a => a.feePaidAt.isSome || a.feePaymentIntentId == some i
  | returning i _ => granted || (s.intents.get? i).any (·.refunded)
  | applyingAgain id => (s.applications.get? id).all (·.status == .withdrawn)
  | _ => true

/-! ## What a call knows -/

/-- Applications and intents stay. -/
structure JobBooks.FeeLater (s s' : JobBooks) : Prop where
  applications : s.applications.Lasts (fun _ _ => True) s'.applications
  intents : s.intents.Lasts FeeIntent.Later s'.intents

/-- The intent `i` is of an application, and satisfies `p`. -/
def JobBooks.FeeOf (s : JobBooks) (applicationId i : ℕ) (p : FeeIntent → Prop) : Prop :=
  ∃ x, s.intents.get? i = some x ∧ x.applicationId = applicationId ∧ p x

def Acceptance.FeeKnown (s : JobBooks) (q : Acceptance) : Prop :=
  ∀ i ∈ q.fee, s.FeeOf q.applicationId i fun _ => True

def JobApplication.FeeKnown (s : JobBooks) (id : ℕ) (p : JobApplication) : Prop :=
  ∀ i ∈ p.fee, s.FeeOf id i fun _ => True

def JobCall.FeeKnown (s : JobBooks) : JobCall → Prop
  | retrieving o _ | canceling o _ | creating o => (s.applications.get? o.applicationId).isSome
  | recording o i => s.FeeOf o.applicationId i fun x => x.amount = o.feeCents
  | confirming _ => True
  | finalizing i | claimingFee i _ _ => ∃ x, s.intents.get? i = some x ∧ x.status = .succeeded
  | deciding q | locking q _ _ | counting q _ _ _ | taking q _ _ | inviting q _ _ | undoing q => q.FeeKnown s
  | returning i id => s.FeeOf id i fun _ => True
  | forgetting i id => s.FeeOf id i fun x => x.refunded = true
  | checking r | judging r _ | expiring r _ _ => r.seen.FeeKnown s r.applicationId
  | withdrawing _ r | refunding r => r.seen.FeeKnown s r.applicationId
  | sending r i => s.FeeOf r.applicationId i fun _ => True
  | unclaiming r => (s.applications.get? r.applicationId).isSome
  | _ => True

/-- What the call that goes on knows. -/
def FeeNext (s : JobBooks) (c : Option JobCall) : Prop := ∀ a ∈ c, a.FeeKnown s

def feeInv : CallInv JobBooks JobCall (FeeStage → ℕ) where
  weight := JobCall.owes
  whole := FeeSound
  each s c := c.FeeKnown s

section Steps

variable {s s' : JobBooks} {site : JobSite}

theorem JobBooks.succeeded_iff {i : ℕ} :
    s.succeeded i = true ↔ ∃ x, s.intents.get? i = some x ∧ x.status = .succeeded := by
  simp [succeeded, Option.any_eq_true]

theorem JobBooks.FeeLater.same (happlications : s'.applications = s.applications)
    (hintents : s'.intents = s.intents) : s.FeeLater s' :=
  ⟨happlications ▸ .refl (fun _ => trivial) _, hintents ▸ .refl FeeIntent.Later.refl _⟩

theorem JobBooks.FeeOf.later {applicationId i : ℕ} {p : FeeIntent → Prop} (h : s.FeeOf applicationId i p)
    (hs : s.FeeLater s') (hp : ∀ {x y : FeeIntent}, x.Later y → p x → p y) : s'.FeeOf applicationId i p := by
  obtain ⟨x, hx, hid, hx'⟩ := h
  obtain ⟨y, hy, hlater⟩ := hs.intents hx
  exact ⟨y, hy, hlater.application.trans hid, hp hlater hx'⟩

theorem JobCall.FeeKnown.later {c : JobCall} (h : c.FeeKnown s) (hs : s.FeeLater s') : c.FeeKnown s' := by
  have hsome : ∀ id, (s.applications.get? id).isSome → (s'.applications.get? id).isSome := by
    intro id hid
    obtain ⟨a, ha⟩ := Option.isSome_iff_exists.1 hid
    obtain ⟨b, hb, -⟩ := hs.applications ha
    exact Option.isSome_iff_exists.2 ⟨b, hb⟩
  cases c with
  | retrieving o i | canceling o i | creating o => exact hsome o.applicationId h
  | unclaiming r => exact hsome r.applicationId h
  | recording o i => exact JobBooks.FeeOf.later h hs fun hlater hx => hlater.amount.trans hx
  | finalizing i | claimingFee i b seen =>
    obtain ⟨x, hx, hstatus⟩ := h
    obtain ⟨y, hy, hlater⟩ := hs.intents hx
    exact ⟨y, hy, hlater.paid hstatus⟩
  | forgetting i id => exact JobBooks.FeeOf.later h hs fun hlater => hlater.back
  | returning i id | sending r i => exact JobBooks.FeeOf.later h hs fun _ hx => hx
  | deciding q | locking q a b | counting q a b d | taking q a b | inviting q a b | undoing q
  | checking r | judging r a | expiring r a b | withdrawing a r | refunding r =>
    exact fun i hi => (h i hi).later hs fun _ hx => hx
  | _ => trivial

theorem FeeNext.none : FeeNext s none := fun _ ha => by cases ha

theorem FeeNext.some {c : JobCall} (h : c.FeeKnown s) : FeeNext s (some c) := by
  intro a ha
  cases ha
  exact h

theorem FeeNext.later {c : Option JobCall} (h : FeeNext s c) (hs : s.FeeLater s') : FeeNext s' c :=
  fun a ha => (h a ha).later hs

/-- A move that keeps the fees. -/
theorem feeInv_kept {c c' : Option JobCall} {m : FeeStage → ℕ} (hsound : FeeSound s' (feeInv.weigh c' + m))
    (hlater : s.FeeLater s') (hmine : FeeNext s' c') : feeInv.Kept s c m s' c' where
  whole := hsound
  mine := hmine
  others _ hd _ := JobCall.FeeKnown.later hd hlater
  apart _ _ _ _ _ := trivial

/-- A move after which the call owes nothing. -/
theorem feeInv_free {c c' : Option JobCall} {m : FeeStage → ℕ} (hsound : FeeSound s' m)
    (hw : feeInv.weigh c' = 0) (hlater : s.FeeLater s') (hmine : FeeNext s' c') :
    feeInv.Kept s c m s' c' :=
  feeInv_kept (by rwa [hw, zero_add]) hlater hmine

theorem Acceptance.weigh_failed (q : Acceptance) : feeInv.weigh q.failed = q.owes := by
  unfold failed owes
  cases q.fee <;> rfl

theorem Acceptance.failed_known {q : Acceptance} (h : q.FeeKnown s) : FeeNext s q.failed := by
  intro a ha
  obtain ⟨i, hi, rfl⟩ := Option.map_eq_some_iff.1 ha
  exact h i hi

theorem FeeRefund.weigh_done (r : FeeRefund) : feeInv.weigh r.done = 0 := by
  unfold done
  cases r.reopens <;> rfl

theorem FeeRefund.done_known (r : FeeRefund) : FeeNext s r.done := by
  intro a ha
  obtain ⟨i, -, rfl⟩ := Option.map_eq_some_iff.1 ha
  trivial

theorem JobBooks.FeeLater.application (id : ℕ) (f : JobApplication → JobApplication)
    (happlications : s'.applications = s.applications.modify id f) (hintents : s'.intents = s.intents) :
    s.FeeLater s' where
  applications := by
    rw [happlications]
    exact .modify (fun _ => trivial) fun _ _ => trivial
  intents := by
    rw [hintents]
    exact .refl FeeIntent.Later.refl _

theorem JobBooks.applications_setApplication (s : JobBooks) (id : ℕ) (f : JobApplication → JobApplication) :
    (s.setApplication id f).applications = s.applications.modify id f := rfl

theorem JobBooks.FeeLater.setApplication {id : ℕ} {f : JobApplication → JobApplication} :
    s.FeeLater (s.setApplication id f) := .application id f rfl rfl

theorem JobBooks.FeeLater.intent {i : ℕ} {g : FeeIntent → FeeIntent}
    (hg : ∀ x, s.intents.get? i = some x → x.Later (g x)) : s.FeeLater (s.setIntent i g) where
  applications := .refl (fun _ => trivial) _
  intents := .modify FeeIntent.Later.refl hg

theorem JobBooks.FeeLater.giveBack (i : ℕ) : s.FeeLater (s.giveBack i) :=
  .intent fun _ _ => ⟨rfl, rfl, fun h => h, fun h => by simp [h]⟩

/-- The applications and the intents are as they were, and no more is owed. -/
theorem feeInv_same {c c' : Option JobCall} {m : FeeStage → ℕ} (h : FeeSound s (feeInv.weigh c + m))
    (happlications : s'.applications = s.applications) (hintents : s'.intents = s.intents)
    (hm : FeeLowers (feeInv.weigh c) (feeInv.weigh c'))
    (hsending : ∀ id, feeInv.weigh c' (.sending id) = feeInv.weigh c (.sending id))
    (hmine : FeeNext s c') : feeInv.Kept s c m s' c' := by
  have hlater : s.FeeLater s' := .same happlications hintents
  exact feeInv_kept (h.same happlications hintents hm hsending) hlater (hmine.later hlater)

theorem feeInv_stay {c c' : Option JobCall} {m : FeeStage → ℕ} (h : FeeSound s (feeInv.weigh c + m))
    (happlications : s'.applications = s.applications) (hintents : s'.intents = s.intents)
    (hw : feeInv.weigh c' = feeInv.weigh c) (hmine : FeeNext s c') : feeInv.Kept s c m s' c' :=
  feeInv_same h happlications hintents (hw ▸ .refl _) (fun _ => congrFun hw _) hmine

/-- One application is rewritten, and keeps its fee. -/
theorem feeInv_rewrite {c c' : Option JobCall} {m : FeeStage → ℕ} (h : FeeSound s (feeInv.weigh c + m))
    {id : ℕ} {f : JobApplication → JobApplication}
    (hf : ∀ p, s.applications.get? id = some p → p.FeeSame (f p))
    (hw : feeInv.weigh c' = feeInv.weigh c) (hmine : FeeNext s c') :
    feeInv.Kept s c m (s.setApplication id f) c' := by
  refine feeInv_kept ?_ .setApplication (hmine.later .setApplication)
  refine h.rewrite (f := fun k a => if k = id then f a else a) (fun k p hp => ?_) rfl rfl
    (hw ▸ .refl _) (fun _ => congrFun (congrArg (· + m) hw) _)
  split
  · next hk => exact hf p (hk ▸ hp)
  · exact .refl p

/-- Pending applications are answered. -/
theorem feeInv_answer {c c' : Option JobCall} {m : FeeStage → ℕ} (h : FeeSound s (feeInv.weigh c + m))
    (p : JobApplication → Bool) (status : ApplicationStatus)
    (happlications : s'.applications = (s.answerPending p status).applications)
    (hintents : s'.intents = s.intents) (hw : feeInv.weigh c' = feeInv.weigh c)
    (hmine : FeeNext s' c') : feeInv.Kept s c m s' c' := by
  refine feeInv_kept ?_ ⟨?_, hintents ▸ .refl FeeIntent.Later.refl _⟩ hmine
  · refine h.rewrite (f := fun _ a => if a.status = .pending ∧ p a = true then
      { a with status := status } else a) (fun k a _ => ?_) happlications hintents (hw ▸ .refl _)
      (fun _ => congrFun (congrArg (· + m) hw) _)
    split
    · next hpending =>
      refine ⟨rfl, rfl, rfl, rfl, fun htaken => ?_⟩
      rw [hpending.1] at htaken
      cases htaken
    · exact .refl a
  · rw [happlications]
    exact .modifyAll fun _ _ _ => trivial

/-! ## Steps -/

theorem FeeLowers.zero {m : FeeStage → ℕ} (hrecording : ∀ i, m (.recording i) = 0)
    (hdeciding : ∀ i, m (.deciding i) = 0) : FeeLowers m 0 :=
  ⟨fun i => (hrecording i).symm, fun i => (hdeciding i).symm, fun _ => Nat.zero_le _, fun _ => Nat.zero_le _⟩

theorem JobApplication.sees_eq (p : JobApplication) {t : FeeStage} (ht : ∀ i, t ≠ .refunding i) :
    p.sees t = 0 := by
  unfold sees
  cases p.fee with
  | none => rfl
  | some i => exact Pi.single_eq_of_ne (ht i) 1

theorem JobCall.keepsFees {k : Bool} {c : JobCall} {r : JobBooks × Option JobCall}
    (hkeeps : c.keepsFee k s = true) (hr : c.step site k s = some r) : feeInv.Keeps s (some c) r := by
  intro m hsound hknown
  replace hsound : FeeSound s (c.owes + m) := hsound
  replace hknown : c.FeeKnown s := hknown c rfl
  have hfree : c.owes = 0 → FeeSound s m := fun hw => by rwa [hw, zero_add] at hsound
  -- what is seen for a refund may be given up
  have hsees : ∀ (p : JobApplication) {c c' : Option JobCall}, FeeSound s (feeInv.weigh c + m) →
      feeInv.weigh c = p.sees → feeInv.weigh c' = 0 → FeeNext s c' → feeInv.Kept s c m s c' := by
    intro p c c' h hw hw' hmine
    refine feeInv_same h rfl rfl ?_ (fun id => ?_) hmine
    · rw [hw, hw']
      exact .zero (fun _ => p.sees_eq fun _ => FeeStage.noConfusion)
        fun _ => p.sees_eq fun _ => FeeStage.noConfusion
    · rw [hw, hw', p.sees_eq fun _ => FeeStage.noConfusion, Pi.zero_apply]
  cases c with
  -- calls that read, or write elsewhere
  | finalizing i | recounting openingId slots | filling openingId | reopening openingId | checking r
  | withdrawing inviteId r =>
    simp only [step] at hr
    repeat' split at hr
    all_goals cases hr
    all_goals first
      | exact feeInv_stay hsound rfl rfl rfl .none
      | exact feeInv_stay hsound rfl rfl rfl (.some hknown)
  | linking q openingId slots inviteId | joining id =>
    cases hr
    refine feeInv_rewrite hsound (fun p _ => ⟨rfl, rfl, rfl, rfl, fun h => h⟩) rfl ?_
    first
      | exact .none
      | exact .some trivial
  | starting userId barbershopId id =>
    simp only [step] at hr
    split at hr
    · cases hr
      exact feeInv_stay hsound rfl rfl rfl .none
    · next a o hfound =>
      obtain ⟨b, hb, hfound⟩ := Option.bind_eq_some_iff.1 hfound
      have hsome : (s.applications.get? id).isSome := Option.isSome_iff_exists.2 ⟨b, hb⟩
      split at hr
      · cases hr
        split
        · exact feeInv_stay hsound rfl rfl rfl (.some hsome)
        · exact feeInv_stay hsound rfl rfl rfl (.some hsome)
      · cases hr
        exact feeInv_stay hsound rfl rfl rfl .none
  | retrieving o i =>
    simp only [step] at hr
    repeat' split at hr
    all_goals cases hr
    · exact feeInv_stay hsound rfl rfl rfl .none
    · next x hx hstatus =>
      exact feeInv_stay hsound rfl rfl rfl
        (.some ⟨x, hx, hstatus⟩)
    · exact feeInv_stay hsound rfl rfl rfl (.some hknown)
    · exact feeInv_stay hsound rfl rfl rfl .none
    · exact feeInv_stay hsound rfl rfl rfl (.some hknown)
  | canceling o i =>
    cases hr
    dsimp only
    split
    · refine feeInv_kept (hsound.cancel i) (.intent fun x _ => ⟨rfl, rfl, fun hstatus => ?_, fun h => h⟩)
        (.some hknown)
      simp [hstatus]
    · exact feeInv_stay hsound rfl rfl rfl (.some hknown)
  | creating o =>
    simp only [step] at hr
    split at hr
    · cases hr
      have hlater : s.FeeLater { s with intents := s.intents.insert o.intent } :=
        ⟨.refl (fun _ => trivial) _, .insert FeeIntent.Later.refl _ _⟩
      exact feeInv_kept ((hfree rfl).charged (x := o.intent) rfl rfl hknown rfl rfl) hlater
        (.some ⟨o.intent, Table.get?_insert_self _ _, rfl, rfl⟩)
    · cases hr
      exact feeInv_stay hsound rfl rfl rfl .none
  | recording o i =>
    cases hr
    dsimp only
    obtain ⟨x, hx, hid, hamount⟩ := hknown
    obtain ⟨p, hp, -⟩ := hsound.charge hx
    simp only [keepsFee, ← hid, hp, Option.all_some, Bool.and_eq_true, Option.isNone_iff_eq_none,
      Bool.not_eq_true', Table.any_eq_false] at hkeeps
    obtain ⟨⟨hunpaid, hcanceled⟩, hnone⟩ := hkeeps
    refine feeInv_free ?_ rfl .setApplication .none
    refine hsound.record hx hp hunpaid (fun j hj y hy => ?_) (fun j y hy hyid => ?_)
      (u := some o.userId) ?_ rfl
    · rw [hj, Option.bind_some, hy] at hcanceled
      exact beq_iff_eq.1 hcanceled
    · have hkept := hnone j y hy
      rw [hyid, beq_self_eq_true, Bool.true_and] at hkept
      exact hkept
    · rw [hid, hamount]
      rfl
  | confirming i =>
    cases hr
    dsimp only
    split
    · next hpaid =>
      obtain ⟨x, hx, hstatus⟩ := s.succeeded_iff.1 hpaid
      exact feeInv_stay hsound rfl rfl rfl
        (.some ⟨x, hx, hstatus⟩)
    · exact feeInv_stay hsound rfl rfl rfl .none
  | claimingFee i barbershopId seen =>
    obtain ⟨x, hx, hstatus⟩ := hknown
    simp only [step, hx] at hr
    split at hr
    · cases hr
      exact feeInv_stay hsound rfl rfl rfl .none
    · next applications happlications =>
      obtain ⟨p, hp, hunpaid, rfl⟩ := Table.tryModify_eq_some.1 happlications
      rw [Option.isNone_iff_eq_none] at hunpaid
      cases hr
      have hi : p.feePaymentIntentId = some i := by
        simpa [keepsFee, hx, hp, hunpaid] using hkeeps
      have hclaimed : FeeSound (s.setApplication x.applicationId fun a =>
          { a with feePaidAt := some s.now }) (Pi.single (.deciding i) 1 + m) :=
        (hfree rfl).claim hx hstatus hp hunpaid hi rfl rfl
      have hof : s.FeeOf x.applicationId i fun _ => True := ⟨x, hx, rfl, trivial⟩
      have hlater : s.FeeLater (s.setApplication x.applicationId fun a =>
          { a with feePaidAt := some s.now }) := .setApplication
      dsimp only
      split
      · exact feeInv_kept hclaimed hlater (.some (hof.later hlater fun _ h => h))
      · refine feeInv_kept hclaimed hlater (.some fun j hj => ?_)
        obtain rfl := Option.some.inj hj
        exact hof.later hlater fun _ h => h
  | deciding q | locking q openingId slots | counting q openingId slots places =>
    simp only [step] at hr
    repeat' split at hr
    all_goals cases hr
    all_goals first
      | exact feeInv_stay hsound rfl rfl q.weigh_failed (Acceptance.failed_known hknown)
      | exact feeInv_stay hsound rfl rfl rfl (.some hknown)
  | taking q openingId slots =>
    simp only [step] at hr
    split at hr
    · cases hr
      exact feeInv_stay hsound rfl rfl q.weigh_failed (Acceptance.failed_known hknown)
    · next applications happlications =>
      obtain ⟨p, hp, hpending, rfl⟩ := Table.tryModify_eq_some.1 happlications
      cases hr
      have hkept : ∀ s' : JobBooks, s'.applications = s.applications.modify q.applicationId
          (fun a => { a with status := .accepted }) → s'.intents = s.intents →
            feeInv.Kept s (some (taking q openingId slots)) m s' (some (inviting q openingId slots)) := by
        intro s' happlications hintents
        have hlater : s.FeeLater s' := .application _ _ happlications hintents
        have htaken := hsound.take hp (beq_iff_eq.1 hpending) happlications hintents
        rw [← add_assoc, add_comm (Pi.single _ 1)] at htaken
        exact feeInv_kept htaken hlater
          (.some fun i hi => (hknown i hi).later hlater fun _ h => h)
      exact hkept _ rfl rfl
  | inviting q openingId slots =>
    simp only [step] at hr
    split at hr
    · cases hr
      exact feeInv_stay hsound rfl rfl rfl (.some hknown)
    · split at hr
      · cases hr
        cases hfee : q.fee with
        | none =>
          have hw : q.owes = 0 := by rw [Acceptance.owes, hfee, Option.elim_none]
          refine feeInv_same hsound rfl rfl ?_ (fun id => ?_) (.some trivial)
          · refine .zero (fun i => ?_) fun i => ?_
            all_goals simp [feeInv, owes, hw]
          · simp [feeInv, owes, hw]
        | some i =>
          obtain ⟨x, hx, hid, -⟩ := hknown i hfee
          have hsettled : FeeSound s (0 + m) := by
            rw [zero_add]
            refine FeeSound.settle hx ?_
            rw [hid, ← add_assoc]
            simpa [owes, Acceptance.owes, hfee] using hsound
          exact feeInv_kept (hsettled.same rfl rfl (.refl 0) fun _ => rfl) (.same rfl rfl) (.some trivial)
      · cases hr
        exact feeInv_stay hsound rfl rfl rfl (.some hknown)
  | undoing q =>
    cases hr
    refine feeInv_kept ?_ .setApplication ((Acceptance.failed_known hknown).later .setApplication)
    rw [q.weigh_failed]
    refine FeeSound.undo (s := s) ?_ rfl rfl
    rw [← add_assoc, add_comm (Pi.single _ 1)]
    exact hsound
  | applyingAgain id =>
    cases hr
    refine feeInv_rewrite hsound (fun p hp => ⟨rfl, rfl, rfl, rfl, fun htaken => ?_⟩) rfl .none
    have hstatus : p.status = .withdrawn := by simpa [keepsFee, hp] using hkeeps
    rw [hstatus] at htaken
    cases htaken
  | clearing openingId | shutting openingId =>
    cases hr
    exact feeInv_answer hsound _ _ rfl rfl rfl .none
  | returning i id =>
    obtain ⟨x, hx, rfl, -⟩ := hknown
    cases hr
    obtain ⟨p, hp, hof⟩ := hsound.charge hx
    have hstatus := (hof.owed (by simp [owes])).2.1
    dsimp only
    split
    · refine feeInv_kept (hsound.giveBack hx hstatus (.refl _) fun _ _ => rfl) (.giveBack i) (.some ?_)
      exact ⟨{ x with refunded := x.status == .succeeded || x.refunded },
        (Table.get?_modify_self ..).trans (by rw [hx, Option.map_some]), rfl, by simp [hstatus]⟩
    · next hrefused =>
      have hback : x.refunded = true := by simpa [keepsFee, hrefused, hx] using hkeeps
      exact feeInv_stay hsound rfl rfl rfl (.some ⟨x, hx, rfl, hback⟩)
  | forgetting i id =>
    obtain ⟨x, hx, rfl, hback⟩ := hknown
    cases hr
    obtain ⟨p, hp, hof⟩ := hsound.charge hx
    obtain ⟨hone, -, hcase⟩ := hof.owed (by simp [owes])
    refine feeInv_free (hsound.forget hx hback hp (hcase.imp And.left And.left) (fun t ht => ?_) ?_ rfl
      (s.applications_setApplication _ _) rfl) rfl .setApplication .none
    · simp [owes, ht]
    · exact .inr (by simpa [owes] using hone)
  | applying openingId userId =>
    simp only [step] at hr
    split at hr
    all_goals cases hr
    · exact feeInv_stay hsound rfl rfl rfl .none
    · exact feeInv_free ((hfree rfl).applied rfl rfl) rfl
        ⟨.insert (fun _ => trivial) _ _, .refl FeeIntent.Later.refl _⟩ .none
  | judging r invite =>
    simp only [step] at hr
    repeat' split at hr
    all_goals cases hr
    · exact hsees r.seen hsound rfl rfl (.some trivial)
    · exact feeInv_stay hsound rfl rfl rfl (.some hknown)
    · exact hsees r.seen hsound rfl rfl .none
  | expiring r pendingInvite periodOver =>
    simp only [step] at hr
    split at hr
    · cases hr
      exact hsees r.seen hsound rfl rfl .none
    · next applications happlications =>
      obtain ⟨p, hp, haccepted, rfl⟩ := Table.tryModify_eq_some.1 happlications
      cases hr
      dsimp only
      split
      all_goals
        exact feeInv_rewrite (f := fun a => { a with status := .expired }) hsound
          (fun p _ => ⟨rfl, rfl, rfl, rfl, fun _ => rfl⟩) rfl (.some hknown)
  | refunding r =>
    have hdone : feeInv.Kept s (some (refunding r)) m s r.done :=
      hsees r.seen hsound rfl r.weigh_done r.done_known
    simp only [step] at hr
    split at hr
    · cases hr
      exact hdone
    · next i hi =>
      split at hr
      · next hpaid =>
        split at hr
        · cases hr
          exact hdone
        · next applications happlications =>
          obtain ⟨p, hp, -, rfl⟩ := Table.tryModify_eq_some.1 happlications
          cases hr
          rw [Bool.and_eq_true] at hpaid
          have hfee : r.seen.fee = some i := by rw [JobApplication.fee, if_pos hpaid.1, hi]
          have hlater : s.FeeLater (s.setApplication r.applicationId fun a =>
              { a with feeRefundedAt := some s.now }) := .setApplication
          refine feeInv_kept ?_ hlater (.some ((hknown i hfee).later hlater fun _ h => h))
          refine hsound.refundAt hp (fun _ => ?_) (fun t ht => ?_) rfl rfl
          · simp [feeInv, owes]
          · simp [feeInv, owes, JobApplication.sees, hfee, ht]
      · cases hr
        exact hdone
  | sending r i =>
    obtain ⟨x, hx, hid, -⟩ := hknown
    obtain ⟨p, hp, hof⟩ := hsound.charge hx
    simp only [step] at hr
    split at hr
    · cases hr
      refine feeInv_free ?_ r.weigh_done (.giveBack i) r.done_known
      refine hsound.giveBack hx (hof.seen (by simp [owes])).1 ?_ fun id hne => ?_
      · constructor
        all_goals simp [owes]
      · simp [owes, ← hid, hne]
    · cases hr
      refine feeInv_same hsound rfl rfl ?_ (fun id => ?_)
        (.some (Option.isSome_iff_exists.2 ⟨p, hid ▸ hp⟩))
      · constructor
        all_goals simp [feeInv, owes]
      · simp [feeInv, owes]
  | unclaiming r =>
    obtain ⟨p, hp⟩ := Option.isSome_iff_exists.1 hknown
    cases hr
    refine feeInv_free ?_ r.weigh_done .setApplication r.done_known
    refine hsound.refundAt hp (fun hsome => ?_) (fun t ht => ?_) rfl rfl
    · cases hsome
    · simp [owes, ht]

/-! ## Events -/

theorem JobApplication.FeeSame.answer {p : JobApplication} {c : Prop} [Decidable c]
    (hpending : c → p.status = .pending) (status : ApplicationStatus) :
    p.FeeSame { p with status := if c then status else p.status } where
  intent := rfl
  cents := rfl
  paid := rfl
  refunded := rfl
  taken htaken := by
    dsimp only
    split
    · next hc =>
      rw [hpending hc] at htaken
      cases htaken
    · exact htaken

/-- What is read of an application for a refund. -/
theorem FeeSound.known {m : FeeStage → ℕ} (h : FeeSound s m) {id : ℕ} {p : JobApplication}
    (hp : s.applications.get? id = some p) : p.FeeKnown s id := by
  intro i hi
  obtain ⟨-, hi⟩ := Option.ite_none_right_eq_some.1 hi
  obtain ⟨x, hx, hof, -⟩ := (h.row hp).recorded i hi
  exact ⟨x, hx, hof, trivial⟩

theorem JobEvent.keepsFees {e : JobEvent} {r : JobBooks × Option JobCall} (hr : e.begin site s = some r) :
    feeInv.Keeps s none r := by
  intro m hsound _
  replace hsound : FeeSound s (feeInv.weigh none + m) := hsound
  have hfree : FeeSound s m := by rwa [CallInv.weigh_none, zero_add] at hsound
  cases e with
  | create userId barbershopId slots endDate | startAcceptPayment userId barbershopId id
  | close userId barbershopId id | apply userId openingId | setFee feeCents | pass time =>
    simp only [begin] at hr
    repeat' split at hr
    all_goals cases hr
    all_goals first
      | exact feeInv_stay hsound rfl rfl rfl .none
      | exact feeInv_stay hsound rfl rfl rfl (.some trivial)
  | confirmAcceptPayment userId barbershopId id =>
    obtain ⟨-, hr⟩ := Option.ite_none_right_eq_some.1 hr
    cases hr
    dsimp only
    cases (s.applicationOf barbershopId id).bind (·.1.feePaymentIntentId) with
    | none => exact feeInv_stay hsound rfl rfl rfl .none
    | some i => exact feeInv_stay hsound rfl rfl rfl (.some trivial)
  | accept userId barbershopId id =>
    obtain ⟨-, hr⟩ := Option.ite_none_right_eq_some.1 hr
    cases hr
    refine feeInv_stay hsound rfl rfl rfl (.some fun i hi => ?_)
    cases hi
  | deliver i =>
    obtain ⟨hpaid, hr⟩ := Option.ite_none_right_eq_some.1 hr
    cases hr
    obtain ⟨x, hx, hstatus⟩ := s.succeeded_iff.1 hpaid
    exact feeInv_stay hsound rfl rfl rfl (.some ⟨x, hx, hstatus⟩)
  | reject userId barbershopId id =>
    obtain ⟨-, hr⟩ := Option.ite_none_right_eq_some.1 hr
    cases hr
    exact feeInv_rewrite hsound (fun p _ => .answer (fun h => h) _) rfl .none
  | withdraw userId id =>
    cases hr
    exact feeInv_rewrite hsound (fun p _ => .answer And.left _) rfl .none
  | acceptInvite id | reissue id =>
    obtain ⟨_, -, rfl⟩ := Option.map_eq_some_iff.1 hr
    exact feeInv_stay hsound rfl rfl rfl .none
  | deleteAccount userId =>
    cases hr
    exact feeInv_answer hsound (fun a => a.userId == userId) .withdrawn rfl rfl rfl .none
  | release id =>
    simp only [begin] at hr
    split at hr
    · cases hr
    · next a ha =>
      obtain ⟨-, hr⟩ := Option.ite_none_right_eq_some.1 hr
      obtain ⟨o, -, rfl⟩ := Option.map_eq_some_iff.1 hr
      exact feeInv_kept (hfree.see ha) (.same rfl rfl) (.some (hsound.known ha))
  | retryFailedRefunds id =>
    obtain ⟨a, ha, rfl⟩ := Option.map_eq_some_iff.1 hr
    rw [Option.filter_eq_some_iff] at ha
    exact feeInv_kept (hfree.see ha.1) (.same rfl rfl) (.some (hsound.known ha.1))
  | closeEnded id | closeOfBarbershop id =>
    obtain ⟨_, -, rfl⟩ := Option.map_eq_some_iff.1 hr
    exact feeInv_stay hsound rfl rfl rfl (.some trivial)
  | refundOutside i =>
    obtain ⟨hpaid, hr⟩ := Option.ite_none_right_eq_some.1 hr
    cases hr
    obtain ⟨x, hx, hstatus⟩ := s.succeeded_iff.1 hpaid
    exact feeInv_free (hfree.giveBack hx hstatus (.refl m) fun _ _ => rfl) rfl (.giveBack i) .none
  | revokePlatformPurchase i =>
    obtain ⟨hback, hr⟩ := Option.ite_none_right_eq_some.1 hr
    cases hr
    obtain ⟨x, hx, hback⟩ := (Option.any_eq_true _ _).1 hback
    exact feeInv_free (hfree.revoke hx hback) rfl
      ⟨.modifyAll fun _ _ _ => trivial, .refl FeeIntent.Later.refl _⟩ .none
  | approve i =>
    obtain ⟨intents, hintents, rfl⟩ := Option.map_eq_some_iff.1 hr
    obtain ⟨x, hx, hopen, rfl⟩ := Table.tryModify_eq_some.1 hintents
    refine feeInv_free ?_ rfl (.intent (g := fun x => { x with status := .succeeded })
      fun _ _ => ⟨rfl, rfl, fun _ => rfl, fun h => h⟩) .none
    refine hfree.intent (g := fun x => { x with status := .succeeded }) hx
      ⟨rfl, rfl, fun _ => rfl, fun h => h⟩ (fun p hof => ?_) (.refl m) (fun _ => .inl rfl) rfl rfl
    refine ⟨fun _ hnot => hof.live ?_ hnot, fun hgone => ⟨rfl, (hof.gone hgone).2⟩,
      fun hone => ⟨(hof.owed hone).1, rfl, (hof.owed hone).2.2⟩, fun hone => ⟨rfl, (hof.seen hone).2⟩⟩
    rw [beq_iff_eq.1 hopen]
    exact IntentStatus.noConfusion

/-! ## Runs -/

/-- Where a fee that was paid is: given back, or on record, of at least what was asked for, and not claimed
yet or claimed for an application that was accepted, or that expired and was not given its fee back. -/
def FeeIntent.Placed (x : FeeIntent) (i : ℕ) (p : JobApplication) : Prop :=
  x.refunded = true ∨ p.feePaymentIntentId = some i ∧ p.feeCents.getD 0 ≤ x.amount ∧
    (p.feePaidAt.isSome → p.feeRefundedAt = none ∧ p.status.taken = true)

theorem FeeSound.placed (h : FeeSound s 0) {i : ℕ} {x : FeeIntent} (hx : s.intents.get? i = some x)
    (hstatus : x.status = .succeeded) :
    ∃ p, s.applications.get? x.applicationId = some p ∧ x.Placed i p := by
  obtain ⟨p, hp, hof⟩ := h.charge hx
  refine ⟨p, hp, ?_⟩
  by_cases hback : x.refunded = true
  · exact .inl hback
  rw [Bool.not_eq_true] at hback
  have hrow := h.row hp
  have hi : p.feePaymentIntentId = some i := by
    refine (hof.live ?_ hback).resolve_right (Nat.not_succ_le_zero 0)
    rw [hstatus]
    exact IntentStatus.noConfusion
  obtain ⟨y, hy, -, hle⟩ := hrow.recorded i hi
  obtain rfl := Option.some.inj (hx.symm.trans hy)
  refine .inr ⟨hi, hle, fun hpaid => ⟨?_, ?_⟩⟩
  · by_contra hrefunded
    rcases hrow.back (Option.isSome_iff_ne_none.2 hrefunded) with ⟨j, y, hy, hid, hgone⟩ | hnone
    · -- what was given back is on record, or nothing is
      obtain ⟨q, hq, hof'⟩ := h.charge hy
      obtain rfl := Option.some.inj (hp.symm.trans (hid ▸ hq))
      rcases (hof'.gone hgone).2 with hj | hj | hone
      · obtain rfl := Option.some.inj (hi.symm.trans hj)
        obtain rfl := Option.some.inj (hx.symm.trans hy)
        rw [hback] at hgone
        cases hgone
      · rw [hi] at hj
        cases hj
      · cases hone
    · cases hnone
  · obtain ⟨_, _, -, -, -, hone | ⟨htaken, -⟩⟩ := hrow.paid hpaid
    · cases hone
    · exact htaken

theorem feeSound_empty (happlications : s.applications = .empty) (hintents : s.intents = .empty) :
    FeeSound s 0 where
  row hp := by
    rw [happlications] at hp
    cases hp
  charge hx := by
    rw [hintents] at hx
    cases hx
  fresh _ := rfl
  uncharged _ := ⟨rfl, rfl⟩

/-- In every run whose steps meet `keepsFee`, at rest: every fee that was paid has its place, and where an
application says that its fee was given back, one was. -/
theorem fee_ends_in_one_place (happlications : s.applications = .empty) (hintents : s.intents = .empty)
    {moves : List (Move JobEvent Bool)} (hmeets : (jobCalls site).machine.Meets (CallSystem.When
      (fun _ _ => True) fun k c s => c.keepsFee k s = true) (.idle s) moves) {x : Calls JobBooks JobCall}
    (hrun : (jobCalls site).machine.run (.idle s) moves = some x) (hquiet : x.quiet = true) :
    (∀ i y, x.shared.intents.get? i = some y → y.status = .succeeded →
      ∃ p, x.shared.applications.get? y.applicationId = some p ∧ y.Placed i p) ∧
    ∀ id p, x.shared.applications.get? id = some p → p.feeRefundedAt.isSome →
      ∃ i y, x.shared.intents.get? i = some y ∧ y.applicationId = id ∧ y.refunded = true := by
  have hidle : feeInv.Holds (.idle s) := CallInv.holds_idle (feeSound_empty happlications hintents)
  have hend : FeeSound x.shared 0 := (hidle.run (fun _ he => JobEvent.keepsFees he)
    (fun hkeeps hc => JobCall.keepsFees hkeeps hc) hmeets hrun).quiet hquiet
  refine ⟨fun i y hy hstatus => hend.placed hy hstatus, fun id p hp hsome => ?_⟩
  exact ((hend.row hp).back hsome).resolve_right (Nat.not_succ_le_zero 0)

end Steps

/-! ## Two fees for one place -/

/-- Two managers pay for one applicant each, and both payments arrive at once. -/
def bothPaid : List (Move JobEvent Bool) :=
  twoApply ++ [.event (.startAcceptPayment 1 1 1), .event (.startAcceptPayment 2 1 2)] ++
    List.replicate 3 (.step 3 true) ++ List.replicate 3 (.step 4 true) ++
    [.event (.approve 1), .event (.approve 2), .event (.deliver 1), .event (.deliver 2)] ++
    List.replicate 3 (.step 6 true) ++ List.replicate 6 (.step 5 true) ++ List.replicate 4 (.step 6 true) ++
    List.replicate 5 (.step 5 true)

/-- The fees of both applicants are paid: one gets the place, and the fee of the other goes back. -/
theorem bothPaid_placed : ∃ x, (jobCalls everybodyManages).machine.run (.idle (.blank 500)) bothPaid =
      some x ∧ ∀ i ∈ [1, 2], ∃ y p, x.shared.intents.get? i = some y ∧
        x.shared.applications.get? y.applicationId = some p ∧ y.Placed i p := by
  have hruns : ((jobCalls everybodyManages).machine.run (.idle (.blank 500)) bothPaid).any (fun x =>
      decide ((jobCalls everybodyManages).machine.Meets (CallSystem.When (fun _ _ => True)
        fun k c s => c.keepsFee k s = true) (.idle (.blank 500)) bothPaid) && x.quiet &&
      [1, 2].all fun i => (x.shared.intents.get? i).any (·.status == .succeeded)) = true := by
    decide +kernel
  obtain ⟨x, hrun, hrest⟩ := (Option.any_eq_true _ _).1 hruns
  simp only [Bool.and_eq_true, decide_eq_true_eq, List.all_eq_true, Option.any_eq_true,
    beq_iff_eq] at hrest
  obtain ⟨⟨hmeets, hquiet⟩, hpaid⟩ := hrest
  have hplaced := (fee_ends_in_one_place rfl rfl hmeets hrun hquiet).1
  refine ⟨x, hrun, fun i hi => ?_⟩
  obtain ⟨y, hy, hstatus⟩ := hpaid i hi
  obtain ⟨p, hp, hplace⟩ := hplaced i y hy hstatus
  exact ⟨y, p, hy, hp, hplace⟩

/-- Two tabs pay for one application at once. The second intent takes the place of the first, which was not
canceled: what is paid on the first is neither on record nor given back. -/
def twoTabs : List (Move JobEvent Bool) :=
  twoApply ++ [.event (.startAcceptPayment 1 1 1), .event (.startAcceptPayment 1 1 1), .step 3 true,
    .step 4 true, .step 3 true, .step 4 true, .step 3 true, .step 4 true, .event (.approve 1),
    .event (.deliver 1), .step 5 true]

theorem twoTabs_lost : ∃ x, (jobCalls everybodyManages).machine.run (.idle (.blank 500)) twoTabs =
      some x ∧ x.quiet = true ∧ ∃ y p, x.shared.intents.get? 1 = some y ∧ y.status = .succeeded ∧
        x.shared.applications.get? y.applicationId = some p ∧ ¬y.Placed 1 p := by
  have hruns : ((jobCalls everybodyManages).machine.run (.idle (.blank 500)) twoTabs).any (fun x =>
      x.quiet && (x.shared.intents.get? 1).any fun y => y.status == .succeeded && !y.refunded &&
        (x.shared.applications.get? y.applicationId).any (·.feePaymentIntentId == some 2)) = true := by
    decide +kernel
  obtain ⟨x, hrun, hrest⟩ := (Option.any_eq_true _ _).1 hruns
  simp only [Bool.and_eq_true, Option.any_eq_true, Bool.not_eq_true', beq_iff_eq] at hrest
  obtain ⟨hquiet, y, hy, ⟨hstatus, hkept⟩, p, hp, hother⟩ := hrest
  refine ⟨x, hrun, hquiet, y, p, hy, hstatus, hp, ?_⟩
  rintro (hback | ⟨hmine, -⟩)
  · rw [hkept] at hback
    cases hback
  · rw [hother] at hmine
    cases hmine

end Barbershop
