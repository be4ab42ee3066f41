import Barbershop.Staff.JobOpening

/-!
# The places of an opening

However many managers, tabs and webhooks accept at once, and whatever the routines take back meanwhile, no
opening has more accepted applications than places. Only `acceptNow` accepts, and under the lock of the
opening: what it counted can only become less before it writes. Everything else leaves the lock and accepts
nobody (`JobBooks.Settles`).
-/

namespace Barbershop

open Lib

/-! ## The count -/

theorem length_filter_modifyAll_le {α : Type} {t : Table α} {f : ℕ → α → α} {p : ℕ → α → Bool}
    (h : ∀ k a, p k (f k a) = true → p k a = true) :
    ((t.modifyAll f).filter p).length ≤ (t.filter p).length := by
  simp only [Table.filter, Table.modifyAll, ← List.countP_eq_length_filter, List.countP_map]
  exact List.countP_mono_left fun r _ hr => h r.1 r.2 hr

theorem length_filter_modify_le {α : Type} {t : Table α} {k : ℕ} {f : α → α} {p : ℕ → α → Bool} :
    ((t.modify k f).filter p).length ≤ (t.filter p).length + 1 := by
  cases hk : t.get? k with
  | none =>
    rw [Table.modify_of_none hk]
    exact Nat.le_succ _
  | some a =>
    have hsum := Table.sum_modify f (fun k a => if p k a then 1 else 0) hk
    have hlength : ∀ t : Table α, (t.filter p).length = t.sum fun k a => if p k a then 1 else 0 :=
      fun t => Table.length_filter t p
    rw [hlength, hlength]
    split at hsum <;> split at hsum <;> omega

def JobOpening.SameSlots (o o' : JobOpening) : Prop := o'.slots = o.slots

def JobApplication.SameOpening (a b : JobApplication) : Prop := b.jobOpeningId = a.jobOpeningId

theorem JobOpening.SameSlots.refl (o : JobOpening) : o.SameSlots o := rfl

theorem JobApplication.SameOpening.refl (a : JobApplication) : a.SameOpening a := rfl

namespace JobBooks

/-- A place is taken only in an opening that there is. -/
structure Seated (s : JobBooks) : Prop where
  known : ∀ {id a}, s.applications.get? id = some a → (s.openings.get? a.jobOpeningId).isSome
  within : ∀ {id o}, s.openings.get? id = some o → s.accepted id ≤ o.slots

/-- The locks are as they were, and nobody was accepted. -/
structure Settles (s s' : JobBooks) : Prop where
  held : s'.held = s.held
  accepted : ∀ openingId, s'.accepted openingId ≤ s.accepted openingId
  openings : s.openings.Lasts JobOpening.SameSlots s'.openings
  applications : s.applications.Lasts JobApplication.SameOpening s'.applications
  rows : ∀ {id b}, s'.applications.get? id = some b → (s'.openings.get? b.jobOpeningId).isSome

variable {s s' : JobBooks}

theorem Settles.seated (h : s.Seated) (hs : s.Settles s') : s'.Seated where
  known := hs.rows
  within {id o} ho := by
    cases hid : s.openings.get? id with
    | some o' =>
      obtain ⟨o'', ho'', hslots⟩ := hs.openings hid
      obtain rfl := Option.some.inj (ho.symm.trans ho'')
      exact hslots ▸ (hs.accepted id).trans (h.within hid)
    | none =>
      -- a new opening has no applications
      have hnone : s.accepted id = 0 := by
        refine List.length_eq_zero_iff.2 (List.eq_nil_iff_forall_not_mem.2 fun r hr => ?_)
        obtain ⟨hr, hof⟩ := Table.mem_filter.1 hr
        rw [Bool.and_eq_true, beq_iff_eq] at hof
        have hsome := h.known hr
        rw [hof.1, hid] at hsome
        cases hsome
      exact (hs.accepted id).trans (hnone ▸ Nat.zero_le _)

/-- Rows are rewritten, none to accepted. -/
theorem Seated.rewrite (h : s.Seated) {f : ℕ → JobApplication → JobApplication}
    {g : ℕ → JobOpening → JobOpening} (hf : ∀ k a, (f k a).jobOpeningId = a.jobOpeningId ∧
      ((f k a).status = .accepted → a.status = .accepted)) (hg : ∀ k o, (g k o).slots = o.slots)
    (happlications : s'.applications = s.applications.modifyAll f)
    (hopenings : s'.openings = s.openings.modifyAll g) (hheld : s'.held = s.held) : s.Settles s' where
  held := hheld
  accepted openingId := by
    unfold JobBooks.accepted
    rw [happlications]
    refine length_filter_modifyAll_le fun k a hk => ?_
    simp only [Bool.and_eq_true, beq_iff_eq] at hk ⊢
    exact ⟨(hf k a).1 ▸ hk.1, (hf k a).2 hk.2⟩
  openings k o ho := ⟨g k o, by rw [hopenings, Table.get?_modifyAll, ho, Option.map_some], hg k o⟩
  applications k a ha :=
    ⟨f k a, by rw [happlications, Table.get?_modifyAll, ha, Option.map_some], (hf k a).1⟩
  rows {id b} hb := by
    rw [happlications, Table.get?_modifyAll] at hb
    obtain ⟨a, ha, rfl⟩ := Option.map_eq_some_iff.1 hb
    rw [hopenings, Table.get?_modifyAll, Option.isSome_map, (hf id a).1]
    exact h.known ha

theorem modifyAll_id {α : Type} (t : Table α) : (t.modifyAll fun _ a => a) = t := by
  simp [Table.modifyAll]

/-- The applications and the openings are as they were. -/
theorem Seated.same (h : s.Seated) (happlications : s'.applications = s.applications)
    (hopenings : s'.openings = s.openings) (hheld : s'.held = s.held) : s.Settles s' :=
  h.rewrite (f := fun _ a => a) (g := fun _ o => o) (fun _ _ => ⟨rfl, fun h => h⟩) (fun _ _ => rfl)
    (happlications.trans (modifyAll_id _).symm) (hopenings.trans (modifyAll_id _).symm) hheld

theorem Seated.refl (h : s.Seated) : s.Settles s := h.same rfl rfl rfl

/-- One application is rewritten. -/
theorem Seated.application (h : s.Seated) {id : ℕ} {f : JobApplication → JobApplication}
    (hf : ∀ a, (f a).jobOpeningId = a.jobOpeningId ∧ ((f a).status = .accepted → a.status = .accepted))
    (happlications : s'.applications = s.applications.modify id f)
    (hopenings : s'.openings = s.openings) (hheld : s'.held = s.held) : s.Settles s' := by
  refine h.rewrite (g := fun _ o => o) (fun k a => ?_) (fun _ _ => rfl) happlications
    (hopenings.trans (modifyAll_id _).symm) hheld
  split
  · exact hf a
  · exact ⟨rfl, fun hstatus => hstatus⟩

theorem Seated.setApplication (h : s.Seated) {id : ℕ} {f : JobApplication → JobApplication}
    (hf : ∀ a, (f a).jobOpeningId = a.jobOpeningId ∧
      ((f a).status = .accepted → a.status = .accepted)) : s.Settles (s.setApplication id f) :=
  h.application hf rfl rfl rfl

/-- Pending applications are answered. -/
theorem Seated.answerPending (h : s.Seated) (p : JobApplication → Bool) {status : ApplicationStatus}
    (hstatus : status ≠ .accepted) : s.Settles (s.answerPending p status) := by
  refine h.rewrite (f := fun _ a => if a.status = .pending ∧ p a = true then
    { a with status := status } else a) (fun k a => ?_) (fun _ _ => rfl) rfl (modifyAll_id _).symm rfl
  split
  · exact ⟨rfl, fun heq => absurd heq hstatus⟩
  · exact ⟨rfl, fun heq => heq⟩

theorem Seated.revoke (h : s.Seated) {intentId : ℕ} : s.Settles (s.revoke intentId) := by
  refine h.rewrite (f := fun _ a => a.revoke s.now intentId) (fun k a => ?_) (fun _ _ => rfl) rfl
    (modifyAll_id _).symm rfl
  unfold JobApplication.revoke
  split <;> exact ⟨rfl, fun heq => heq⟩

/-- An opening is rewritten. -/
theorem Seated.opening (h : s.Seated) (id : ℕ) (g : JobOpening → JobOpening)
    (hg : ∀ o, (g o).slots = o.slots) :
    s.Settles { s with openings := s.openings.modify id g } := by
  refine h.rewrite (f := fun _ a => a) (g := fun k o => if k = id then g o else o)
    (fun _ _ => ⟨rfl, fun heq => heq⟩) (fun k o => ?_) (modifyAll_id _).symm rfl rfl
  split
  · exact hg o
  · rfl

theorem Settles.trans {t : JobBooks} (h : s.Settles s') (h' : s'.Settles t) : s.Settles t where
  held := h'.held.trans h.held
  accepted openingId := (h'.accepted openingId).trans (h.accepted openingId)
  openings := h.openings.trans (fun h h' => h'.trans h) h'.openings
  applications := h.applications.trans (fun h h' => h'.trans h) h'.applications
  rows := h'.rows

end JobBooks

/-! ## The invariant -/

/-- The opening whose lock a call has. -/
def JobCall.holds : JobCall → Option ℕ
  | counting _ openingId _ _ | taking _ openingId _ => some openingId
  | _ => none

def JobBooks.IsOf (s : JobBooks) (applicationId openingId : ℕ) : Prop :=
  ∃ a, s.applications.get? applicationId = some a ∧ a.jobOpeningId = openingId

/-- What a call knows: under the lock, the places of the opening and, once it has counted, that one is
free. -/
def JobCall.Knows (s : JobBooks) : JobCall → Prop
  | locking q openingId _ => s.IsOf q.applicationId openingId
  | counting q openingId _ places => s.IsOf q.applicationId openingId ∧ s.held openingId = true ∧
      ∃ o, s.openings.get? openingId = some o ∧ o.slots = places
  | taking q openingId _ => s.IsOf q.applicationId openingId ∧ s.held openingId = true ∧
      ∃ o, s.openings.get? openingId = some o ∧ s.accepted openingId < o.slots
  | applying openingId _ => (s.openings.get? openingId).isSome
  | _ => True

def seatInv : CallInv JobBooks JobCall ℕ where
  weight _ := 0
  whole s _ := s.Seated
  each s c := c.Knows s
  pair c d := ∀ o ∈ c.holds, o ∉ d.holds
  symm h o hd hc := h o hc hd

section Steps

variable {s s' : JobBooks} {site : JobSite}

theorem JobBooks.IsOf.later {applicationId openingId : ℕ} (h : s.IsOf applicationId openingId)
    (hs : s.applications.Lasts JobApplication.SameOpening s'.applications) :
    s'.IsOf applicationId openingId := by
  obtain ⟨a, ha, hof⟩ := h
  obtain ⟨b, hb, hsame⟩ := hs ha
  exact ⟨b, hb, hsame.trans hof⟩

/-- What a call knows stays so, where it has the lock. -/
theorem JobCall.Knows.later {c : JobCall} (h : c.Knows s)
    (happlications : s.applications.Lasts JobApplication.SameOpening s'.applications)
    (hopenings : s.openings.Lasts JobOpening.SameSlots s'.openings)
    (hheld : ∀ openingId ∈ c.holds, s'.held openingId = s.held openingId ∧
      s'.accepted openingId ≤ s.accepted openingId) : c.Knows s' := by
  cases c with
  | locking q openingId slots => exact JobBooks.IsOf.later h happlications
  | counting q openingId slots places =>
    obtain ⟨hof, htaken, o, ho, hplaces⟩ := h
    obtain ⟨o', ho', hslots⟩ := hopenings ho
    exact ⟨hof.later happlications, (hheld openingId rfl).1.trans htaken, o', ho',
      hslots.trans hplaces⟩
  | taking q openingId slots =>
    obtain ⟨hof, htaken, o, ho, hfree⟩ := h
    obtain ⟨o', ho', hslots⟩ := hopenings ho
    have hheld := hheld openingId rfl
    exact ⟨hof.later happlications, hheld.1.trans htaken, o', ho',
      hslots ▸ hheld.2.trans_lt hfree⟩
  | applying openingId userId =>
    obtain ⟨o, ho⟩ := Option.isSome_iff_exists.1 h
    obtain ⟨o', ho', -⟩ := hopenings ho
    exact Option.isSome_iff_exists.2 ⟨o', ho'⟩
  | _ => trivial

/-- A call that goes on without a lock, or none. -/
def JobCall.Free (s : JobBooks) (c : Option JobCall) : Prop := ∀ a ∈ c, a.holds = none ∧ a.Knows s

theorem JobCall.Free.none : Free s none := fun _ ha => by cases ha

theorem JobCall.Free.some {c : JobCall} (hfree : c.holds = .none) (hknows : c.Knows s) :
    Free s (.some c) := by
  intro a ha
  cases ha
  exact ⟨hfree, hknows⟩

theorem Acceptance.failed_free (q : Acceptance) : JobCall.Free s q.failed := by
  intro a ha
  obtain ⟨i, -, rfl⟩ := Option.map_eq_some_iff.1 ha
  exact ⟨rfl, trivial⟩

theorem FeeRefund.done_free (r : FeeRefund) : JobCall.Free s r.done := by
  intro a ha
  obtain ⟨i, -, rfl⟩ := Option.map_eq_some_iff.1 ha
  exact ⟨rfl, trivial⟩

/-- A move that accepts nobody and takes no lock. -/
theorem seatInv_kept {c c' : Option JobCall} {m : ℕ} (h : s.Seated) (hs : s.Settles s')
    (hmine : JobCall.Free s' c') : seatInv.Kept s c m s' c' where
  whole := hs.seated h
  mine a ha := (hmine a ha).2
  others d hd _ := JobCall.Knows.later hd hs.applications hs.openings fun openingId _ =>
    ⟨congrFun hs.held openingId, hs.accepted openingId⟩
  apart d _ _ a ha o ho := by
    rw [(hmine a ha).1] at ho
    cases ho

/-- Who has the lock of an opening knows that it is taken. -/
theorem JobCall.Knows.held {c : JobCall} (h : c.Knows s) {openingId : ℕ} (ho : openingId ∈ c.holds) :
    s.held openingId = true := by
  cases c with
  | counting q o slots places =>
    obtain rfl := Option.some.inj ho
    exact h.2.1
  | taking q o slots =>
    obtain rfl := Option.some.inj ho
    exact h.2.1
  | _ => cases ho

/-- The lock is given back with what the call under it has done. -/
theorem seatInv_unlock {c : JobCall} {c' : Option JobCall} {m openingId : ℕ}
    (hc : c.holds = some openingId) (hseated : s'.Seated)
    (happlications : s.applications.Lasts JobApplication.SameOpening s'.applications)
    (hopenings : s'.openings = s.openings)
    (hheld : s'.held = Function.update s.held openingId false)
    (haccepted : ∀ o, o ≠ openingId → s'.accepted o ≤ s.accepted o)
    (hmine : JobCall.Free s' c') : seatInv.Kept s (some c) m s' c' where
  whole := hseated
  mine a ha := (hmine a ha).2
  others d hd hpair := by
    refine JobCall.Knows.later hd happlications (hopenings ▸ .refl JobOpening.SameSlots.refl _) fun o ho => ?_
    -- another call has the lock of another opening
    have hne : o ≠ openingId := by
      rintro rfl
      exact hpair c rfl o hc ho
    rw [hheld, Function.update_of_ne hne]
    exact ⟨rfl, haccepted o hne⟩
  apart d _ _ a ha o ho := by
    rw [(hmine a ha).1] at ho
    cases ho

/-- A pending application is answered, but not accepted. -/
theorem answered_not_accepted {status answer : ApplicationStatus} {p : Prop} [Decidable p]
    (hanswer : answer ≠ .accepted) (h : (if p then answer else status) = .accepted) :
    status = .accepted := by
  split at h
  · exact absurd h hanswer
  · exact h

/-- An application is accepted where a place is free. -/
theorem JobBooks.Seated.take (h : s.Seated) {id openingId : ℕ} {o : JobOpening}
    (hof : s.IsOf id openingId) (ho : s.openings.get? openingId = some o)
    (hfree : s.accepted openingId < o.slots)
    (happlications : s'.applications = s.applications.modify id fun a => { a with status := .accepted })
    (hopenings : s'.openings = s.openings) :
    s'.Seated ∧ (∀ other, other ≠ openingId → s'.accepted other ≤ s.accepted other) ∧
      s.applications.Lasts JobApplication.SameOpening s'.applications := by
  obtain ⟨a, ha, rfl⟩ := hof
  have hrow : ∀ k b, s'.applications.get? k = some b →
      ∃ c, s.applications.get? k = some c ∧ b.jobOpeningId = c.jobOpeningId := by
    intro k b hb
    rw [happlications, Table.get?_modify] at hb
    split at hb
    · obtain ⟨c, hc, rfl⟩ := Option.map_eq_some_iff.1 hb
      exact ⟨c, hc, rfl⟩
    · exact ⟨b, hb, rfl⟩
  have hothers : ∀ other, other ≠ a.jobOpeningId → s'.accepted other ≤ s.accepted other := by
    intro other hne
    have hsame : ∀ b, s.applications.get? id = some b →
        (b.jobOpeningId == other && b.status == .accepted) = false ∧
          (b.jobOpeningId == other && (ApplicationStatus.accepted == .accepted)) = false := by
      intro b hb
      obtain rfl := Option.some.inj (ha.symm.trans hb)
      simp [Ne.symm hne]
    unfold JobBooks.accepted
    rw [happlications, Table.filter_modify_of_not hsame]
  refine ⟨⟨?_, ?_⟩, hothers, ?_⟩
  · intro k b hb
    obtain ⟨c, hc, hsame⟩ := hrow k b hb
    rw [hsame, hopenings]
    exact h.known hc
  · intro k o' ho'
    rw [hopenings] at ho'
    by_cases hk : k = a.jobOpeningId
    · subst hk
      obtain rfl := Option.some.inj (ho.symm.trans ho')
      have hone : s'.accepted a.jobOpeningId ≤ s.accepted a.jobOpeningId + 1 := by
        unfold JobBooks.accepted
        rw [happlications]
        exact length_filter_modify_le
      omega
    · exact (hothers k hk).trans (h.within ho')
  · rw [happlications]
    exact .modify JobApplication.SameOpening.refl fun _ _ => rfl

/-! ## Steps -/

theorem JobCall.seats {k : Bool} {c : JobCall} {r : JobBooks × Option JobCall}
    (hr : c.step site k s = some r) : seatInv.Keeps s (some c) r := by
  intro m hseated hknows
  replace hseated : s.Seated := hseated
  replace hknows : c.Knows s := hknows c rfl
  have hstay : ∀ {c' : Option JobCall}, Free s c' → seatInv.Kept s (some c) m s c' :=
    fun hc' => seatInv_kept hseated hseated.refl hc'
  cases c with
  -- calls that read
  | starting userId barbershopId id | confirming intentId | recounting openingId slots
  | retrieving o intentId | finalizing intentId | checking r | judging r invite =>
    simp only [step] at hr
    repeat' split at hr
    all_goals cases hr
    all_goals first
      | exact hstay .none
      | exact hstay (.some rfl trivial)
  -- calls that write elsewhere
  | creating o | inviting q openingId slots | withdrawing inviteId r | canceling o intentId
  | returning intentId id | sending r intentId =>
    simp only [step] at hr
    repeat' split at hr
    all_goals cases hr
    all_goals first
      | exact seatInv_kept hseated (hseated.same rfl rfl rfl) (.some rfl trivial)
      | exact hstay .none
      | exact seatInv_kept hseated (hseated.same rfl rfl rfl) r.done_free
  -- calls that rewrite an application, none to accepted
  | recording o intentId | forgetting i id | joining id | applyingAgain id | linking q openingId slots i
  | undoing q | unclaiming r =>
    cases hr
    refine seatInv_kept hseated (hseated.setApplication fun a => ⟨rfl, ?_⟩) ?_
    · first
        | exact fun h => h
        | exact ApplicationStatus.noConfusion
    · first
        | exact .none
        | exact .some rfl trivial
        | exact q.failed_free
        | exact r.done_free
  | claimingFee intentId barbershopId seen =>
    simp only [step] at hr
    split at hr
    · cases hr
      exact hstay .none
    · split at hr
      · cases hr
        exact hstay .none
      · next applications happlications =>
        obtain ⟨a, -, -, rfl⟩ := Table.tryModify_eq_some.1 happlications
        cases hr
        refine seatInv_kept hseated (hseated.setApplication fun a => ⟨rfl, fun h => h⟩) ?_
        split <;> exact .some rfl trivial
  | deciding q =>
    simp only [step] at hr
    split at hr
    · cases hr
      exact hstay q.failed_free
    · next a o hfound =>
      split at hr
      · cases hr
        obtain ⟨b, hb, hfound⟩ := Option.bind_eq_some_iff.1 hfound
        obtain ⟨_, -, hpair⟩ := Option.map_eq_some_iff.1 hfound
        cases hpair
        exact hstay (.some rfl ⟨a, hb, rfl⟩)
      · cases hr
        exact hstay q.failed_free
  | locking q openingId slots =>
    simp only [step] at hr
    split at hr
    · cases hr
    · next hfree =>
      split at hr
      · cases hr
        exact hstay q.failed_free
      · next o ho =>
        split at hr
        · cases hr
          refine ⟨⟨hseated.known, hseated.within⟩, ?_, fun d hd _ => ?_, fun d hd _ => ?_⟩
          · intro a ha
            cases ha
            exact ⟨hknows, Function.update_self .., o, ho, rfl⟩
          · refine Knows.later hd (.refl JobApplication.SameOpening.refl _)
              (.refl JobOpening.SameSlots.refl _) fun other hother => ⟨?_, le_rfl⟩
            have hheld := JobCall.Knows.held hd hother
            refine Function.update_of_ne ?_ _ _
            rintro rfl
            exact hfree hheld
          · intro a ha other hmine hother
            cases ha
            obtain rfl := Option.some.inj hmine
            exact hfree (JobCall.Knows.held hd hother)
        · cases hr
          exact hstay q.failed_free
  | counting q openingId slots places =>
    obtain ⟨hof, htaken, o, ho, rfl⟩ := hknows
    simp only [step] at hr
    split at hr
    · next hroom =>
      cases hr
      refine .stay hseated rfl ?_ ?_
      · intro a ha
        cases ha
        exact ⟨hof, htaken, o, ho, hroom⟩
      · intro d hd a ha
        cases ha
        exact hd (counting q openingId slots o.slots) rfl
    · cases hr
      exact seatInv_unlock rfl ⟨hseated.known, hseated.within⟩
        (.refl JobApplication.SameOpening.refl _) rfl rfl (fun _ _ => le_rfl) q.failed_free
  | taking q openingId slots =>
    obtain ⟨hof, htaken, o, ho, hroom⟩ := hknows
    simp only [step] at hr
    split at hr
    · cases hr
      exact seatInv_unlock rfl ⟨hseated.known, hseated.within⟩
        (.refl JobApplication.SameOpening.refl _) rfl rfl (fun _ _ => le_rfl) q.failed_free
    · next applications happlications =>
      obtain ⟨a, -, -, rfl⟩ := Table.tryModify_eq_some.1 happlications
      cases hr
      have hkept : ∀ s' : JobBooks, s'.applications = s.applications.modify q.applicationId
          (fun a => { a with status := .accepted }) → s'.openings = s.openings →
            s'.held = Function.update s.held openingId false →
              seatInv.Kept s (some (taking q openingId slots)) m s' (some (inviting q openingId slots)) := by
        intro s' happlications hopenings hheld
        obtain ⟨hseated', hothers, hlasts⟩ := hseated.take hof ho hroom happlications hopenings
        exact seatInv_unlock rfl hseated' hlasts hopenings hheld hothers (.some rfl trivial)
      exact hkept _ rfl rfl rfl
  | filling openingId =>
    cases hr
    exact seatInv_kept hseated (hseated.opening _ _ fun _ => rfl) (.some rfl trivial)
  | reopening openingId =>
    cases hr
    exact seatInv_kept hseated (hseated.opening _ _ fun _ => rfl) .none
  | clearing openingId =>
    cases hr
    exact seatInv_kept hseated (hseated.answerPending _ ApplicationStatus.noConfusion) .none
  | shutting openingId =>
    cases hr
    have hclosed : s.Settles (s.setOpening openingId .closed) := hseated.opening _ _ fun _ => rfl
    exact seatInv_kept hseated (hclosed.trans ((hclosed.seated hseated).answerPending _
      ApplicationStatus.noConfusion)) .none
  | applying openingId userId =>
    simp only [step] at hr
    split at hr
    all_goals cases hr
    · exact hstay .none
    · refine seatInv_kept hseated ⟨rfl, fun o => ?_, .refl JobOpening.SameSlots.refl _,
        .insert JobApplication.SameOpening.refl _ _, fun hb => ?_⟩ .none
      · unfold JobBooks.accepted
        rw [Table.filter_insert_of_not (by simp [newApplication])]
      · rcases Table.get?_insert_cases hb with ⟨-, rfl⟩ | hb
        · exact hknows
        · exact hseated.known hb
  | expiring r pendingInvite periodOver =>
    simp only [step] at hr
    split at hr
    · cases hr
      exact hstay .none
    · next applications happlications =>
      obtain ⟨a, -, -, rfl⟩ := Table.tryModify_eq_some.1 happlications
      cases hr
      refine seatInv_kept hseated
        (hseated.setApplication fun a => ⟨rfl, ApplicationStatus.noConfusion⟩) ?_
      split <;> exact .some rfl trivial
  | refunding r =>
    simp only [step] at hr
    split at hr
    · cases hr
      exact hstay r.done_free
    · split at hr
      · split at hr
        · cases hr
          exact hstay r.done_free
        · next applications happlications =>
          obtain ⟨a, -, -, rfl⟩ := Table.tryModify_eq_some.1 happlications
          cases hr
          exact seatInv_kept hseated (hseated.setApplication fun a => ⟨rfl, fun h => h⟩)
            (.some rfl trivial)
      · cases hr
        exact hstay r.done_free

/-! ## Events -/

theorem JobEvent.seats {e : JobEvent} {r : JobBooks × Option JobCall} (hr : e.begin site s = some r) :
    seatInv.Keeps s none r := by
  intro m hseated _
  replace hseated : s.Seated := hseated
  have hstay : ∀ {c' : Option JobCall}, JobCall.Free s c' → seatInv.Kept s none m s c' :=
    fun hc' => seatInv_kept hseated hseated.refl hc'
  cases e with
  | create userId barbershopId slots endDate =>
    obtain ⟨-, hr⟩ := Option.ite_none_right_eq_some.1 hr
    cases hr
    refine seatInv_kept hseated ⟨rfl, fun _ => le_rfl, .insert JobOpening.SameSlots.refl _ _,
      .refl JobApplication.SameOpening.refl _, fun hb => ?_⟩ .none
    obtain ⟨o, ho⟩ := Option.isSome_iff_exists.1 (hseated.known hb)
    exact Option.isSome_iff_exists.2 ⟨o, Table.get?_insert_of_some _ ho⟩
  | startAcceptPayment userId barbershopId id | accept userId barbershopId id
  | close userId barbershopId id | deliver id =>
    obtain ⟨-, hr⟩ := Option.ite_none_right_eq_some.1 hr
    cases hr
    exact hstay (.some rfl trivial)
  | confirmAcceptPayment userId barbershopId id =>
    obtain ⟨-, hr⟩ := Option.ite_none_right_eq_some.1 hr
    cases hr
    refine hstay fun a ha => ?_
    obtain ⟨i, -, rfl⟩ := Option.map_eq_some_iff.1 ha
    exact ⟨rfl, trivial⟩
  | reject userId barbershopId id =>
    obtain ⟨-, hr⟩ := Option.ite_none_right_eq_some.1 hr
    cases hr
    exact seatInv_kept hseated (hseated.setApplication fun a =>
      ⟨rfl, answered_not_accepted ApplicationStatus.noConfusion⟩) .none
  | withdraw userId id =>
    cases hr
    exact seatInv_kept hseated (hseated.setApplication fun a =>
      ⟨rfl, answered_not_accepted ApplicationStatus.noConfusion⟩) .none
  | apply userId openingId =>
    simp only [begin] at hr
    split at hr
    · cases hr
    · next o ho =>
      obtain ⟨-, hr⟩ := Option.ite_none_right_eq_some.1 hr
      split at hr
      · cases hr
        exact hstay (.some rfl (Option.isSome_iff_exists.2 ⟨o, ho⟩))
      · obtain ⟨-, hr⟩ := Option.ite_none_right_eq_some.1 hr
        cases hr
        exact hstay (.some rfl trivial)
  | acceptInvite id | reissue id | approve id =>
    obtain ⟨_, -, rfl⟩ := Option.map_eq_some_iff.1 hr
    exact seatInv_kept hseated (hseated.same rfl rfl rfl) .none
  | refundOutside id =>
    obtain ⟨-, hr⟩ := Option.ite_none_right_eq_some.1 hr
    cases hr
    exact seatInv_kept hseated (hseated.same rfl rfl rfl) .none
  | revokePlatformPurchase id =>
    obtain ⟨-, hr⟩ := Option.ite_none_right_eq_some.1 hr
    cases hr
    exact seatInv_kept hseated hseated.revoke .none
  | deleteAccount userId =>
    cases hr
    have hanswered : s.Settles (s.answerPending (fun a => a.userId == userId) .withdrawn) :=
      hseated.answerPending _ ApplicationStatus.noConfusion
    exact seatInv_kept hseated (hanswered.trans ((hanswered.seated hseated).same rfl rfl rfl)) .none
  | release id =>
    simp only [begin] at hr
    split at hr
    · cases hr
    · obtain ⟨-, hr⟩ := Option.ite_none_right_eq_some.1 hr
      obtain ⟨o, -, rfl⟩ := Option.map_eq_some_iff.1 hr
      exact hstay (.some rfl trivial)
  | retryFailedRefunds id =>
    obtain ⟨a, -, rfl⟩ := Option.map_eq_some_iff.1 hr
    exact hstay (.some rfl trivial)
  | closeEnded id | closeOfBarbershop id =>
    obtain ⟨_, -, rfl⟩ := Option.map_eq_some_iff.1 hr
    exact seatInv_kept hseated (hseated.opening _ _ fun _ => rfl) (.some rfl trivial)
  | setFee feeCents | pass time =>
    cases hr
    exact seatInv_kept hseated (hseated.same rfl rfl rfl) .none

/-- In every run, no opening has more accepted applications than places. -/
theorem accepted_within_places (hs : s.Seated) {moves : List (Move JobEvent Bool)}
    {x : Calls JobBooks JobCall} (hrun : (jobCalls site).machine.run (.idle s) moves = some x) :
    ∀ {id o}, x.shared.openings.get? id = some o → x.shared.accepted id ≤ o.slots := by
  have hidle : seatInv.Holds (.idle s) := CallInv.holds_idle hs
  have hmeets : (jobCalls site).machine.Meets (CallSystem.When (fun _ _ => True)
      fun _ _ _ => True) (.idle s) moves := by
    refine (Machine.meets_iff _).2 fun before move after x' _ _ => ?_
    cases move with
    | event e => trivial
    | step i k => exact fun _ _ => trivial
  have hend := hidle.run (fun _ he => JobEvent.seats he) (fun _ hc => JobCall.seats hc) hmeets hrun
  intro id o ho
  exact hend.whole.within ho

end Steps

/-! ## Two managers at once -/

/-- One unit, open for a hundred days, where everybody manages. -/
def everybodyManages : JobSite where
  manages _ _ := true
  inTeam _ _ := false
  today _ now := (now / 86400000).toNat

/-- Nothing has happened yet. -/
def JobBooks.blank (feeCents : ℕ) : JobBooks where
  now := 0
  feeCents := feeCents
  deleted _ := false
  openings := .empty
  applications := .empty
  invites := .empty
  intents := .empty
  held _ := false

theorem JobBooks.blank_seated (feeCents : ℕ) : (blank feeCents).Seated where
  known ha := by cases ha
  within ho := by cases ho

/-- Two apply for one place. -/
def twoApply : List (Move JobEvent Bool) :=
  [.event (.create 1 1 1 100), .event (.apply 10 1), .event (.apply 11 1), .step 1 true, .step 2 true]

/-- Two managers accept one each. -/
def bothAccept : List (Move JobEvent Bool) :=
  twoApply ++ [.event (.accept 1 1 1), .event (.accept 2 1 2), .step 3 true, .step 4 true, .step 3 true,
    .step 3 true, .step 3 true, .step 4 true, .step 4 true] ++ List.replicate 5 (.step 3 true)

theorem bothAccept_onePlace : ∃ x, (jobCalls everybodyManages).machine.run (.idle (.blank 0)) bothAccept =
      some x ∧ x.quiet = true ∧ (∃ a, x.shared.applications.get? 2 = some a ∧ a.status = .rejected) ∧
    ∀ id o, x.shared.openings.get? id = some o → x.shared.accepted id ≤ o.slots := by
  have hruns : ((jobCalls everybodyManages).machine.run (.idle (.blank 0)) bothAccept).any (fun x =>
      x.quiet && (x.shared.applications.get? 2).any (·.status == .rejected)) = true := by
    decide +kernel
  obtain ⟨x, hrun, hrest⟩ := (Option.any_eq_true _ _).1 hruns
  simp only [Bool.and_eq_true, Option.any_eq_true, beq_iff_eq] at hrest
  exact ⟨x, hrun, hrest.1, hrest.2, fun _ _ ho => accepted_within_places (JobBooks.blank_seated 0) hrun ho⟩

end Barbershop
