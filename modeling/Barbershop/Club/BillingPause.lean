import Mathlib.Algebra.Group.Pi.Basic
import Barbershop.Lib.Calls
import Barbershop.Model.Db

/-!
# Pauses of the club's billing

The owner pauses a unit (`setClubBillingPaused`); the platform suspends a unit or a network, and an
owner's account is disabled (`ClubBillingPauseService`). Each keeps a mark of its own on the
memberships, and all share one flag of Stripe, `pause_collection`, which is to be set while there is
a mark. Each request reads the memberships once, and then, for each, calls Stripe unless someone
else's mark holds the pause, and writes its mark.

`PauseCall.keepsPause` is what each write has to meet for the marks and the flag to agree at rest.
-/

namespace Barbershop

open Lib

/-! ## Rows -/

/-- A token of `billingPauseReasons`; the owner's carries the account. -/
inductive PauseToken where
  | platform_shop
  | platform_network
  | owner_inactive (userId : ℕ)
  deriving DecidableEq

/-- A `clientSubscription`, as the pauses read it. -/
structure PausableMembership where
  barbershopId : ℕ
  status : SubscriptionStatus
  shopPausedAt : Option ℤ
  billingPauseReasons : List PauseToken

namespace PausableMembership

variable (m : PausableMembership)

/-- `ACTIVE` or `PAST_DUE`. -/
def billable : Bool := m.status == .active || m.status == .pastDue

/-- Some mark holds the pause. -/
def held : Bool := m.shopPausedAt.isSome || !m.billingPauseReasons.isEmpty

/-- The reasons but one. -/
def others (token : PauseToken) : List PauseToken := m.billingPauseReasons.filter (· ≠ token)

end PausableMembership

structure PausableShop where
  ownerUserId : ℕ
  networkId : Option ℕ
  /-- The owner of its network. -/
  networkOwnerUserId : Option ℕ

/-- The memberships, with Stripe's flag on each; `standing` are the reasons that were paused and not
resumed since, and `steady` the memberships that were active or past due throughout, both of which
no code reads. -/
structure ClubPauses where
  memberships : Table PausableMembership
  collectionPaused : ℕ → Bool
  standing : ℕ → List PauseToken
  steady : ℕ → Bool

/-! ## Requests -/

/-- `setClubBillingPaused`, and `apply` with its token. -/
inductive PauseRequest where
  | setClubBillingPaused (barbershopId : ℕ) (paused : Bool)
  | apply (token : PauseToken) (barbershopIds : List ℕ) (paused : Bool)

namespace PauseRequest

def paused : PauseRequest → Bool
  | setClubBillingPaused _ paused => paused
  | apply _ _ paused => paused

/-- Which memberships `findMany` returns. -/
def selects : PauseRequest → PausableMembership → Bool
  | setClubBillingPaused shop true, m =>
    m.barbershopId == shop && m.billable && m.shopPausedAt.isNone
  | setClubBillingPaused shop false, m => m.barbershopId == shop && m.shopPausedAt.isSome
  | apply token shops true, m =>
    decide (m.barbershopId ∈ shops) && m.billable && decide (token ∉ m.billingPauseReasons)
  | apply token shops false, m =>
    decide (m.barbershopId ∈ shops) && decide (token ∈ m.billingPauseReasons)

/-- By what was read, someone else holds the pause (`stillHeld`, `heldBySomeoneElse`). -/
def heldBySomeoneElse : PauseRequest → PausableMembership → Bool
  | setClubBillingPaused _ paused, seen => !paused && !seen.billingPauseReasons.isEmpty
  | apply _ _ true, seen => seen.shopPausedAt.isSome || !seen.billingPauseReasons.isEmpty
  | apply token _ false, seen => seen.shopPausedAt.isSome || !(seen.others token).isEmpty

def billable (r : PauseRequest) (seen : PausableMembership) : Bool := r.paused || seen.billable

/-- The write of the mark. -/
def mark (r : PauseRequest) (now : ℤ) (seen m : PausableMembership) : PausableMembership :=
  match r with
  | setClubBillingPaused _ paused => { m with shopPausedAt := if paused then some now else none }
  | apply token _ true => { m with billingPauseReasons := m.billingPauseReasons ++ [token] }
  | apply token _ false => { m with billingPauseReasons := seen.others token }

/-- The reasons that stand once the mark is written. -/
def stand : PauseRequest → List PauseToken → List PauseToken
  | setClubBillingPaused .., standing => standing
  | apply token _ true, standing => token :: standing
  | apply token _ false, standing => standing.filter (· ≠ token)

end PauseRequest

/-- Suspension of a unit by the platform. -/
def forShop (barbershopId : ℕ) (paused : Bool) : PauseRequest :=
  .apply .platform_shop [barbershopId] paused

/-- Suspension of a network: all its units. -/
def forNetwork (shops : Table PausableShop) (networkId : ℕ) (paused : Bool) : PauseRequest :=
  .apply .platform_network
    ((shops.filter fun _ shop => shop.networkId == some networkId).map Prod.fst) paused

/-- A disabled account: the units of the owner, and those of the networks that are the owner's. -/
def forOwner (shops : Table PausableShop) (userId : ℕ) (paused : Bool) : PauseRequest :=
  .apply (.owner_inactive userId)
    ((shops.filter fun _ shop => shop.ownerUserId == userId ||
      shop.networkOwnerUserId == some userId).map Prod.fst) paused

/-! ## Calls -/

/-- Where a call is: before a membership, or about to write its mark on one. -/
inductive PauseCall where
  | calling (r : PauseRequest) (rows : List (ℕ × PausableMembership))
  | marking (r : PauseRequest) (id : ℕ) (seen : PausableMembership)
      (rows : List (ℕ × PausableMembership))

/-- What a step meets: Stripe's answer and the instant. -/
structure PauseChance where
  accepted : Bool
  now : ℤ

namespace PauseCall

def step (k : PauseChance) (c : PauseCall) (s : ClubPauses) : ClubPauses × Option PauseCall :=
  match c with
  | calling _ [] => (s, none)
  | calling r ((id, seen) :: rows) =>
    if !r.heldBySomeoneElse seen && r.billable seen then
      if k.accepted then
        ({ s with collectionPaused := Function.update s.collectionPaused id r.paused },
          some (marking r id seen rows))
      -- an error of Stripe leaves the membership as it was
      else (s, some (calling r rows))
    else (s, some (marking r id seen rows))
  | marking r id seen rows =>
    ({ s with
      memberships := s.memberships.modify id (r.mark k.now seen)
      standing := Function.update s.standing id (r.stand (s.standing id)) },
      some (calling r rows))

/-- Whether, for a call that resumes, the other marks are as it read them. -/
def asRead : PauseRequest → PausableMembership → PausableMembership → Bool
  | .setClubBillingPaused _ false, seen, m =>
    seen.billingPauseReasons.isEmpty == m.billingPauseReasons.isEmpty
  | .apply token _ false, seen, m => seen.shopPausedAt.isSome == m.shopPausedAt.isSome &&
    (seen.others token).all (decide <| · ∈ m.others token) &&
      (m.others token).all (decide <| · ∈ seen.others token)
  | _, _, _ => true

/-- What each write has to meet: Stripe's flag is still as the call has set or found it, and for a
call that resumes the other marks are as it read them. -/
def keepsPause (c : PauseCall) (s : ClubPauses) : Bool :=
  match c with
  | marking r id seen _ => !s.steady id || (s.memberships.get? id).all fun m =>
      asRead r seen m && s.collectionPaused id == (r.paused || r.heldBySomeoneElse seen)
  | calling .. => true

end PauseCall

inductive PauseEvent where
  | setClubBillingPaused (barbershopId : ℕ) (paused : Bool)
  | forShop (barbershopId : ℕ) (paused : Bool)
  | forNetwork (networkId : ℕ) (paused : Bool)
  | forOwner (userId : ℕ) (paused : Bool)
  /-- The status of a membership changes. -/
  | move (id : ℕ) (status : SubscriptionStatus)

def PauseRequest.begin (r : PauseRequest) (s : ClubPauses) : PauseCall :=
  .calling r (s.memberships.filter fun _ m => r.selects m)

def PauseEvent.begin (shops : Table PausableShop) (e : PauseEvent) (s : ClubPauses) :
    ClubPauses × Option PauseCall :=
  match e with
  | setClubBillingPaused shop paused =>
    (s, some ((PauseRequest.setClubBillingPaused shop paused).begin s))
  | forShop shop paused => (s, some ((Barbershop.forShop shop paused).begin s))
  | forNetwork network paused => (s, some ((Barbershop.forNetwork shops network paused).begin s))
  | forOwner userId paused => (s, some ((Barbershop.forOwner shops userId paused).begin s))
  | move id status => ({ s with
      memberships := s.memberships.modify id fun m => { m with status := status }
      steady := Function.update s.steady id
        (s.steady id && (status == .active || status == .pastDue)) }, none)

/-- Any requests at once, over units that do not change hands. -/
def pauseCalls (shops : Table PausableShop) :
    CallSystem ClubPauses PauseCall PauseEvent PauseChance where
  event e s := some (e.begin shops s)
  step k c s := some (c.step k s)

/-! ## Agreement -/

/-- A membership's flag and its reasons are what the marks and the requests say. -/
structure PausesAgree (s : ClubPauses) (id : ℕ) (m : PausableMembership) : Prop where
  flag : s.collectionPaused id = m.held
  reasons : ∀ token, token ∈ m.billingPauseReasons ↔ token ∈ s.standing id

/-- Before the first request: the marks agree, and the steady memberships are billable. -/
structure ClubPauses.Start (s : ClubPauses) : Prop where
  billable : ∀ {id m}, s.memberships.get? id = some m → s.steady id = true → m.billable = true
  agree : ∀ {id m}, s.memberships.get? id = some m → s.steady id = true → PausesAgree s id m

section Runs

variable {s s' : ClubPauses} {shops : Table PausableShop} {k : PauseChance}

/-- A steady membership while `pending` writes of marks on it are yet to come. -/
structure PauseBooks (s : ClubPauses) (id : ℕ) (m : PausableMembership) (pending : ℕ) : Prop where
  billable : m.billable = true
  reasons : ∀ token, token ∈ m.billingPauseReasons ↔ token ∈ s.standing id
  flag : pending = 0 → s.collectionPaused id = m.held

/-- The rows that a call has read and not passed yet. -/
def PauseCall.rows : PauseCall → List (ℕ × PausableMembership)
  | calling _ rows => rows
  | marking _ id seen rows => (id, seen) :: rows

/-- The memberships that a call is about to mark. -/
def PauseCall.marks : PauseCall → ℕ → ℕ
  | calling .. => 0
  | marking _ id _ _ => Pi.single id 1

/-- The invariant of the calls in flight; a call weighs on the membership it is about to mark. -/
def pauseInv : CallInv ClubPauses PauseCall (ℕ → ℕ) where
  weight := PauseCall.marks
  whole s pending := ∀ id m, s.memberships.get? id = some m → s.steady id = true →
    PauseBooks s id m (pending id)
  each s c := ∀ row ∈ c.rows, s.steady row.1 = true → row.2.billable = true

/-- What a write of a mark leaves, under the condition. -/
theorem PauseBooks.mark {r : PauseRequest} {id : ℕ} {seen m : PausableMembership} {pending : ℕ}
    {s' : ClubPauses} (h : PauseBooks s id m pending) (now : ℤ)
    (hread : PauseCall.asRead r seen m = true)
    (hflag : s.collectionPaused id = (r.paused || r.heldBySomeoneElse seen))
    (hflag' : s'.collectionPaused = s.collectionPaused)
    (hstanding : s'.standing id = r.stand (s.standing id)) :
    PauseBooks s' id (r.mark now seen m) 0 := by
  have hbillable : (r.mark now seen m).billable = m.billable := by
    cases r with
    | setClubBillingPaused shop paused => rfl
    | apply token shops paused => cases paused <;> rfl
  have hstatus := hbillable.trans h.billable
  cases r with
  | setClubBillingPaused shop paused =>
    refine ⟨hstatus, fun token => ?_, fun _ => ?_⟩
    · rw [hstanding]
      exact h.reasons token
    · rw [hflag', hflag]
      cases paused with
      | true => rfl
      | false =>
        have hsame : seen.billingPauseReasons.isEmpty = m.billingPauseReasons.isEmpty :=
          beq_iff_eq.1 hread
        simp [PauseRequest.paused, PauseRequest.heldBySomeoneElse, PauseRequest.mark,
          PausableMembership.held, hsame]
  | apply token shops paused => cases paused with
    | true =>
      refine ⟨hstatus, fun token' => ?_, fun _ => ?_⟩
      · rw [hstanding]
        have hreasons := h.reasons token'
        rw [PauseRequest.mark, PauseRequest.stand, List.mem_append, List.mem_singleton,
          List.mem_cons, hreasons]
        exact or_comm
      · rw [hflag', hflag]
        simp [PauseRequest.paused, PauseRequest.mark, PausableMembership.held]
    | false =>
      simp only [PauseCall.asRead, Bool.and_eq_true, beq_iff_eq, List.all_eq_true,
        decide_eq_true_eq] at hread
      obtain ⟨⟨hshop, hback⟩, hforth⟩ := hread
      have hsame : ∀ token', token' ∈ seen.others token ↔ token' ∈ m.others token :=
        fun token' => ⟨hback token', hforth token'⟩
      refine ⟨hstatus, fun token' => ?_, fun _ => ?_⟩
      · rw [hstanding]
        have hothers : token' ∈ seen.others token ↔ token' ∈ m.others token := hsame token'
        rw [PausableMembership.others, PausableMembership.others, List.mem_filter, List.mem_filter,
          h.reasons token'] at hothers
        rw [PauseRequest.mark, PauseRequest.stand, PausableMembership.others, List.mem_filter,
          List.mem_filter]
        exact hothers
      · rw [hflag', hflag]
        simp [PauseRequest.paused, PauseRequest.heldBySomeoneElse, PauseRequest.mark,
          PausableMembership.held, hshop]

theorem PauseBooks.again {id : ℕ} {m : PausableMembership} {pending pending' : ℕ}
    (h : PauseBooks s id m pending) (hflag : s'.collectionPaused id = s.collectionPaused id)
    (hstanding : s'.standing id = s.standing id) (hpending : pending' = 0 → pending = 0) :
    PauseBooks s' id m pending' where
  billable := h.billable
  reasons token := hstanding ▸ h.reasons token
  flag hzero := hflag.trans (h.flag (hpending hzero))

/-- A call goes on, or ends, with rows that it had; no membership becomes steady by it. -/
theorem pauseInv_kept {c : PauseCall} {c' : Option PauseCall} {pending : ℕ → ℕ}
    (hwhole : pauseInv.whole s' (pauseInv.weigh c' + pending))
    (hsteady : ∀ id, s'.steady id = true → s.steady id = true)
    (hmine : pauseInv.each s c) (hrows : ∀ a ∈ c', ∀ row ∈ a.rows, row ∈ c.rows) :
    pauseInv.Kept s (some c) pending s' c' where
  whole := hwhole
  mine a ha row hrow hs := hmine row (hrows a ha row hrow) (hsteady _ hs)
  others _ hd _ row hrow hs := hd row hrow (hsteady _ hs)
  apart _ _ _ _ _ := trivial

theorem PauseCall.keeps {c : PauseCall} {r : ClubPauses × Option PauseCall}
    (hkeeps : c.keepsPause s = true) (hr : (pauseCalls shops).step k c s = some r) :
    pauseInv.Keeps s (some c) r := by
  obtain rfl := Option.some.inj hr
  intro pending hwhole hmine
  have hrows := hmine c rfl
  cases c with
  | calling r rows => cases rows with
    | nil => exact pauseInv_kept hwhole (fun _ hs => hs) hrows fun a ha => by cases ha
    | cons row rows =>
      obtain ⟨id, seen⟩ := row
      -- a mark that is now to come asks nothing more of the flag
      have hmore : ∀ {flags : ℕ → Bool}, (∀ j ≠ id, flags j = s.collectionPaused j) →
          pauseInv.whole { s with collectionPaused := flags }
            (pauseInv.weigh (some (marking r id seen rows)) + pending) := by
        intro flags hflags j m hm hs
        have hbooks := hwhole j m hm hs
        by_cases hj : j = id
        · subst hj
          refine ⟨hbooks.billable, hbooks.reasons, fun hzero => ?_⟩
          simp [pauseInv, marks] at hzero
        · refine hbooks.again (hflags j hj) rfl fun hzero => ?_
          simpa [pauseInv, marks, hj] using hzero
      simp only [step]
      split
      · split
        · refine pauseInv_kept (hmore fun j hj => Function.update_of_ne hj _ _) (fun _ hs => hs)
            hrows fun a ha row hrow => ?_
          obtain rfl := Option.some.inj ha
          exact hrow
        · refine pauseInv_kept hwhole (fun _ hs => hs) hrows fun a ha row hrow => ?_
          obtain rfl := Option.some.inj ha
          exact List.mem_cons_of_mem _ hrow
      · refine pauseInv_kept (hmore fun j _ => rfl) (fun _ hs => hs) hrows fun a ha row hrow => ?_
        obtain rfl := Option.some.inj ha
        exact hrow
  | marking r id seen rows =>
    refine pauseInv_kept (fun j m hm hs => ?_) (fun _ hs => hs) hrows fun a ha row hrow => ?_
    · simp only [step] at hm hs ⊢
      by_cases hj : j = id
      · subst hj
        rw [Table.get?_modify_self] at hm
        obtain ⟨m', hm', rfl⟩ := Option.map_eq_some_iff.1 hm
        have hbooks := hwhole j m' hm' hs
        simp only [keepsPause, hs, Bool.not_true, Bool.false_or, hm', Option.all_some,
          Bool.and_eq_true, beq_iff_eq] at hkeeps
        have hmarked : PauseBooks (step k (marking r j seen rows) s).1 j (r.mark k.now seen m') 0 :=
          hbooks.mark k.now hkeeps.1 hkeeps.2 rfl (Function.update_self ..)
        exact hmarked.again rfl rfl fun _ => rfl
      · rw [Table.get?_modify_of_ne _ _ hj] at hm
        refine (hwhole j m hm hs).again rfl (Function.update_of_ne hj _ _) fun hzero => ?_
        simpa [pauseInv, marks, hj] using hzero
    · obtain rfl := Option.some.inj ha
      exact List.mem_cons_of_mem _ hrow

theorem PauseEvent.keeps {e : PauseEvent} {r : ClubPauses × Option PauseCall}
    (hr : (pauseCalls shops).event e s = some r) : pauseInv.Keeps s none r := by
  obtain rfl := Option.some.inj hr
  intro pending hwhole _
  -- what a request reads of a steady membership is billable
  have hbegin (request : PauseRequest) :
      pauseInv.Kept s none pending s (some (request.begin s)) := by
    refine .stay hwhole rfl (fun a ha row hrow hs => ?_) fun _ _ _ _ => trivial
    obtain rfl := Option.some.inj ha
    have hread : (row.1, row.2) ∈ s.memberships.filter fun _ m => request.selects m := hrow
    exact (hwhole row.1 row.2 (Table.mem_filter.1 hread).1 hs).billable
  cases e with
  | setClubBillingPaused shop paused => exact hbegin _
  | forShop shop paused => exact hbegin _
  | forNetwork network paused => exact hbegin _
  | forOwner userId paused => exact hbegin _
  | move id status =>
    have hsteady : ∀ j, Function.update s.steady id
        (s.steady id && (status == .active || status == .pastDue)) j = true → s.steady j = true ∧
          (j = id → (status == .active || status == .pastDue) = true) := by
      intro j hs
      by_cases hj : j = id
      · subst hj
        rw [Function.update_self, Bool.and_eq_true] at hs
        exact ⟨hs.1, fun _ => hs.2⟩
      · rw [Function.update_of_ne hj] at hs
        exact ⟨hs, fun heq => absurd heq hj⟩
    refine {
      whole := fun j m hm hs => ?_
      mine := fun a ha => by cases ha
      others := fun d hd _ row hrow hs => hd row hrow (hsteady _ hs).1
      apart := fun _ _ _ _ _ => trivial }
    obtain ⟨hs', hbillable⟩ := hsteady j hs
    simp only [begin] at hm
    by_cases hj : j = id
    · subst hj
      rw [Table.get?_modify_self] at hm
      obtain ⟨m', hm', rfl⟩ := Option.map_eq_some_iff.1 hm
      have hbooks := hwhole j m' hm' hs'
      exact ⟨hbillable rfl, hbooks.reasons, hbooks.flag⟩
    · rw [Table.get?_modify_of_ne _ _ hj] at hm
      exact (hwhole j m hm hs').again rfl rfl fun hzero => hzero

/-- In every run of requests and answers of Stripe whose writes meet `keepsPause`, at rest. -/
theorem club_pauses_agree {moves : List (Move PauseEvent PauseChance)}
    {x : Calls ClubPauses PauseCall} {id : ℕ} {m : PausableMembership} (hs : s.Start)
    (hmeets : (pauseCalls shops).machine.Meets (CallSystem.When (fun _ _ => True)
      fun _ c s => c.keepsPause s = true) (.idle s) moves)
    (hrun : (pauseCalls shops).machine.run (.idle s) moves = some x) (hquiet : x.quiet = true)
    (hm : x.shared.memberships.get? id = some m) (hsteady : x.shared.steady id = true) :
    PausesAgree x.shared id m := by
  have hidle : pauseInv.Holds (.idle s) := CallInv.holds_idle fun j m hm hs' =>
    ⟨hs.billable hm hs', (hs.agree hm hs').reasons, fun _ => (hs.agree hm hs').flag⟩
  have hend := hidle.run (fun _ he => PauseEvent.keeps he) (fun hk hc => PauseCall.keeps hk hc)
    hmeets hrun
  have hbooks := hend.quiet hquiet id m hm hsteady
  exact ⟨hbooks.flag rfl, hbooks.reasons⟩

end Runs

/-! ## Two runs -/

/-- One membership of unit 1. -/
def oneMembership (shopPausedAt : Option ℤ) : ClubPauses where
  memberships := Table.empty.insert {
    barbershopId := 1
    status := .active
    shopPausedAt := shopPausedAt
    billingPauseReasons := [] }
  collectionPaused _ := shopPausedAt.isSome
  standing _ := []
  steady _ := true

theorem start_oneMembership (shopPausedAt : Option ℤ) : (oneMembership shopPausedAt).Start := by
  have hrow : ∀ {id m}, (oneMembership shopPausedAt).memberships.get? id = some m →
      m = ⟨1, .active, shopPausedAt, []⟩ := by
    intro id m hm
    simp only [oneMembership, Table.get?_insert, Table.get?_empty] at hm
    split at hm
    · exact (Option.some.inj hm).symm
    · cases hm
  constructor
  · rintro id m hm -
    rw [hrow hm]
    rfl
  · rintro id m hm -
    rw [hrow hm]
    refine ⟨?_, fun token => Iff.rfl⟩
    simp [oneMembership, PausableMembership.held]

def stripeAnswers : PauseChance where
  accepted := true
  now := 5

/-- The owner pauses the unit, the platform suspends it, and the owner resumes. -/
def pausedTwice : List (Move PauseEvent PauseChance) :=
  .event (.setClubBillingPaused 1 true) :: List.replicate 3 (.step 1 stripeAnswers) ++
    .event (.forShop 1 true) :: List.replicate 3 (.step 2 stripeAnswers) ++
    .event (.setClubBillingPaused 1 false) :: List.replicate 3 (.step 3 stripeAnswers)

theorem pausedTwice_agree : ∃ x m,
    (pauseCalls .empty).machine.run (.idle (oneMembership none)) pausedTwice = some x ∧
      x.shared.memberships.get? 1 = some m ∧ m.billingPauseReasons = [.platform_shop] ∧
        m.shopPausedAt = none ∧ PausesAgree x.shared 1 m := by
  have hmeets : (pauseCalls .empty).machine.Meets (CallSystem.When (fun _ _ => True)
      fun _ c s => c.keepsPause s = true) (.idle (oneMembership none)) pausedTwice := by
    decide +kernel
  have hsome : ((pauseCalls .empty).machine.run (.idle (oneMembership none)) pausedTwice).any
      (fun x => x.quiet && x.shared.steady 1 && (x.shared.memberships.get? 1).any fun m =>
        m.billingPauseReasons == [.platform_shop] && m.shopPausedAt.isNone) = true := by
    decide +kernel
  obtain ⟨x, hrun, hout⟩ := (Option.any_eq_true _ _).1 hsome
  rw [Bool.and_eq_true, Bool.and_eq_true, Option.any_eq_true] at hout
  obtain ⟨⟨hquiet, hsteady⟩, m, hm, hmarks⟩ := hout
  rw [Bool.and_eq_true, beq_iff_eq, Option.isNone_iff_eq_none] at hmarks
  exact ⟨x, m, hrun, hm, hmarks.1, hmarks.2,
    club_pauses_agree (start_oneMembership none) hmeets hrun hquiet hm hsteady⟩

/-- The platform suspends a paused unit while the owner resumes it: each reads the memberships
before the other writes. -/
def suspendedWhileResumed : List (Move PauseEvent PauseChance) :=
  [.event (.forShop 1 true), .event (.setClubBillingPaused 1 false)] ++
    List.replicate 3 (.step 2 stripeAnswers) ++ List.replicate 3 (.step 1 stripeAnswers)

theorem suspendedWhileResumed_collects : (oneMembership (some 0)).Start ∧ ∃ x m,
    (pauseCalls .empty).machine.run (.idle (oneMembership (some 0))) suspendedWhileResumed =
        some x ∧ x.quiet = true ∧
      x.shared.memberships.get? 1 = some m ∧ x.shared.steady 1 = true ∧
        m.billingPauseReasons = [.platform_shop] ∧ x.shared.collectionPaused 1 = false ∧
          ¬ PausesAgree x.shared 1 m := by
  have hsome : ((pauseCalls .empty).machine.run (.idle (oneMembership (some 0)))
      suspendedWhileResumed).any (fun x => x.quiet && x.shared.steady 1 &&
        !x.shared.collectionPaused 1 && (x.shared.memberships.get? 1).any fun m =>
          m.billingPauseReasons == [.platform_shop]) = true := by
    decide +kernel
  obtain ⟨x, hrun, hout⟩ := (Option.any_eq_true _ _).1 hsome
  rw [Bool.and_eq_true, Bool.and_eq_true, Bool.and_eq_true, Bool.not_eq_true',
    Option.any_eq_true] at hout
  obtain ⟨⟨⟨hquiet, hsteady⟩, hcollects⟩, m, hm, hreasons⟩ := hout
  rw [beq_iff_eq] at hreasons
  refine ⟨start_oneMembership _, x, m, hrun, hquiet, hm, hsteady, hreasons, hcollects,
    fun h => ?_⟩
  have hflag := h.flag
  rw [hcollects, PausableMembership.held, hreasons] at hflag
  simp at hflag

end Barbershop
