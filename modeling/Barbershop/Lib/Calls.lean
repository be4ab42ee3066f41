import Barbershop.Lib.Machine
import Barbershop.Lib.Table

/-!
# Calls in flight

Calls that run side by side over one shared state. Each call is a program of atomic steps, and
between two steps of one call the others move. What a call has read so far is in its own state;
`CallSystem.step` says what its next step does to the shared state and with what the call goes on,
if it does. `CallSystem.event` is what happens beside the calls in flight, and may begin one.

A `CallInv` is an invariant of such a system in four parts: a fact about the shared state and the
total weight of the calls in flight, a fact about each call, and a symmetric fact about each two
calls. `CallInv.Keeps` says what one move owes to them: the moved call accounts for its own weight,
and the facts of the others are stable under what it did. `CallInv.run` carries them over the runs
whose moves meet a condition.
-/

namespace Lib

universe u v w x y

/-- A shared state with the calls in flight over it. -/
structure Calls (σ : Type u) (τ : Type v) where
  shared : σ
  inFlight : Table τ

/-- A system at rest. -/
def Calls.idle {σ : Type u} {τ : Type v} (s : σ) : Calls σ τ := ⟨s, .empty⟩

/-- No call is in flight. -/
def Calls.quiet {σ : Type u} {τ : Type v} (c : Calls σ τ) : Bool := c.inFlight.rows.isEmpty

/-- What happens beside the calls, and what each call does next; the second component is the call
that begins or goes on. -/
structure CallSystem (σ : Type u) (τ : Type v) (ε : Type w) (κ : Type x) where
  event : ε → σ → Option (σ × Option τ)
  step : κ → τ → σ → Option (σ × Option τ)

/-- One move of a run: an event, or a step of the call under a key. -/
inductive Move (ε : Type w) (κ : Type x) where
  | event (e : ε)
  | step (i : ℕ) (k : κ)

/-- A call that goes on, or has ended with a result. -/
inductive Progress (τ : Type v) (ρ : Type w) where
  | next (c : τ)
  | done (r : ρ)

namespace Progress

/-- The call, while it runs. -/
def running {τ : Type v} {ρ : Type w} : Progress τ ρ → Option τ
  | next c => some c
  | done _ => none

@[simp] theorem running_next {τ : Type v} {ρ : Type w} (c : τ) :
    (next c : Progress τ ρ).running = some c := rfl

@[simp] theorem running_done {τ : Type v} {ρ : Type w} (r : ρ) :
    (done r : Progress τ ρ).running = none := rfl

/-- A call that is the last thing its caller does, or does before `after`. -/
def within {τ : Type v} {ρ : Type w} {τ' : Type x} {ρ' : Type y} (wrap : τ → τ')
    (after : ρ → Progress τ' ρ') : Progress τ ρ → Progress τ' ρ'
  | next c => next (wrap c)
  | done r => after r

section Alone

variable {σ : Type u} {τ : Type v} {ρ : Type w} (step : τ → σ → σ × Progress τ ρ)

/-- A call that runs alone, for `n` steps at most. -/
def toEnd : ℕ → τ → σ → σ
  | 0, _, s => s
  | n + 1, c, s =>
    match step c s with
    | (s', next c') => toEnd n c' s'
    | (s', done _) => s'

/-- Where every step lowers a rank, all numbers of steps above it end the call alike. -/
theorem toEnd_eq {rank : τ → ℕ}
    (hrank : ∀ {c s s' c'}, step c s = (s', next c') → rank c' < rank c) {c : τ} {s : σ} {n m : ℕ}
    (hn : rank c < n) (hm : rank c < m) : toEnd step n c s = toEnd step m c s := by
  induction n generalizing c s m with
  | zero => omega
  | succ n ih =>
    obtain ⟨m, rfl⟩ := Nat.exists_eq_succ_of_ne_zero (Nat.ne_of_gt (Nat.zero_lt_of_lt hm))
    simp only [toEnd]
    cases hs : step c s with
    | mk s' p =>
      cases p with
      | done r => rfl
      | next c' =>
        have hlt := hrank hs
        apply ih
        · omega
        · omega

/-- What every step keeps, the call keeps. -/
theorem toEnd_inv {I : σ → Prop} (hstep : ∀ c {s}, I s → I (step c s).1) {n : ℕ} {c : τ} {s : σ}
    (h : I s) : I (toEnd step n c s) := by
  induction n generalizing c s with
  | zero => exact h
  | succ n ih =>
    have hnext := hstep c h
    simp only [toEnd]
    cases hs : step c s with
    | mk s' p =>
      rw [hs] at hnext
      cases p with
      | done r => exact hnext
      | next c' => exact ih hnext

end Alone

end Progress

namespace CallSystem

variable {σ : Type u} {τ : Type v} {ε : Type w} {κ : Type x}

/-- The calls in flight after a step of one of them. -/
def settle (t : Table τ) (i : ℕ) : Option τ → Table τ
  | none => t.erase i
  | some c => t.modify i fun _ => c

def machine (sys : CallSystem σ τ ε κ) : Machine (Calls σ τ) (Move ε κ) where
  step x
    | .event e => (sys.event e x.shared).map fun r => ⟨r.1, r.2.elim x.inFlight x.inFlight.insert⟩
    | .step i k => (x.inFlight.get? i).bind fun c =>
        (sys.step k c x.shared).map fun r => ⟨r.1, settle x.inFlight i r.2⟩

/-- A condition on the moves of a run: one for events, one for the steps of calls. -/
def When (onEvent : ε → σ → Prop) (onStep : κ → τ → σ → Prop) (x : Calls σ τ) :
    Move ε κ → Prop
  | .event e => onEvent e x.shared
  | .step i k => ∀ c ∈ x.inFlight.get? i, onStep k c x.shared

instance (onEvent : ε → σ → Prop) (onStep : κ → τ → σ → Prop) [∀ e s, Decidable (onEvent e s)]
    [∀ k c s, Decidable (onStep k c s)] : ∀ (x : Calls σ τ) (m : Move ε κ),
    Decidable (When onEvent onStep x m)
  | x, .event e => inferInstanceAs (Decidable (onEvent e x.shared))
  | x, .step i k => inferInstanceAs (Decidable (∀ c ∈ x.inFlight.get? i, onStep k c x.shared))

variable {sys : CallSystem σ τ ε κ} {x x' : Calls σ τ}

theorem machine_event {e : ε} : sys.machine.step x (.event e) = some x' ↔
    ∃ s c, sys.event e x.shared = some (s, c) ∧ x' = ⟨s, c.elim x.inFlight x.inFlight.insert⟩ := by
  simp [machine, eq_comm]

theorem machine_step {i : ℕ} {k : κ} : sys.machine.step x (.step i k) = some x' ↔
    ∃ c s c', x.inFlight.get? i = some c ∧ sys.step k c x.shared = some (s, c') ∧
      x' = ⟨s, settle x.inFlight i c'⟩ := by
  simp only [machine, Option.bind_eq_some_iff, Option.map_eq_some_iff, Prod.exists]
  constructor
  · rintro ⟨c, hi, s, c', hs, rfl⟩
    exact ⟨c, s, c', hi, hs, rfl⟩
  · rintro ⟨c, s, c', hi, hs, rfl⟩
    exact ⟨c, hi, s, c', hs, rfl⟩

end CallSystem

/-- An invariant of calls in flight. -/
structure CallInv (σ : Type u) (τ : Type v) (M : Type y) where
  weight : τ → M
  /-- About the shared state and the total weight of the calls in flight. -/
  whole : σ → M → Prop
  each : σ → τ → Prop
  pair : τ → τ → Prop := fun _ _ => True
  symm : ∀ {a b : τ}, pair a b → pair b a := by intros; trivial

namespace CallInv

variable {σ : Type u} {τ : Type v} {M : Type y} [AddCommMonoid M]

structure Holds (I : CallInv σ τ M) (x : Calls σ τ) : Prop where
  whole : I.whole x.shared (x.inFlight.sum fun _ => I.weight)
  each : ∀ {i : ℕ} {c : τ}, x.inFlight.get? i = some c → I.each x.shared c
  pair : ∀ {i j : ℕ} {c d : τ}, i ≠ j → x.inFlight.get? i = some c → x.inFlight.get? j = some d →
    I.pair c d

/-- What a call that may have ended, or not begun, weighs. -/
def weigh (I : CallInv σ τ M) (c : Option τ) : M := c.elim 0 I.weight

@[simp] theorem weigh_none (I : CallInv σ τ M) : I.weigh none = 0 := rfl

@[simp] theorem weigh_some (I : CallInv σ τ M) (c : τ) : I.weigh (some c) = I.weight c := rfl

/-- What a move owes to the invariant: it takes the shared state from `s` to `s'` and a call from
`c` to `c'`, while the other calls weigh `m`. -/
structure Kept (I : CallInv σ τ M) (s : σ) (c : Option τ) (m : M) (s' : σ) (c' : Option τ) :
    Prop where
  whole : I.whole s' (I.weigh c' + m)
  mine : ∀ a ∈ c', I.each s' a
  others : ∀ d, I.each s d → (∀ a ∈ c, I.pair a d) → I.each s' d
  apart : ∀ d, I.each s d → (∀ a ∈ c, I.pair a d) → ∀ a ∈ c', I.pair a d

def Keeps (I : CallInv σ τ M) (s : σ) (c : Option τ) (r : σ × Option τ) : Prop :=
  ∀ m, I.whole s (I.weigh c + m) → (∀ a ∈ c, I.each s a) → I.Kept s c m r.1 r.2

variable {I : CallInv σ τ M}

theorem holds_idle {s : σ} (h : I.whole s 0) : I.Holds (.idle s) where
  whole := h
  each hi := by cases hi
  pair _ hi := by cases hi

/-- A move that leaves the shared state alone and weighs what the call weighed. -/
theorem Kept.stay {s : σ} {c c' : Option τ} {m : M} (h : I.whole s (I.weigh c + m))
    (hw : I.weigh c' = I.weigh c) (hmine : ∀ a ∈ c', I.each s a)
    (hpair : ∀ d, (∀ a ∈ c, I.pair a d) → ∀ a ∈ c', I.pair a d) : I.Kept s c m s c' where
  whole := hw ▸ h
  mine := hmine
  others _ hd _ := hd
  apart d _ hd := hpair d hd

/-- A move with which the call ends, or that begins none. -/
theorem Kept.over {s s' : σ} {c : Option τ} {m : M} (hwhole : I.whole s' (I.weigh none + m))
    (hothers : ∀ d, I.each s d → (∀ a ∈ c, I.pair a d) → I.each s' d) : I.Kept s c m s' none where
  whole := hwhole
  mine a ha := by cases ha
  others := hothers
  apart _ _ _ a ha := by cases ha

theorem Holds.begin {x : Calls σ τ} (h : I.Holds x) {r : σ × Option τ} (hr : I.Keeps x.shared none r) :
    I.Holds ⟨r.1, r.2.elim x.inFlight x.inFlight.insert⟩ := by
  have hkept := hr (x.inFlight.sum fun _ => I.weight) (by simpa using h.whole) (by simp)
  obtain ⟨s, c⟩ := r
  dsimp only at hkept ⊢
  cases c with
  | none =>
    exact {
      whole := by simpa using hkept.whole
      each := fun hi => hkept.others _ (h.each hi) (by simp)
      pair := h.pair }
  | some c =>
    have hnew : ∀ {i a}, (x.inFlight.insert c).get? i = some a →
        i = x.inFlight.next ∧ a = c ∨ i ≠ x.inFlight.next ∧ x.inFlight.get? i = some a := by
      intro i a hi
      rw [Table.get?_insert] at hi
      split at hi
      · next e => exact .inl ⟨e, (Option.some.inj hi).symm⟩
      · next e => exact .inr ⟨e, hi⟩
    refine ⟨?_, ?_, ?_⟩
    · simpa [add_comm] using hkept.whole
    · intro i a hi
      rcases hnew hi with ⟨-, rfl⟩ | ⟨-, hi⟩
      · exact hkept.mine _ rfl
      · exact hkept.others _ (h.each hi) (by simp)
    · intro i j a b hne hi hj
      rcases hnew hi with ⟨rfl, rfl⟩ | ⟨-, hi₀⟩
      · rcases hnew hj with ⟨rfl, -⟩ | ⟨-, hj₀⟩
        · exact absurd rfl hne
        · exact hkept.apart _ (h.each hj₀) (by simp) _ rfl
      · rcases hnew hj with ⟨rfl, rfl⟩ | ⟨-, hj₀⟩
        · exact I.symm (hkept.apart _ (h.each hi₀) (by simp) _ rfl)
        · exact h.pair hne hi₀ hj₀

theorem Holds.step {x : Calls σ τ} (h : I.Holds x) {i : ℕ} {c : τ}
    (hi : x.inFlight.get? i = some c) {r : σ × Option τ} (hr : I.Keeps x.shared (some c) r) :
    I.Holds ⟨r.1, CallSystem.settle x.inFlight i r.2⟩ := by
  have hsum := Table.sum_eq_add_erase (fun _ => I.weight) hi
  have hkept := hr ((x.inFlight.erase i).sum fun _ => I.weight)
    (by simpa [hsum] using h.whole) (by simpa using h.each hi)
  have hother : ∀ {j d}, j ≠ i → x.inFlight.get? j = some d → ∀ a ∈ some c, I.pair a d := by
    intro j d hne hj a ha
    obtain rfl := Option.mem_some.1 ha
    exact h.pair (Ne.symm hne) hi hj
  obtain ⟨s, c'⟩ := r
  dsimp only at hkept ⊢
  cases c' with
  | none =>
    have hback : ∀ {j d}, (x.inFlight.erase i).get? j = some d →
        j ≠ i ∧ x.inFlight.get? j = some d := by
      intro j d hj
      rw [Table.get?_erase] at hj
      split at hj
      · cases hj
      · next hne => exact ⟨hne, hj⟩
    exact {
      whole := by simpa [CallSystem.settle] using hkept.whole
      each := fun hj => hkept.others _ (h.each (hback hj).2) (hother (hback hj).1 (hback hj).2)
      pair := fun hne hj hk => h.pair hne (hback hj).2 (hback hk).2 }
  | some c' =>
    have hget : (x.inFlight.modify i fun _ => c').get? i = some c' := by simp [hi]
    have hback : ∀ {j d}, (x.inFlight.modify i fun _ => c').get? j = some d →
        j = i ∧ d = c' ∨ j ≠ i ∧ x.inFlight.get? j = some d := by
      intro j d hj
      by_cases e : j = i
      · subst e
        rw [hget] at hj
        exact .inl ⟨rfl, (Option.some.inj hj).symm⟩
      · rw [Table.get?_modify_of_ne _ _ e] at hj
        exact .inr ⟨e, hj⟩
    refine ⟨?_, ?_, ?_⟩
    · have hsum' := Table.sum_eq_add_erase (fun _ => I.weight) hget
      rw [Table.erase_modify] at hsum'
      simpa [CallSystem.settle, hsum'] using hkept.whole
    · intro j d hj
      rcases hback hj with ⟨-, rfl⟩ | ⟨hne, hj⟩
      · exact hkept.mine _ rfl
      · exact hkept.others _ (h.each hj) (hother hne hj)
    · intro j k a b hne hj hk
      rcases hback hj with ⟨rfl, rfl⟩ | ⟨hji, hj₀⟩
      · rcases hback hk with ⟨rfl, -⟩ | ⟨hki, hk₀⟩
        · exact absurd rfl hne
        · exact hkept.apart _ (h.each hk₀) (hother hki hk₀) _ rfl
      · rcases hback hk with ⟨rfl, rfl⟩ | ⟨-, hk₀⟩
        · exact I.symm (hkept.apart _ (h.each hj₀) (hother hji hj₀) _ rfl)
        · exact h.pair hne hj₀ hk₀

/-- At rest the calls weigh nothing. -/
theorem Holds.quiet {x : Calls σ τ} (h : I.Holds x) (hq : x.quiet = true) : I.whole x.shared 0 := by
  have hrows : x.inFlight.rows = [] := List.isEmpty_iff.1 hq
  simpa [Table.sum, hrows] using h.whole

variable {ε : Type w} {κ : Type x} {sys : CallSystem σ τ ε κ}
  {onEvent : ε → σ → Prop} {onStep : κ → τ → σ → Prop}

/-- An invariant that every event and every step keep under a condition holds at the end of every
run whose moves meet it. -/
theorem Holds.run (hevent : ∀ {e s r}, onEvent e s → sys.event e s = some r → I.Keeps s none r)
    (hstep : ∀ {k c s r}, onStep k c s → sys.step k c s = some r → I.Keeps s (some c) r)
    {x x' : Calls σ τ} {moves : List (Move ε κ)} (h : I.Holds x)
    (hmeets : sys.machine.Meets (CallSystem.When onEvent onStep) x moves)
    (hrun : sys.machine.run x moves = some x') : I.Holds x' := by
  refine sys.machine.run_inv_of_meets ?_ h hmeets hrun
  intro x m x' hx hm hmove
  cases m with
  | event e =>
    obtain ⟨s, c, he, rfl⟩ := CallSystem.machine_event.1 hmove
    exact hx.begin (hevent hm he)
  | step i k =>
    obtain ⟨c, s, c', hi, hs, rfl⟩ := CallSystem.machine_step.1 hmove
    exact hx.step hi (hstep (hm c hi) hs)

end CallInv

end Lib
