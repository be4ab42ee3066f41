import Barbershop.Lib.Calls

/-!
# One call at a time

A `CallSystem` run sequentially: an event that may begin a call waits until the call in flight has
ended. `CallSystem.solo_run` carries an invariant that says, at rest and at each point of a call,
what holds of the shared state.
-/

namespace Lib

universe u v w x

/-- A shared state, and the call that is in flight if there is one. -/
structure Solo (σ : Type u) (τ : Type v) where
  shared : σ
  call : Option τ

/-- An event, or a step of the call in flight. -/
inductive Turn (ε : Type w) (κ : Type x) where
  | event (e : ε)
  | step (k : κ)

namespace CallSystem

variable {σ : Type u} {τ : Type v} {ε : Type w} {κ : Type x} (sys : CallSystem σ τ ε κ)

def solo : Machine (Solo σ τ) (Turn ε κ) where
  step x
    | .event e =>
      if x.call.isSome then none else (sys.event e x.shared).map fun r => ⟨r.1, r.2⟩
    | .step k => x.call.bind fun c => (sys.step k c x.shared).map fun r => ⟨r.1, r.2⟩

/-- A condition on the steps of calls. -/
def Steps (onStep : κ → τ → σ → Prop) (x : Solo σ τ) : Turn ε κ → Prop
  | .event _ => True
  | .step k => ∀ c ∈ x.call, onStep k c x.shared

instance (onStep : κ → τ → σ → Prop) [∀ k c s, Decidable (onStep k c s)] :
    ∀ (x : Solo σ τ) (t : Turn ε κ), Decidable (Steps onStep x t)
  | _, .event _ => isTrue trivial
  | x, .step k => inferInstanceAs (Decidable (∀ c ∈ x.call, onStep k c x.shared))

variable {sys} {onStep : κ → τ → σ → Prop} {I : Option τ → σ → Prop}

/-- What every event at rest and every step under the condition keep holds at the end of every run
whose steps meet it. -/
theorem solo_run (hevent : ∀ {e s r}, I none s → sys.event e s = some r → I r.2 r.1)
    (hstep : ∀ {k c s r}, onStep k c s → I (some c) s → sys.step k c s = some r → I r.2 r.1)
    {x x' : Solo σ τ} {turns : List (Turn ε κ)} (h : I x.call x.shared)
    (hmeets : sys.solo.Meets (Steps onStep) x turns) (hrun : sys.solo.run x turns = some x') :
    I x'.call x'.shared := by
  refine sys.solo.run_inv_of_meets (I := fun x => I x.call x.shared) ?_ h hmeets hrun
  intro x t x' hx ht hmove
  cases t with
  | event e =>
    obtain ⟨hrest, hmove⟩ := Option.ite_none_left_eq_some.1 hmove
    obtain ⟨r, hr, rfl⟩ := Option.map_eq_some_iff.1 hmove
    rw [Option.not_isSome_iff_eq_none] at hrest
    rw [hrest] at hx
    exact hevent hx hr
  | step k =>
    obtain ⟨c, hc, hmove⟩ := Option.bind_eq_some_iff.1 hmove
    obtain ⟨r, hr, rfl⟩ := Option.map_eq_some_iff.1 hmove
    rw [hc] at hx
    exact hstep (ht c hc) hx hr

end CallSystem

end Lib
