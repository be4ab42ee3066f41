import Mathlib.Data.List.Basic

/-!
# Guarded computations

`Except ε` computations that read, check and refuse. `refuseIf c e` is the statement
`if (c) throw e`; `orRefuse` throws when a lookup found nothing; `ifGiven` runs a step when its input
is there. The simp set turns "this block succeeded" into the facts its checks established: a bind
that succeeded had a successful first half (`bind_eq_ok`), a passed `refuseIf` refutes its condition.
-/

namespace Lib

universe u v w

variable {ε : Type u} {α β : Type v}

def refuseIf (c : Prop) [Decidable c] (e : ε) : Except ε Unit := if c then .error e else .ok ()

def orRefuse (x : Option α) (e : ε) : Except ε α := x.elim (.error e) .ok

/-- Runs a step on an optional input. -/
def ifGiven (x : Option α) (f : α → Except ε β) : Except ε (Option β) :=
  match x with
  | none => .ok none
  | some a => some <$> f a

@[simp] theorem bind_eq_ok {x : Except ε α} {f : α → Except ε β} {b : β} :
    (x >>= f) = .ok b ↔ ∃ a, x = .ok a ∧ f a = .ok b := by
  cases x <;> simp [bind, Except.bind]

@[simp] theorem map_eq_ok {x : Except ε α} {f : α → β} {b : β} :
    f <$> x = .ok b ↔ ∃ a, x = .ok a ∧ f a = b := by
  cases x <;> simp [Functor.map, Except.map]

/-- The result of a check carries nothing. -/
@[simp] theorem exists_punit {p : PUnit.{v + 1} → Prop} : (∃ u, p u) ↔ p ⟨⟩ :=
  ⟨fun ⟨_, h⟩ => h, fun h => ⟨_, h⟩⟩

@[simp] theorem pure_eq_ok {a b : α} : (pure a : Except ε α) = .ok b ↔ a = b := by
  simp [pure, Except.pure]

@[simp] theorem refuseIf_eq_ok {c : Prop} [Decidable c] {e : ε} {u : Unit} :
    refuseIf c e = .ok u ↔ ¬c := by
  unfold refuseIf
  split <;> simp [*]

@[simp] theorem orRefuse_eq_ok {x : Option α} {e : ε} {a : α} :
    orRefuse x e = .ok a ↔ x = some a := by
  cases x <;> simp [orRefuse]

theorem ifGiven_eq_ok {x : Option α} {f : α → Except ε β} {y : Option β} :
    ifGiven x f = .ok y ↔
      (x = none ∧ y = none) ∨ ∃ a b, x = some a ∧ f a = .ok b ∧ y = some b := by
  cases x with
  | none => simp [ifGiven, eq_comm]
  | some a => cases h : f a <;> simp [ifGiven, h, eq_comm]

/-- A transaction over a state that the body writes as it goes: what it wrote stays if it succeeded
and is rolled back if it threw. -/
def transaction {σ : Type w} (body : σ → Except ε α × σ) (s : σ) : Except ε α × σ :=
  match body s with
  | (.ok a, s') => (.ok a, s')
  | (.error e, _) => (.error e, s)

theorem transaction_ok {σ : Type w} {body : σ → Except ε α × σ} {s : σ} {a : α}
    (h : (transaction body s).1 = .ok a) : transaction body s = body s := by
  unfold transaction at h ⊢
  split at h
  · next hb => rw [hb]
  · cases h

theorem transaction_error {σ : Type w} {body : σ → Except ε α × σ} {s : σ} {e : ε}
    (h : (transaction body s).1 = .error e) : (transaction body s).2 = s := by
  unfold transaction at h ⊢
  split at h
  · cases h
  · rfl

theorem toOption_eq_some {x : Except ε α} {a : α} : x.toOption = some a ↔ x = .ok a := by
  cases x <;> simp [Except.toOption]

end Lib
