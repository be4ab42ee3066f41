import Mathlib.Data.List.Basic

/-!
# Two overlapping requests

Two requests on one state, each all or nothing. One of them writes first; the other has decided on
reads of before or after that, and writes to the state the first left. What comes out is serial if
one of the two orders, in which each request sees the state it writes to, comes out the same.
-/

namespace Lib

universe u v

variable {ε : Type u} {σ : Type v}

/-- The state after a request; a refusal leaves it as it was. -/
def settle (s : σ) : Except ε σ → σ
  | .ok s' => s'
  | .error _ => s

@[simp] theorem settle_ok (s s' : σ) : settle s (.ok s' : Except ε σ) = s' := rfl

@[simp] theorem settle_error (s : σ) (e : ε) : settle s (.error e : Except ε σ) = s := rfl

theorem settle_of_refused {s : σ} {r : Except ε σ} (h : ∀ s', r ≠ .ok s') : settle s r = s := by
  cases r with
  | ok s' => exact absurd rfl (h s')
  | error e => rfl

/-- `out` is, up to `eq`, what `f` and `g` leave one after the other in one of the two orders. -/
def Serial (eq : σ → σ → Prop) (f g : σ → Except ε σ) (s out : σ) : Prop :=
  eq out (settle (settle s (f s)) (g (settle s (f s)))) ∨
    eq out (settle (settle s (g s)) (f (settle s (g s))))

/-- `f` has written, and `r` is what `g` did on the reads it made. It is serial if `g` does the same,
up to `eq`, once it sees all that `f` wrote, and if it is refused on mixed reads only where it is
refused on one of the two states they are of. -/
theorem serial_of_overlap {eq : σ → σ → Prop} (hrefl : ∀ s, eq s s) {f g : σ → Except ε σ} {s : σ}
    {r : Except ε σ}
    (hdone : ∀ s₂, r = .ok s₂ → ∃ s₂', g (settle s (f s)) = .ok s₂' ∧ eq s₂ s₂')
    (hboth : (∃ s₂, g (settle s (f s)) = .ok s₂) → (∃ s₂, g s = .ok s₂) → ∃ s₂, r = .ok s₂) :
    Serial eq f g s (settle (settle s (f s)) r) := by
  by_cases hr : ∃ s₂, r = .ok s₂
  · obtain ⟨s₂, rfl⟩ := hr
    obtain ⟨s₂', hg, heq⟩ := hdone s₂ rfl
    left
    rw [hg]
    exact heq
  · have hrefused : settle (settle s (f s)) r = settle s (f s) :=
      settle_of_refused fun s₂ h => hr ⟨s₂, h⟩
    rw [hrefused]
    by_cases hafter : ∃ s₂, g (settle s (f s)) = .ok s₂
    · -- it would go through after `f`, so it would not before
      have hbefore : settle s (g s) = s := by
        refine settle_of_refused fun s₂ h => hr (hboth hafter ⟨s₂, h⟩)
      right
      rw [hbefore]
      exact hrefl _
    · left
      rw [settle_of_refused fun s₂ h => hafter ⟨s₂, h⟩]
      exact hrefl _

end Lib
