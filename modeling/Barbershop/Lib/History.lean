import Barbershop.Lib.Machine

/-!
# Requests that read the past

A request reads before it writes, and between its reads and its commit other requests commit. Seen
from the commit, each read saw some earlier committed state. A `History` is a committed state with
the states committed before it; `concurrent exec` is the machine whose actions commit one request
each, where `exec` computes the new state from the current one and from any states seen earlier. Its
runs contain every interleaving of requests that write once.

To carry an invariant over such runs, keep with it a relation `R` between an earlier and a later
state: `History.Good I R` says that the invariant holds of every committed state and that each is
related to the current one.
-/

namespace Lib

universe u v w

structure History (σ : Type u) where
  now : σ
  past : List σ

namespace History

variable {σ : Type u}

/-- The state as it was so many commits ago; before the first commit, the current one. -/
def seen (h : History σ) : ℕ → σ
  | 0 => h.now
  | n + 1 => h.past.getD n h.now

def commit (h : History σ) (s : σ) : History σ := ⟨s, h.now :: h.past⟩

/-- The history of a system that starts. -/
def start (s : σ) : History σ := ⟨s, []⟩

@[simp] theorem now_commit (h : History σ) (s : σ) : (h.commit s).now = s := rfl

/-- The invariant `I` holds of every committed state, and `R` relates each to the current one. -/
structure Good (I : σ → Prop) (R : σ → σ → Prop) (h : History σ) : Prop where
  now : I h.now
  past : ∀ s ∈ h.past, I s ∧ R s h.now

variable {I : σ → Prop} {R : σ → σ → Prop} {h : History σ}

theorem good_start {s : σ} (hs : I s) : Good I R (start s) := ⟨hs, by simp [start]⟩

theorem Good.seen (hh : Good I R h) (hrefl : ∀ s, R s s) (n : ℕ) :
    I (h.seen n) ∧ R (h.seen n) h.now := by
  cases n with
  | zero => exact ⟨hh.now, hrefl _⟩
  | succ n =>
    change I (h.past.getD n h.now) ∧ R (h.past.getD n h.now) h.now
    rw [List.getD_eq_getElem?_getD]
    cases hn : h.past[n]? with
    | none => exact ⟨hh.now, hrefl _⟩
    | some s => exact hh.past s (List.mem_of_getElem? hn)

theorem Good.commit (hh : Good I R h) (htrans : ∀ {a b c}, R a b → R b c → R a c) {s : σ}
    (hI : I s) (hR : R h.now s) : Good I R (h.commit s) where
  now := hI
  past a ha := by
    rcases List.mem_cons.1 ha with rfl | ha
    · exact ⟨hh.now, hR⟩
    · exact ⟨(hh.past a ha).1, htrans (hh.past a ha).2 hR⟩

end History

variable {σ : Type u} {α : Type v} {ε : Type w}

/-- The machine whose actions are requests that read any committed states and commit once. -/
def concurrent (exec : α → (ℕ → σ) → σ → Except ε σ) : Machine (History σ) α where
  step h a := (exec a h.seen h.now).toOption.map h.commit

theorem concurrent_step {exec : α → (ℕ → σ) → σ → Except ε σ} {h h' : History σ} {a : α} :
    (concurrent exec).step h a = some h' ↔
      ∃ s, exec a h.seen h.now = .ok s ∧ h.commit s = h' := by
  simp only [concurrent, Option.map_eq_some_iff]
  cases exec a h.seen h.now <;> simp [Except.toOption]

end Lib
