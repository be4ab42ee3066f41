import Mathlib.Algebra.BigOperators.Group.List.Basic

/-!
# Levels that move only by recorded entries

A state keeps levels, one for each key, and a log of entries, each of which moves some levels by some
amounts. `Recorded s s' new` says that from `s` to `s'` exactly the entries `new` were logged and
every level moved by what they say. Such moves compose (`Recorded.trans`, `Recorded.foldl`), and if
a state is `Reconciled`, every level being the sum of its log, it stays so.
-/

namespace Lib

universe u v w x

/-- A log of entries `ε` and levels under keys `κ`, read off a state. -/
structure Journal (σ : Type u) (ε : Type v) (κ : Type w) (M : Type x) where
  log : σ → List ε
  level : σ → κ → M
  amount : ε → κ → M

namespace Journal

variable {σ : Type u} {ε : Type v} {κ : Type w} {M : Type x} [AddCommMonoid M]
  (j : Journal σ ε κ M)

/-- What a list of entries says about a level. -/
def total (k : κ) (es : List ε) : M := (es.map fun e => j.amount e k).sum

@[simp] theorem total_nil (k : κ) : j.total k [] = 0 := rfl

@[simp] theorem total_cons (k : κ) (e : ε) (es : List ε) :
    j.total k (e :: es) = j.amount e k + j.total k es := by
  simp [total]

@[simp] theorem total_append (k : κ) (es es' : List ε) :
    j.total k (es ++ es') = j.total k es + j.total k es' := by
  simp [total]

/-- From `s` to `s'`, the entries `new` were logged and every level moved by what they say. -/
structure Recorded (s s' : σ) (new : List ε) : Prop where
  log : j.log s' = j.log s ++ new
  level : ∀ k, j.level s' k = j.level s k + j.total k new

/-- Every level is the sum of its log. -/
def Reconciled (s : σ) : Prop := ∀ k, j.level s k = j.total k (j.log s)

variable {j} {s s' s'' : σ} {new new' : List ε}

theorem Recorded.refl (s : σ) : j.Recorded s s [] := ⟨by simp, fun k => by simp⟩

theorem Recorded.trans (h : j.Recorded s s' new) (h' : j.Recorded s' s'' new') :
    j.Recorded s s'' (new ++ new') where
  log := by rw [h'.log, h.log, List.append_assoc]
  level k := by rw [h'.level, h.level, total_append, add_assoc]

/-- A fold whose steps record entries with the property `P` that move the levels by `d`. -/
theorem Recorded.foldl {α : Type*} {f : σ → α → σ} {P : ε → Prop} {d : α → κ → M} :
    ∀ (l : List α) (s : σ), (∀ s, ∀ a ∈ l, ∃ new, j.Recorded s (f s a) new ∧ (∀ e ∈ new, P e) ∧
        ∀ k, j.total k new = d a k) →
      ∃ new, j.Recorded s (l.foldl f s) new ∧ (∀ e ∈ new, P e) ∧
        ∀ k, j.total k new = (l.map fun a => d a k).sum
  | [], s, _ => ⟨[], Recorded.refl s, by simp, fun k => by simp⟩
  | a :: l, s, h => by
    obtain ⟨new, hrec, hP, hd⟩ := h s a List.mem_cons_self
    obtain ⟨new', hrec', hP', hd'⟩ :=
      Recorded.foldl l (f s a) fun s b hb => h s b (List.mem_cons_of_mem _ hb)
    refine ⟨new ++ new', hrec.trans hrec', fun e he => ?_, fun k => ?_⟩
    · rcases List.mem_append.1 he with he | he
      · exact hP e he
      · exact hP' e he
    · rw [total_append, hd, hd', List.map_cons, List.sum_cons]

theorem Reconciled.recorded (h : j.Reconciled s) (hr : j.Recorded s s' new) : j.Reconciled s' := by
  intro k
  rw [hr.level, h k, hr.log, total_append]

/-- Entries that do not have a property do not change what the entries with it say. -/
theorem total_filter_of_not {p : ε → Bool} (h : ∀ e ∈ new, p e = false) (k : κ) (es : List ε) :
    j.total k ((es ++ new).filter p) = j.total k (es.filter p) := by
  have hnil : new.filter p = [] := List.filter_eq_nil_iff.2 fun e he => by simp [h e he]
  rw [List.filter_append, hnil, List.append_nil]

/-- Entries that have a property all count among those with it. -/
theorem total_filter_of_forall {p : ε → Bool} (h : ∀ e ∈ new, p e = true) (k : κ) (es : List ε) :
    j.total k ((es ++ new).filter p) = j.total k (es.filter p) + j.total k new := by
  rw [List.filter_append, List.filter_eq_self.2 h, total_append]

end Journal

end Lib
