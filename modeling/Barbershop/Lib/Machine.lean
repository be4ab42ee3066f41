import Mathlib.Algebra.Group.Defs
import Mathlib.Data.List.Basic

/-!
# Machines and their runs

A `Machine` is a transition system whose steps are computed: an action taken in a state gives the
next state, or is refused. Every choice a system leaves open (which request moves, which committed
state a read saw) is part of the action, so a run is a list of actions and can be evaluated.

`Machine.run_inv` carries what one step preserves to whole runs. `Machine.run_inv_of_meets` does so
for the runs whose every step is taken under a condition on the state before it (`Machine.Meets`):
with it, "the property holds in every run whose steps meet the condition" is a step lemma and one
application; `Machine.always_iff_meets` is the exact form, for a property that a step keeps exactly
under the condition. `Machine.run_rel` is the two-state form, for what a run may change, and
`Machine.run_total` the accounting form: a quantity that every step moves by what the step emits is
moved by a run by the total of what it emits.
-/

namespace Lib

universe u v

/-- A transition system with computed steps. -/
structure Machine (σ : Type u) (α : Type v) where
  step : σ → α → Option σ

namespace Machine

variable {σ : Type u} {α : Type v} (m : Machine σ α)

/-- The state after a list of actions; `none` when one of them is refused. -/
def run : σ → List α → Option σ
  | s, [] => some s
  | s, a :: as => (m.step s a).bind fun s' => run s' as

/-- Every action of the list is taken in a state that satisfies `C` with it. -/
def Meets (C : σ → α → Prop) : σ → List α → Prop
  | _, [] => True
  | s, a :: as => C s a ∧ ∀ s', m.step s a = some s' → Meets C s' as

instance decidableMeets (C : σ → α → Prop) [∀ s a, Decidable (C s a)] :
    ∀ (s : σ) (as : List α), Decidable (m.Meets C s as)
  | _, [] => isTrue trivial
  | s, a :: as =>
    have : Decidable (∀ s', m.step s a = some s' → m.Meets C s' as) :=
      match m.step s a with
      | none => isTrue fun _ h' => nomatch h'
      | some s₁ =>
        have := decidableMeets C s₁ as
        decidable_of_iff (m.Meets C s₁ as)
          ⟨fun hM _ h' => Option.some.inj h' ▸ hM, fun hM => hM s₁ rfl⟩
    inferInstanceAs (Decidable (C s a ∧ _))

@[simp] theorem run_nil (s : σ) : m.run s [] = some s := rfl

theorem run_cons {s s'' : σ} {a : α} {as : List α} :
    m.run s (a :: as) = some s'' ↔ ∃ s', m.step s a = some s' ∧ m.run s' as = some s'' := by
  simp only [run, Option.bind_eq_some_iff]

theorem run_append {s s'' : σ} {as bs : List α} :
    m.run s (as ++ bs) = some s'' ↔ ∃ s', m.run s as = some s' ∧ m.run s' bs = some s'' := by
  induction as generalizing s with
  | nil => simp
  | cons a as ih =>
    simp only [List.cons_append, run_cons, ih]
    constructor
    · rintro ⟨s₁, h₁, s₂, h₂, h₃⟩
      exact ⟨s₂, ⟨s₁, h₁, h₂⟩, h₃⟩
    · rintro ⟨s₂, ⟨s₁, h₁, h₂⟩, h₃⟩
      exact ⟨s₁, h₁, s₂, h₂, h₃⟩

/-- Wherever a run is cut, the next action is taken under the condition. -/
theorem meets_iff {C : σ → α → Prop} {s : σ} {as : List α} : m.Meets C s as ↔
    ∀ before a after s', as = before ++ a :: after → m.run s before = some s' → C s' a := by
  induction as generalizing s with
  | nil =>
    refine ⟨fun _ before a after _ h => ?_, fun _ => trivial⟩
    exact absurd h.symm (by simp)
  | cons b bs ih =>
    constructor
    · intro h before a after s' hsplit hrun
      cases before with
      | nil =>
        obtain ⟨rfl, -⟩ := List.cons.inj hsplit
        exact Option.some.inj hrun ▸ h.1
      | cons c before =>
        obtain ⟨rfl, hrest⟩ := List.cons.inj hsplit
        obtain ⟨s₁, h₁, hrun⟩ := m.run_cons.1 hrun
        exact ih.1 (h.2 s₁ h₁) before a after s' hrest hrun
    · intro h
      refine ⟨h [] b bs s rfl rfl, fun s₁ h₁ => ih.2 fun before a after s' hsplit hrun => ?_⟩
      exact h (b :: before) a after s' (by rw [hsplit, List.cons_append])
        (m.run_cons.2 ⟨s₁, h₁, hrun⟩)

/-- The condition on a run, cut where its first part ends. -/
theorem meets_append {C : σ → α → Prop} {s s' : σ} {as bs : List α} (h : m.run s as = some s') :
    m.Meets C s (as ++ bs) ↔ m.Meets C s as ∧ m.Meets C s' bs := by
  induction as generalizing s with
  | nil =>
    obtain rfl := Option.some.inj h
    exact ⟨fun hbs => ⟨trivial, hbs⟩, fun hbs => hbs.2⟩
  | cons a as ih =>
    obtain ⟨s₁, h₁, h₂⟩ := m.run_cons.1 h
    constructor
    · intro hC
      have hrest := (ih h₂).1 (hC.2 s₁ h₁)
      refine ⟨⟨hC.1, fun s₂ hs₂ => ?_⟩, hrest.2⟩
      obtain rfl := Option.some.inj (h₁.symm.trans hs₂)
      exact hrest.1
    · intro hC
      refine ⟨hC.1.1, fun s₂ hs₂ => ?_⟩
      obtain rfl := Option.some.inj (h₁.symm.trans hs₂)
      exact (ih h₂).2 ⟨hC.1.2 s₁ h₁, hC.2⟩

theorem Meets.mono {C D : σ → α → Prop} (h : ∀ {s a}, C s a → D s a) {s : σ} {as : List α}
    (hC : m.Meets C s as) : m.Meets D s as := by
  rw [meets_iff] at hC ⊢
  intro before a after s' hsplit hrun
  exact h (hC before a after s' hsplit hrun)

/-- A property that every step met by `C` preserves holds at the end of every run that meets `C`
throughout. -/
theorem run_inv_of_meets {C : σ → α → Prop} {I : σ → Prop}
    (hstep : ∀ {s a s'}, I s → C s a → m.step s a = some s' → I s') {s s' : σ} {as : List α}
    (hI : I s) (hC : m.Meets C s as) (h : m.run s as = some s') : I s' := by
  induction as generalizing s with
  | nil => exact Option.some.inj h ▸ hI
  | cons a as ih =>
    obtain ⟨s₁, h₁, h₂⟩ := m.run_cons.1 h
    exact ih (hstep hI hC.1 h₁) (hC.2 s₁ h₁) h₂

/-- A property that every step preserves holds at the end of every run. -/
theorem run_inv {I : σ → Prop} (hstep : ∀ {s a s'}, I s → m.step s a = some s' → I s')
    {s s' : σ} {as : List α} (hI : I s) (h : m.run s as = some s') : I s' := by
  induction as generalizing s with
  | nil => exact Option.some.inj h ▸ hI
  | cons a as ih =>
    obtain ⟨s₁, h₁, h₂⟩ := m.run_cons.1 h
    exact ih (hstep hI h₁) h₂

/-- A property of every state that a list of actions reaches, the first included. -/
def Always (I : σ → Prop) : σ → List α → Prop
  | s, [] => I s
  | s, a :: as => I s ∧ ∀ s', m.step s a = some s' → Always I s' as

theorem always_iff {I : σ → Prop} {s : σ} {as : List α} : m.Always I s as ↔
    ∀ before after s', as = before ++ after → m.run s before = some s' → I s' := by
  induction as generalizing s with
  | nil =>
    constructor
    · intro h before after s' hsplit hrun
      obtain ⟨rfl, -⟩ := List.append_eq_nil_iff.1 hsplit.symm
      exact Option.some.inj hrun ▸ h
    · intro h
      exact h [] [] s rfl rfl
  | cons a as ih =>
    constructor
    · intro h before after s' hsplit hrun
      cases before with
      | nil => exact Option.some.inj hrun ▸ h.1
      | cons b before =>
        obtain ⟨rfl, hrest⟩ := List.cons.inj hsplit
        obtain ⟨s₁, h₁, hrun⟩ := m.run_cons.1 hrun
        exact ih.1 (h.2 s₁ h₁) before after s' hrest hrun
    · intro h
      refine ⟨h [] (a :: as) s rfl rfl, fun s₁ h₁ => ih.2 fun before after s' hsplit hrun => ?_⟩
      exact h (a :: before) after s' (by rw [hsplit, List.cons_append])
        (m.run_cons.2 ⟨s₁, h₁, hrun⟩)

/-- A property that a step keeps exactly under `C` holds all along a run exactly when the run meets
`C`. -/
theorem always_iff_meets {C : σ → α → Prop} {I J : σ → Prop}
    (hJ : ∀ {s a s'}, J s → m.step s a = some s' → J s')
    (hstep : ∀ {s a s'}, J s → I s → m.step s a = some s' → (I s' ↔ C s a)) {s s' : σ}
    {as : List α} (hs : J s) (hI : I s) (hrun : m.run s as = some s') :
    m.Always I s as ↔ m.Meets C s as := by
  induction as generalizing s with
  | nil => exact iff_of_true hI trivial
  | cons a as ih =>
    obtain ⟨s₁, h₁, h₂⟩ := m.run_cons.1 hrun
    have hfirst := hstep hs hI h₁
    constructor
    · rintro ⟨-, hrest⟩
      have halways := hrest s₁ h₁
      have hI₁ : I s₁ := m.always_iff.1 halways [] as s₁ rfl rfl
      refine ⟨hfirst.1 hI₁, fun s₂ h₂' => ?_⟩
      obtain rfl := Option.some.inj (h₁.symm.trans h₂')
      exact (ih (hJ hs h₁) hI₁ h₂).1 halways
    · rintro ⟨hC, hrest⟩
      refine ⟨hI, fun s₂ h₂' => ?_⟩
      obtain rfl := Option.some.inj (h₁.symm.trans h₂')
      exact (ih (hJ hs h₁) (hfirst.2 hC) h₂).2 (hrest s₁ h₁)

/-- A reflexive and transitive relation that every step respects relates the ends of every run. -/
theorem run_rel {R : σ → σ → Prop} (hrefl : ∀ s, R s s)
    (htrans : ∀ {s₁ s₂ s₃}, R s₁ s₂ → R s₂ s₃ → R s₁ s₃)
    (hstep : ∀ {s a s'}, m.step s a = some s' → R s s') {s s' : σ} {as : List α}
    (h : m.run s as = some s') : R s s' := by
  induction as generalizing s with
  | nil => exact Option.some.inj h ▸ hrefl s
  | cons a as ih =>
    obtain ⟨s₁, h₁, h₂⟩ := m.run_cons.1 h
    exact htrans (hstep h₁) (ih h₂)

/-- What the steps of a run emit, added up. -/
def total {M : Type*} [AddMonoid M] (f : σ → α → M) : σ → List α → M
  | _, [] => 0
  | s, a :: as => f s a + (m.step s a).elim 0 fun s' => total f s' as

/-- If, under an invariant, every step moves the quantity `q` by what it emits, a run moves it by
the total. -/
theorem run_total {M : Type*} [AddMonoid M] {f : σ → α → M} {I : σ → Prop} {q : σ → M}
    (hstep : ∀ {s a s'}, I s → m.step s a = some s' → I s' ∧ q s' = q s + f s a) {s s' : σ}
    {as : List α} (hI : I s) (h : m.run s as = some s') : I s' ∧ q s' = q s + m.total f s as := by
  induction as generalizing s with
  | nil =>
    obtain rfl := Option.some.inj h
    exact ⟨hI, (add_zero _).symm⟩
  | cons a as ih =>
    obtain ⟨s₁, h₁, h₂⟩ := m.run_cons.1 h
    obtain ⟨hI₁, hq₁⟩ := hstep hI h₁
    obtain ⟨hI', hq'⟩ := ih hI₁ h₂
    refine ⟨hI', ?_⟩
    rw [hq', hq₁, total, h₁, Option.elim_some, add_assoc]

end Machine

end Lib
