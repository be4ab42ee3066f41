import Barbershop.Lib.Table
import Mathlib.Logic.Function.Basic

/-!
# Reservations under exclusive locks

A book assigns reservations to entries. A transaction that wants to write a reservation takes the
lock of its kind, checks that the reservation clashes with no other entry, and writes it when it
commits; it holds its locks until it ends. Between its check and its commit other transactions
commit.

If two reservations that clash always share a lock, and no lock is held twice (`Exclusive`), what a
transaction found clear stays clear until it ends (`Protected`), and the book never has a clash
(`ClashFree`). `Protected.commit` is the heart: the transaction that commits and any other that has
checked hold the locks of their reservations, so these do not clash.
-/

namespace Lib

universe u v w x

/-- A transaction in flight, with the locks it holds. -/
structure Running (κ : Type u) (τ : Type v) where
  held : List κ
  body : τ

section Locks

variable {κ : Type u} {τ : Type v}

/-- Takes a lock. -/
def Running.lock (k : κ) (r : Running κ τ) : Running κ τ := { r with held := k :: r.held }

/-- No other transaction holds the lock. -/
def lockFree [DecidableEq κ] (t : Table (Running κ τ)) (i : ℕ) (k : κ) : Bool :=
  !t.any fun j r => j != i && r.held.contains k

/-- No lock is held by two transactions. -/
def Exclusive (t : Table (Running κ τ)) : Prop :=
  ∀ ⦃i j : ℕ⦄ ⦃r s : Running κ τ⦄ ⦃k : κ⦄, t.get? i = some r → t.get? j = some s → k ∈ r.held →
    k ∈ s.held → i = j

namespace Exclusive

variable {t : Table (Running κ τ)}

/-- A transaction begins without locks. -/
theorem insert (h : Exclusive t) {x : Running κ τ} (hx : x.held = []) : Exclusive (t.insert x) := by
  intro i j r s k hi hj hr hs
  rw [Table.get?_insert] at hi hj
  split at hi
  · obtain rfl := Option.some.inj hi
    simp [hx] at hr
  · split at hj
    · obtain rfl := Option.some.inj hj
      simp [hx] at hs
    · exact h hi hj hr hs

theorem erase (h : Exclusive t) (e : ℕ) : Exclusive (t.erase e) := by
  intro i j r s k hi hj hr hs
  rw [Table.get?_erase] at hi hj
  split at hi
  · cases hi
  · split at hj
    · cases hj
    · exact h hi hj hr hs

/-- A transaction that moves on with no more locks than it had, as one that starts again. -/
theorem modify (h : Exclusive t) (e : ℕ) {f : Running κ τ → Running κ τ}
    (hf : ∀ r, ∀ k ∈ (f r).held, k ∈ r.held) : Exclusive (t.modify e f) := by
  have hback : ∀ i r, (t.modify e f).get? i = some r →
      ∃ r₀, t.get? i = some r₀ ∧ ∀ k ∈ r.held, k ∈ r₀.held := by
    intro i r hi
    rw [Table.get?_modify] at hi
    split at hi
    · obtain ⟨r₀, h₀, rfl⟩ := Option.map_eq_some_iff.1 hi
      exact ⟨r₀, h₀, hf r₀⟩
    · exact ⟨r, hi, fun _ hk => hk⟩
  intro i j r s k hi hj hr hs
  obtain ⟨r₀, hi₀, hr₀⟩ := hback i r hi
  obtain ⟨s₀, hj₀, hs₀⟩ := hback j s hj
  exact h hi₀ hj₀ (hr₀ k hr) (hs₀ k hs)

/-- A lock that is free may be taken. -/
theorem lock [DecidableEq κ] (h : Exclusive t) {e : ℕ} {k₀ : κ} (hfree : lockFree t e k₀ = true)
    {f : Running κ τ → Running κ τ} (hf : ∀ r, ∀ k ∈ (f r).held, k = k₀ ∨ k ∈ r.held) :
    Exclusive (t.modify e f) := by
  have hother : ∀ i r, t.get? i = some r → k₀ ∈ r.held → i = e := by
    intro i r hi hk
    by_contra hne
    rw [lockFree, Bool.not_eq_true', Table.any_eq_false] at hfree
    simpa [hne, hk] using hfree i r hi
  have hback : ∀ i r, (t.modify e f).get? i = some r →
      ∃ r₀, t.get? i = some r₀ ∧ ∀ k ∈ r.held, (k = k₀ ∧ i = e) ∨ k ∈ r₀.held := by
    intro i r hi
    rw [Table.get?_modify] at hi
    split at hi
    · next e' =>
      obtain ⟨r₀, h₀, rfl⟩ := Option.map_eq_some_iff.1 hi
      exact ⟨r₀, h₀, fun k hk => (hf r₀ k hk).imp_left fun hk => ⟨hk, e'⟩⟩
    · exact ⟨r, hi, fun _ hk => .inr hk⟩
  intro i j r s k hi hj hr hs
  obtain ⟨r₀, hi₀, hr₀⟩ := hback i r hi
  obtain ⟨s₀, hj₀, hs₀⟩ := hback j s hj
  rcases hr₀ k hr with ⟨rfl, rfl⟩ | hr
  · rcases hs₀ k hs with ⟨-, rfl⟩ | hs
    · rfl
    · exact (hother j s₀ hj₀ hs).symm
  · rcases hs₀ k hs with ⟨rfl, rfl⟩ | hs
    · exact hother i r₀ hi₀ hr
    · exact h hi₀ hj₀ hr hs

end Exclusive

end Locks

section Book

variable {ι : Type u} {ρ : Type v} {clash : ρ → ρ → Prop} {book : ι → Option ρ}

/-- No two entries of the book clash. -/
def ClashFree (clash : ρ → ρ → Prop) (book : ι → Option ρ) : Prop :=
  ∀ ⦃i j : ι⦄ ⦃a b : ρ⦄, book i = some a → book j = some b → i ≠ j → ¬clash a b

/-- The reservation clashes with no entry but its own. -/
def Clear (clash : ρ → ρ → Prop) (book : ι → Option ρ) (own : Option ι) (r : ρ) : Prop :=
  ∀ ⦃j : ι⦄ ⦃a : ρ⦄, book j = some a → own ≠ some j → ¬clash r a

theorem Clear.own {r : ρ} (h : Clear clash book none r) (i : ι) : Clear clash book (some i) r :=
  fun _ _ hj _ => h hj (by simp)

variable [DecidableEq ι]

theorem Clear.write {own : Option ι} {r r' : ρ} (h : Clear clash book own r) (hr : ¬clash r r')
    (i : ι) : Clear clash (Function.update book i (some r')) own r := by
  intro j a hj hown
  rw [Function.update_apply] at hj
  split at hj
  · exact Option.some.inj hj ▸ hr
  · exact h hj hown

theorem Clear.cancel {own : Option ι} {r : ρ} (h : Clear clash book own r) (i : ι) :
    Clear clash (Function.update book i none) own r := by
  intro j a hj hown
  rw [Function.update_apply] at hj
  split at hj
  · cases hj
  · exact h hj hown

/-- A reservation that is clear may be written. -/
theorem ClashFree.write (hsymm : ∀ a b, clash a b → clash b a) (h : ClashFree clash book) {i : ι}
    {r : ρ} (hr : Clear clash book (some i) r) :
    ClashFree clash (Function.update book i (some r)) := by
  intro j k a b hj hk hne
  rw [Function.update_apply] at hj hk
  split at hj
  · next e =>
    subst e
    obtain rfl := Option.some.inj hj
    rw [if_neg (Ne.symm hne)] at hk
    exact hr hk (by simpa using hne)
  · next hji =>
    split at hk
    · next e =>
      subst e
      obtain rfl := Option.some.inj hk
      exact fun hc => hr hj (by simpa using Ne.symm hji) (hsymm _ _ hc)
    · exact h hj hk hne

theorem ClashFree.cancel (h : ClashFree clash book) (i : ι) :
    ClashFree clash (Function.update book i none) := by
  intro j k a b hj hk hne
  rw [Function.update_apply] at hj hk
  split at hj
  · cases hj
  · split at hk
    · cases hk
    · exact h hj hk hne

end Book

section Protocol

variable {ι : Type u} {ρ : Type v} {κ : Type w} {τ : Type x}
  {clash : ρ → ρ → Prop} {key : ρ → Option κ} {checked : τ → Option (Option ι × ρ)}
  {book : ι → Option ρ} {t : Table (Running κ τ)}

/-- A transaction that has checked its reservation (`checked` gives it with its own entry) holds the
lock of it, and the reservation is clear. -/
def Protected (clash : ρ → ρ → Prop) (key : ρ → Option κ) (checked : τ → Option (Option ι × ρ))
    (book : ι → Option ρ) (t : Table (Running κ τ)) : Prop :=
  ∀ ⦃i : ℕ⦄ ⦃x : Running κ τ⦄ ⦃own : Option ι⦄ ⦃r : ρ⦄, t.get? i = some x →
    checked x.body = some (own, r) → (∀ k ∈ key r, k ∈ x.held) ∧ Clear clash book own r

namespace Protected

theorem insert (h : Protected clash key checked book t) {x : Running κ τ}
    (hx : checked x.body = none) : Protected clash key checked book (t.insert x) := by
  intro i y own r hi hy
  rw [Table.get?_insert] at hi
  split at hi
  · obtain rfl := Option.some.inj hi
    rw [hx] at hy
    cases hy
  · exact h hi hy

theorem erase (h : Protected clash key checked book t) (e : ℕ) :
    Protected clash key checked book (t.erase e) := by
  intro i x own r hi hx
  rw [Table.get?_erase] at hi
  split at hi
  · cases hi
  · exact h hi hx

/-- A transaction moves on: what it has checked from then on is its own to show. -/
theorem modify (h : Protected clash key checked book t) (e : ℕ) {f : Running κ τ → Running κ τ}
    (hf : ∀ x, t.get? e = some x → ∀ own r, checked (f x).body = some (own, r) →
      (∀ k ∈ key r, k ∈ (f x).held) ∧ Clear clash book own r) :
    Protected clash key checked book (t.modify e f) := by
  intro i x own r hi hx
  rw [Table.get?_modify] at hi
  split at hi
  · next e' =>
    subst e'
    obtain ⟨x₀, h₀, rfl⟩ := Option.map_eq_some_iff.1 hi
    exact hf x₀ h₀ own r hx
  · exact h hi hx

variable [DecidableEq ι]

theorem cancel (h : Protected clash key checked book t) (e : ι) :
    Protected clash key checked (Function.update book e none) t :=
  fun _ _ _ _ hi hx => ⟨(h hi hx).1, (h hi hx).2.cancel e⟩

/-- The transaction that holds the lock of a reservation writes it and ends: what the others have
checked stays clear. -/
theorem commit (hlocks : Exclusive t)
    (hkeys : ∀ a b, clash a b → ∃ k, key a = some k ∧ key b = some k)
    (h : Protected clash key checked book t) {i : ℕ} {x : Running κ τ} {r : ρ}
    (hi : t.get? i = some x) (hheld : ∀ k ∈ key r, k ∈ x.held) (e : ι) :
    Protected clash key checked (Function.update book e (some r)) (t.erase i) := by
  intro j y own r' hj hy
  rw [Table.get?_erase] at hj
  split at hj
  · cases hj
  · next hne =>
    obtain ⟨hheld', hclear⟩ := h hj hy
    refine ⟨hheld', hclear.write (fun hc => ?_) e⟩
    obtain ⟨k, hk', hk⟩ := hkeys r' r hc
    exact hne (hlocks hj hi (hheld' k hk') (hheld k hk))

end Protected

end Protocol

end Lib
