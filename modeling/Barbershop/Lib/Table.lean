import Mathlib.Algebra.BigOperators.Group.List.Basic
import Mathlib.Algebra.BigOperators.Ring.List
import Mathlib.Algebra.Order.BigOperators.Group.List
import Mathlib.Data.Nat.Cast.Defs
import Mathlib.Data.List.Basic
import Mathlib.Tactic.Abel

/-!
# Tables with an autoincrement key

A `Table` is what a relational table with an autoincrement primary key gives a program: rows under
distinct keys, every key below the next one to be handed out, so that a key is never used twice.
Reads are `get?`, `find?` and `any`; writes are `insert`, `modify`, `modifyAll` and `erase`, and
`tryModify` is the conditional update that reports whether it hit its row.

The second half is the calculus of column sums: `sum` adds a weight over all rows, and each write
changes it by the weight of the one row it touches (`sum_insert`, `sum_modify`, `sum_erase`).
-/

namespace Lib

universe u v

/-- Rows numbered by an autoincrement key. -/
structure Table (α : Type u) where
  rows : List (ℕ × α)
  next : ℕ
  nodup : (rows.map Prod.fst).Nodup
  lt_next : ∀ p ∈ rows, p.1 < next

namespace Table

variable {α : Type u}

/-- The table without rows; the first key is 1. -/
def empty : Table α := ⟨[], 1, List.nodup_nil, by simp⟩

def get? (t : Table α) (k : ℕ) : Option α := t.rows.lookup k

/-- The first row, in key order, that satisfies `p`. -/
def find? (t : Table α) (p : ℕ → α → Bool) : Option (ℕ × α) := t.rows.find? fun r => p r.1 r.2

def any (t : Table α) (p : ℕ → α → Bool) : Bool := t.rows.any fun r => p r.1 r.2

/-- The rows that satisfy `p`, in key order. -/
def filter (t : Table α) (p : ℕ → α → Bool) : List (ℕ × α) := t.rows.filter fun r => p r.1 r.2

def insert (t : Table α) (a : α) : Table α where
  rows := t.rows ++ [(t.next, a)]
  next := t.next + 1
  nodup := by
    rw [List.map_append, List.map_cons, List.map_nil, List.nodup_append]
    refine ⟨t.nodup, by simp, fun k hk j hj => ?_⟩
    obtain ⟨p, hp, rfl⟩ := List.mem_map.1 hk
    obtain rfl : j = t.next := by simpa using hj
    exact Nat.ne_of_lt (t.lt_next p hp)
  lt_next := by
    intro p hp
    rcases List.mem_append.1 hp with hp | hp
    · exact Nat.lt_succ_of_lt (t.lt_next p hp)
    · obtain rfl : p = (t.next, a) := by simpa using hp
      exact Nat.lt_succ_self _

/-- Rewrites every row; keys stay. -/
def modifyAll (t : Table α) (f : ℕ → α → α) : Table α where
  rows := t.rows.map fun r => (r.1, f r.1 r.2)
  next := t.next
  nodup := by simpa [Function.comp_def] using t.nodup
  lt_next := by
    intro p hp
    obtain ⟨r, hr, rfl⟩ := List.mem_map.1 hp
    exact t.lt_next r hr

/-- Rewrites the row under `k`, if there is one. -/
def modify (t : Table α) (k : ℕ) (f : α → α) : Table α :=
  t.modifyAll fun j a => if j = k then f a else a

def erase (t : Table α) (k : ℕ) : Table α where
  rows := t.rows.filter fun r => r.1 != k
  next := t.next
  nodup := t.nodup.sublist (List.filter_sublist.map _)
  lt_next := fun p hp => t.lt_next p (List.mem_filter.1 hp).1

/-- Deletes the rows that satisfy `p`. -/
def eraseAll (t : Table α) (p : ℕ → α → Bool) : Table α where
  rows := t.rows.filter fun r => !p r.1 r.2
  next := t.next
  nodup := t.nodup.sublist (List.filter_sublist.map _)
  lt_next := fun r hr => t.lt_next r (List.mem_filter.1 hr).1

/-- A conditional update of one row: `none` when no row under `k` satisfies `p`. -/
def tryModify (t : Table α) (k : ℕ) (p : α → Bool) (f : α → α) : Option (Table α) :=
  if (t.get? k).any p then some (t.modify k f) else none

/-- Rewrites the first row that satisfies `p`, found and then updated under its key. -/
def updateFirst (t : Table α) (p : α → Bool) (f : α → α) : Table α :=
  match t.find? fun _ a => p a with
  | none => t
  | some (k, _) => t.modify k f

/-! ## Reads after writes -/

theorem mem_iff {t : Table α} {k : ℕ} {a : α} : (k, a) ∈ t.rows ↔ t.get? k = some a := by
  unfold get?
  have nodup := t.nodup
  generalize t.rows = rows at nodup ⊢
  induction rows with
  | nil => simp
  | cons r rows ih =>
    obtain ⟨j, b⟩ := r
    simp only [List.map_cons, List.nodup_cons] at nodup
    by_cases h : k = j
    · subst h
      have hk : (k, a) ∉ rows := fun hm => nodup.1 (List.mem_map_of_mem (f := Prod.fst) hm)
      simp [hk, eq_comm]
    · have hb : (k == j) = false := by simpa using h
      simp [h, List.lookup_cons, hb, ih nodup.2]

theorem lt_next_of_get? {t : Table α} {k : ℕ} {a : α} (h : t.get? k = some a) : k < t.next :=
  t.lt_next _ (mem_iff.2 h)

@[simp] theorem get?_empty (k : ℕ) : (empty : Table α).get? k = none := rfl

@[simp] theorem get?_next (t : Table α) : t.get? t.next = none := by
  cases h : t.get? t.next with
  | none => rfl
  | some a => exact absurd (lt_next_of_get? h) (Nat.lt_irrefl _)

@[simp] theorem next_insert (t : Table α) (a : α) : (t.insert a).next = t.next + 1 := rfl

@[simp] theorem next_modifyAll (t : Table α) (f : ℕ → α → α) : (t.modifyAll f).next = t.next := rfl

@[simp] theorem next_modify (t : Table α) (k : ℕ) (f : α → α) : (t.modify k f).next = t.next := rfl

@[simp] theorem next_erase (t : Table α) (k : ℕ) : (t.erase k).next = t.next := rfl

theorem get?_insert (t : Table α) (a : α) (k : ℕ) :
    (t.insert a).get? k = if k = t.next then some a else t.get? k := by
  split
  · next h =>
    subst h
    exact mem_iff.1 (by simp [insert])
  · next h =>
    ext b
    rw [← mem_iff, ← mem_iff]
    simp [insert, h]

@[simp] theorem get?_insert_self (t : Table α) (a : α) : (t.insert a).get? t.next = some a := by
  simp [get?_insert]

theorem get?_insert_of_some {t : Table α} {k : ℕ} {b : α} (a : α) (h : t.get? k = some b) :
    (t.insert a).get? k = some b := by
  rw [get?_insert, if_neg (Nat.ne_of_lt (lt_next_of_get? h)), h]

/-- A row of the table after an insertion is the new one or an old one. -/
theorem get?_insert_cases {t : Table α} {a b : α} {k : ℕ} (h : (t.insert a).get? k = some b) :
    k = t.next ∧ b = a ∨ t.get? k = some b := by
  rw [get?_insert] at h
  split at h
  · next hk => exact .inl ⟨hk, (Option.some.inj h).symm⟩
  · exact .inr h

@[simp] theorem get?_modifyAll (t : Table α) (f : ℕ → α → α) (k : ℕ) :
    (t.modifyAll f).get? k = (t.get? k).map (f k) := by
  ext b
  rw [← mem_iff, Option.map_eq_some_iff]
  simp only [modifyAll, List.mem_map, Prod.mk.injEq, Prod.exists]
  constructor
  · rintro ⟨j, a, hm, rfl, rfl⟩
    exact ⟨a, mem_iff.1 hm, rfl⟩
  · rintro ⟨a, ha, rfl⟩
    exact ⟨k, a, mem_iff.2 ha, rfl, rfl⟩

theorem get?_modify (t : Table α) (k : ℕ) (f : α → α) (j : ℕ) :
    (t.modify k f).get? j = if j = k then (t.get? j).map f else t.get? j := by
  rw [modify, get?_modifyAll]
  split
  · rfl
  · simp

theorem modifyAll_congr {t : Table α} {f g : ℕ → α → α}
    (h : ∀ k a, t.get? k = some a → f k a = g k a) : t.modifyAll f = t.modifyAll g := by
  have hrows : (t.modifyAll f).rows = (t.modifyAll g).rows :=
    List.map_congr_left fun r hr => by rw [h r.1 r.2 (mem_iff.1 hr)]
  cases t
  simpa only [modifyAll, mk.injEq, and_true] using hrows

theorem modify_of_none {t : Table α} {k : ℕ} (h : t.get? k = none) (f : α → α) :
    t.modify k f = t := by
  have hrows : (t.modify k f).rows = t.rows := by
    refine (List.map_congr_left fun r hr => ?_).trans (List.map_id _)
    have hne : r.1 ≠ k := by
      rintro rfl
      rw [mem_iff.1 hr] at h
      cases h
    simp [hne]
  cases t
  simpa only [modify, modifyAll, mk.injEq, and_true] using hrows

@[simp] theorem get?_modify_self (t : Table α) (k : ℕ) (f : α → α) :
    (t.modify k f).get? k = (t.get? k).map f := by
  simp [get?_modify]

theorem modify_id (t : Table α) (k : ℕ) : (t.modify k fun a => a) = t := by
  simp [modify, modifyAll]

theorem get?_modify_of_ne (t : Table α) {k j : ℕ} (f : α → α) (h : j ≠ k) :
    (t.modify k f).get? j = t.get? j := by
  simp [get?_modify, h]

theorem get?_erase (t : Table α) (k j : ℕ) :
    (t.erase k).get? j = if j = k then none else t.get? j := by
  ext b
  rw [← mem_iff]
  split
  · next h => simp [erase, h]
  · next h => simp [erase, h, mem_iff]

/-- A row that is left after a deletion. -/
theorem get?_erase_some {t : Table α} {k j : ℕ} {a : α} (h : (t.erase k).get? j = some a) :
    j ≠ k ∧ t.get? j = some a := by
  rw [get?_erase] at h
  split at h
  · cases h
  · next hj => exact ⟨hj, h⟩

theorem get?_eraseAll {t : Table α} {p : ℕ → α → Bool} {k : ℕ} {a : α} :
    (t.eraseAll p).get? k = some a ↔ t.get? k = some a ∧ p k a = false := by
  simp only [← mem_iff, eraseAll, List.mem_filter, Bool.not_eq_true']

theorem tryModify_eq_some {t t' : Table α} {k : ℕ} {p : α → Bool} {f : α → α} :
    t.tryModify k p f = some t' ↔ ∃ a, t.get? k = some a ∧ p a = true ∧ t' = t.modify k f := by
  unfold tryModify
  cases h : t.get? k with
  | none => simp
  | some a =>
    by_cases hp : p a = true
    · simp only [Option.any_some, hp, if_true, Option.some.injEq, exists_eq_left', true_and]
      exact eq_comm
    · simp [hp]

theorem tryModify_eq_none {t : Table α} {k : ℕ} {p : α → Bool} {f : α → α} :
    t.tryModify k p f = none ↔ ∀ a, t.get? k = some a → p a = false := by
  unfold tryModify
  cases h : t.get? k with
  | none => simp
  | some a => by_cases hp : p a = true <;> simp [hp]

theorem find?_some {t : Table α} {p : ℕ → α → Bool} {k : ℕ} {a : α}
    (h : t.find? p = some (k, a)) : t.get? k = some a ∧ p k a = true :=
  ⟨mem_iff.1 (List.mem_of_find?_eq_some h),
    List.find?_some (p := fun r : ℕ × α => p r.1 r.2) h⟩

theorem find?_none {t : Table α} {p : ℕ → α → Bool} :
    t.find? p = none ↔ ∀ k a, t.get? k = some a → p k a = false := by
  simp only [find?, List.find?_eq_none, Bool.not_eq_true, Prod.forall, mem_iff]

theorem find?_insert (t : Table α) (a : α) (p : ℕ → α → Bool) : (t.insert a).find? p =
    (t.find? p).or (if p t.next a = true then some (t.next, a) else none) := by
  simp only [find?, insert, List.find?_append, List.find?_singleton]

/-- An update that keeps what rows are looked for by. -/
theorem find?_modifyAll (t : Table α) {f : ℕ → α → α} {p : ℕ → α → Bool}
    (h : ∀ k a, p k (f k a) = p k a) :
    (t.modifyAll f).find? p = (t.find? p).map fun r => (r.1, f r.1 r.2) := by
  simp only [find?, modifyAll, List.find?_map, Function.comp_def, h]

theorem any_eq_true {t : Table α} {p : ℕ → α → Bool} :
    t.any p = true ↔ ∃ k a, t.get? k = some a ∧ p k a = true := by
  simp only [any, List.any_eq_true, Prod.exists, mem_iff]

theorem any_eq_false {t : Table α} {p : ℕ → α → Bool} :
    t.any p = false ↔ ∀ k a, t.get? k = some a → p k a = false := by
  simp only [any, List.any_eq_false, Bool.not_eq_true, Prod.forall, mem_iff]

theorem mem_filter {t : Table α} {p : ℕ → α → Bool} {k : ℕ} {a : α} :
    (k, a) ∈ t.filter p ↔ t.get? k = some a ∧ p k a = true := by
  simp only [filter, List.mem_filter, mem_iff]

theorem nodup_filter (t : Table α) (p : ℕ → α → Bool) : ((t.filter p).map Prod.fst).Nodup :=
  t.nodup.sublist (List.filter_sublist.map _)

theorem filter_insert_of_not {t : Table α} {a : α} {p : ℕ → α → Bool} (h : p t.next a = false) :
    (t.insert a).filter p = t.filter p := by
  simp [filter, insert, h]

theorem filter_modify_of_not {t : Table α} {k : ℕ} {f : α → α} {p : ℕ → α → Bool}
    (h : ∀ a, t.get? k = some a → p k a = false ∧ p k (f a) = false) :
    (t.modify k f).filter p = t.filter p := by
  have hrows : ∀ r ∈ t.rows, p r.1 (if r.1 = k then f r.2 else r.2) = p r.1 r.2 ∧
      (p r.1 r.2 = true → r.1 ≠ k) := by
    intro r hr
    by_cases hk : r.1 = k
    · obtain ⟨hold, hnew⟩ := h r.2 (hk ▸ mem_iff.1 hr)
      rw [if_pos hk, hk, hold, hnew]
      exact ⟨rfl, fun hp => by cases hp⟩
    · rw [if_neg hk]
      exact ⟨rfl, fun _ => hk⟩
  simp only [filter, modify, modifyAll]
  generalize t.rows = rows at hrows ⊢
  induction rows with
  | nil => rfl
  | cons r rows ih =>
    obtain ⟨hsame, hne⟩ := hrows r List.mem_cons_self
    have hrest := ih fun r' hr' => hrows r' (List.mem_cons_of_mem _ hr')
    simp only [List.map_cons, List.filter_cons, hsame, hrest]
    split
    · next hp => rw [if_neg (hne hp)]
    · rfl

theorem filter_eraseAll_of_not {t : Table α} {p q : ℕ → α → Bool}
    (h : ∀ k a, t.get? k = some a → p k a = true → q k a = false) :
    (t.eraseAll q).filter p = t.filter p := by
  unfold filter eraseAll
  rw [List.filter_filter]
  refine List.filter_congr fun r hr => ?_
  have hq := h r.1 r.2 (mem_iff.1 hr)
  cases hp : p r.1 r.2 with
  | false => rfl
  | true => simp [hq hp]

/-! ## One column of one row -/

section Value

variable {M : Type v} [Zero M]

/-- The column `g` of the row under `k`; 0 if there is no such row. -/
def value (t : Table α) (g : α → M) (k : ℕ) : M := (t.get? k).elim 0 g

theorem value_of_get? {t : Table α} {k : ℕ} {a : α} (g : α → M) (h : t.get? k = some a) :
    t.value g k = g a := by
  rw [value, h, Option.elim_some]

theorem value_of_none {t : Table α} {k : ℕ} (g : α → M) (h : t.get? k = none) :
    t.value g k = 0 := by
  rw [value, h, Option.elim_none]

theorem value_insert (t : Table α) (a : α) (g : α → M) (k : ℕ) :
    (t.insert a).value g k = if k = t.next then g a else t.value g k := by
  unfold value
  rw [get?_insert]
  split <;> rfl

theorem value_modify_self {t : Table α} {k : ℕ} {a : α} (f : α → α) (g : α → M)
    (h : t.get? k = some a) : (t.modify k f).value g k = g (f a) :=
  value_of_get? g (by rw [get?_modify_self, h, Option.map_some])

theorem value_modify_of_ne (t : Table α) {k j : ℕ} (f : α → α) (g : α → M) (h : k ≠ j) :
    (t.modify j f).value g k = t.value g k := by
  rw [value, get?_modify_of_ne t f h, value]

/-- A rewrite of the table that leaves the column alone. -/
theorem value_modifyAll_eq (t : Table α) (f : ℕ → α → α) (g : α → M)
    (h : ∀ k a, g (f k a) = g a) (k : ℕ) : (t.modifyAll f).value g k = t.value g k := by
  unfold value
  rw [get?_modifyAll]
  cases t.get? k with
  | none => rfl
  | some a => exact h k a

theorem value_modify_eq (t : Table α) (j : ℕ) (f : α → α) (g : α → M) (h : ∀ a, g (f a) = g a)
    (k : ℕ) : (t.modify j f).value g k = t.value g k := by
  refine value_modifyAll_eq t _ g (fun k a => ?_) k
  split
  · exact h a
  · rfl

end Value

/-! ## Column sums -/

section Sum

variable {M : Type v} [AddCommMonoid M]

/-- The sum of the weight `g` over all rows. -/
def sum (t : Table α) (g : ℕ → α → M) : M := (t.rows.map fun r => g r.1 r.2).sum

@[simp] theorem sum_empty (g : ℕ → α → M) : (empty : Table α).sum g = 0 := rfl

@[simp] theorem sum_insert (t : Table α) (a : α) (g : ℕ → α → M) :
    (t.insert a).sum g = t.sum g + g t.next a := by
  simp [sum, insert]

theorem sum_congr {t : Table α} {g g' : ℕ → α → M}
    (h : ∀ k a, t.get? k = some a → g k a = g' k a) : t.sum g = t.sum g' := by
  unfold sum
  congr 1
  exact List.map_congr_left fun r hr => h r.1 r.2 (mem_iff.1 hr)

theorem sum_modifyAll (t : Table α) (f : ℕ → α → α) (g : ℕ → α → M) :
    (t.modifyAll f).sum g = t.sum fun k a => g k (f k a) := by
  simp [sum, modifyAll, Function.comp_def]

theorem sum_eq_zero {t : Table α} {g : ℕ → α → M} (h : ∀ k a, t.get? k = some a → g k a = 0) :
    t.sum g = 0 := by
  rw [sum_congr h]
  simp [sum]

/-- Splits one row off a sum. -/
theorem sum_eq_add_erase {t : Table α} {k : ℕ} {a : α} (g : ℕ → α → M) (h : t.get? k = some a) :
    t.sum g = g k a + (t.erase k).sum g := by
  have hm := mem_iff.2 h
  have nodup := t.nodup
  simp only [sum, erase]
  clear h
  generalize t.rows = rows at hm nodup ⊢
  induction rows with
  | nil => simp at hm
  | cons r rows ih =>
    obtain ⟨j, b⟩ := r
    simp only [List.map_cons, List.nodup_cons] at nodup
    by_cases hj : j = k
    · subst hj
      have hb : (j, a) ∉ rows := fun hr => nodup.1 (List.mem_map_of_mem (f := Prod.fst) hr)
      obtain rfl : a = b := by simpa [hb] using hm
      have hf : rows.filter (fun r => r.1 != j) = rows := by
        rw [List.filter_eq_self]
        intro r hr
        have hne : r.1 ≠ j := fun e => nodup.1 (e ▸ List.mem_map_of_mem (f := Prod.fst) hr)
        simpa using hne
      simp [hf]
    · have hmr : (k, a) ∈ rows := by simpa [Ne.symm hj] using hm
      have hk : (j != k) = true := by simpa using hj
      simp only [List.map_cons, List.sum_cons, List.filter_cons, hk, if_true]
      rw [ih hmr nodup.2]
      exact add_left_comm ..

theorem sum_erase {t : Table α} {k : ℕ} {a : α} (g : ℕ → α → M) (h : t.get? k = some a) :
    (t.erase k).sum g + g k a = t.sum g := by
  rw [sum_eq_add_erase g h, add_comm]

theorem sum_eraseAll (t : Table α) (p : ℕ → α → Bool) (g : ℕ → α → M) :
    (t.eraseAll p).sum g = t.sum fun k a => if p k a then 0 else g k a := by
  simp only [sum, eraseAll]
  induction t.rows with
  | nil => rfl
  | cons r rows ih =>
    rw [List.filter_cons]
    cases h : p r.1 r.2 with
    | false => simp [h, ih]
    | true => simp [h, ih]

theorem erase_modify (t : Table α) (k : ℕ) (f : α → α) (g : ℕ → α → M) :
    ((t.modify k f).erase k).sum g = (t.erase k).sum g := by
  simp only [sum, erase, modify, modifyAll, List.filter_map, List.map_map]
  congr 1
  refine List.map_congr_left fun r hr => ?_
  have hne : r.1 ≠ k := by simpa using (List.mem_filter.1 hr).2
  simp [hne]

theorem sum_add (t : Table α) (g g' : ℕ → α → M) :
    t.sum (fun k a => g k a + g' k a) = t.sum g + t.sum g' := by
  unfold sum
  induction t.rows with
  | nil => simp
  | cons r rows ih =>
    simp only [List.map_cons, List.sum_cons, ih]
    exact add_add_add_comm ..

/-- An update of one row trades its old weight for the new one. -/
theorem sum_modify {t : Table α} {k : ℕ} {a : α} (f : α → α) (g : ℕ → α → M)
    (h : t.get? k = some a) : (t.modify k f).sum g + g k a = t.sum g + g k (f a) := by
  have h' : (t.modify k f).get? k = some (f a) := by simp [h]
  rw [sum_eq_add_erase g h', sum_eq_add_erase g h, erase_modify]
  rw [add_right_comm, add_comm (g k (f a)), add_comm (g k a)]
  ac_rfl

/-- An update that leaves the weight of its row alone leaves the sum alone. -/
theorem sum_modify_eq {t : Table α} {k : ℕ} (f : α → α) (g : ℕ → α → M)
    (h : ∀ a, t.get? k = some a → g k (f a) = g k a) : (t.modify k f).sum g = t.sum g := by
  rw [modify, sum_modifyAll]
  refine sum_congr fun j a hj => ?_
  split
  · next e => subst e; exact h a hj
  · rfl

end Sum

theorem sum_sub {M : Type v} [AddCommGroup M] (t : Table α) (g g' : ℕ → α → M) :
    t.sum (fun k a => g k a - g' k a) = t.sum g - t.sum g' := by
  unfold sum
  induction t.rows with
  | nil => simp
  | cons r rows ih => simp only [List.map_cons, List.sum_cons, ih]; abel

theorem sum_nonneg {M : Type v} [AddCommMonoid M] [Preorder M] [AddLeftMono M] {t : Table α}
    {g : ℕ → α → M} (h : ∀ k a, t.get? k = some a → 0 ≤ g k a) : 0 ≤ t.sum g := by
  refine List.sum_nonneg fun v hv => ?_
  obtain ⟨r, hr, rfl⟩ := List.mem_map.1 hv
  exact h r.1 r.2 (mem_iff.1 hr)

theorem sum_le_sum {M : Type v} [AddCommMonoid M] [Preorder M] [AddLeftMono M] [AddRightMono M]
    {t : Table α} {g g' : ℕ → α → M} (h : ∀ k a, t.get? k = some a → g k a ≤ g' k a) :
    t.sum g ≤ t.sum g' :=
  List.sum_le_sum fun r hr => h r.1 r.2 (mem_iff.1 hr)

theorem sum_mul_left {M : Type v} [NonUnitalNonAssocSemiring M] (t : Table α) (g : ℕ → α → M)
    (c : M) : (t.sum fun k a => c * g k a) = c * t.sum g :=
  List.sum_map_mul_left ..

/-- A sum of which only the row under `k` counts. -/
theorem sum_single {M : Type v} [AddCommMonoid M] (t : Table α) (k : ℕ) (g : ℕ → α → M) :
    (t.sum fun j b => if j = k then g j b else 0) = (t.get? k).elim 0 (g k) := by
  cases h : t.get? k with
  | none =>
    refine sum_eq_zero fun j b hj => if_neg fun heq => ?_
    rw [← heq, hj] at h
    cases h
  | some a =>
    rw [sum_eq_add_erase _ h, if_pos rfl, sum_eq_zero, add_zero, Option.elim_some]
    intro j b hj
    rw [get?_erase] at hj
    split at hj
    · cases hj
    · next hne => exact if_neg hne

/-- A sum of which only the rows under listed keys count is the sum over the list. -/
theorem sum_keys {M : Type v} [AddCommMonoid M] (t : Table α) (g : ℕ → α → M) {keys : List ℕ}
    (hnodup : keys.Nodup) : (t.sum fun k a => if k ∈ keys then g k a else 0) =
      (keys.map fun k => (t.get? k).elim 0 (g k)).sum := by
  induction keys with
  | nil => exact sum_eq_zero fun _ _ _ => by simp
  | cons j keys ih =>
    rw [List.nodup_cons] at hnodup
    rw [List.map_cons, List.sum_cons, ← ih hnodup.2, ← sum_single, ← sum_add]
    refine sum_congr fun k a _ => ?_
    by_cases hk : k = j
    · subst hk
      rw [if_pos List.mem_cons_self, if_pos rfl, if_neg hnodup.1, add_zero]
    · have hmem : k ∈ j :: keys ↔ k ∈ keys := by simp [hk]
      rw [if_neg hk, zero_add, if_congr hmem rfl rfl]

/-- The same, over rows of the table. -/
theorem sum_listed {M : Type v} [AddCommMonoid M] {t : Table α} (g : ℕ → α → M)
    {rows : List (ℕ × α)} (hnodup : (rows.map Prod.fst).Nodup)
    (hrows : ∀ r ∈ rows, t.get? r.1 = some r.2) :
    (t.sum fun k a => if k ∈ rows.map Prod.fst then g k a else 0) =
      (rows.map fun r => g r.1 r.2).sum := by
  rw [sum_keys t g hnodup, List.map_map]
  refine congrArg List.sum (List.map_congr_left fun r hr => ?_)
  rw [Function.comp_apply, hrows r hr, Option.elim_some]

theorem sum_filter {M : Type v} [AddCommMonoid M] (t : Table α) (p : ℕ → α → Bool) (g : ℕ → α → M) :
    ((t.filter p).map fun r => g r.1 r.2).sum = t.sum fun k a => if p k a then g k a else 0 := by
  unfold filter sum
  induction t.rows with
  | nil => rfl
  | cons r rows ih =>
    rw [List.filter_cons]
    split
    · next h => simp only [List.map_cons, List.sum_cons, ih, h, if_true]
    · next h => simp only [List.map_cons, List.sum_cons, ih, h, if_false, zero_add, Bool.false_eq_true]

/-- A sum over the rows of sums over a list, the other way round. -/
theorem sum_list_comm {β : Type*} {M : Type v} [AddCommMonoid M] (t : Table α) (l : List β)
    (g : ℕ → α → β → M) :
    (t.sum fun k a => (l.map (g k a)).sum) = (l.map fun b => t.sum fun k a => g k a b).sum := by
  induction l with
  | nil => exact sum_eq_zero fun _ _ _ => rfl
  | cons b l ih =>
    simp only [List.map_cons, List.sum_cons]
    rw [sum_add, ih]

/-- A condition that one row meets at most. -/
theorem sum_unique {M : Type v} [AddCommMonoid M] {t : Table α} {p : ℕ → α → Bool} (v : M)
    (h : ∀ {j k a b}, t.get? j = some a → t.get? k = some b → p j a = true → p k b = true → j = k) :
    (t.sum fun k a => if p k a then v else 0) = if t.any p then v else 0 := by
  by_cases hany : t.any p = true
  · obtain ⟨k, a, hk, hp⟩ := any_eq_true.1 hany
    rw [if_pos hany, sum_eq_add_erase _ hk, if_pos hp, sum_eq_zero, add_zero]
    intro j b hj
    rw [get?_erase] at hj
    split at hj
    · cases hj
    · next hne => exact if_neg fun hpj => hne (h hj hk hpj hp)
  · rw [if_neg hany]
    rw [Bool.not_eq_true] at hany
    refine sum_eq_zero fun k a hk => if_neg ?_
    simp [any_eq_false.1 hany k a hk]

/-- How many rows satisfy `p`, as a sum. -/
theorem length_filter {M : Type v} [AddCommMonoidWithOne M] (t : Table α) (p : ℕ → α → Bool) :
    ((t.filter p).length : M) = t.sum fun k a => if p k a then 1 else 0 := by
  unfold filter sum
  induction t.rows with
  | nil => simp
  | cons r rows ih =>
    rw [List.filter_cons]
    split
    · next h => simp [ih, h, add_comm]
    · next h => simp [ih, h]

/-- A property of the weights that addition keeps is one of the sum. -/
theorem sum_induction {M : Type v} [AddCommMonoid M] {t : Table α} {g : ℕ → α → M} (p : M → Prop)
    (zero : p 0) (add : ∀ a b, p a → p b → p (a + b))
    (h : ∀ k a, t.get? k = some a → p (g k a)) : p (t.sum g) := by
  refine List.sum_induction p add zero fun v hv => ?_
  obtain ⟨r, hr, rfl⟩ := List.mem_map.1 hv
  exact h r.1 r.2 (mem_iff.1 hr)

/-! ## Rows over time -/

/-- Between an earlier and a later state of a table: keys are handed out upwards, and a row under a
key handed out before is an earlier row changed as `E` says. -/
structure Evolves (E : α → α → Prop) (t t' : Table α) : Prop where
  next_le : t.next ≤ t'.next
  row : ∀ k a', t'.get? k = some a' → k < t.next → ∃ a, t.get? k = some a ∧ E a a'

namespace Evolves

variable {E : α → α → Prop} {t t' t'' : Table α}

theorem refl (hE : ∀ a, E a a) (t : Table α) : Evolves E t t :=
  ⟨le_rfl, fun _ a h _ => ⟨a, h, hE a⟩⟩

theorem trans (hE : ∀ {a b c}, E a b → E b c → E a c) (h : Evolves E t t')
    (h' : Evolves E t' t'') : Evolves E t t'' where
  next_le := h.next_le.trans h'.next_le
  row k c hc hk := by
    obtain ⟨b, hb, hbc⟩ := h'.row k c hc (hk.trans_le h.next_le)
    obtain ⟨a, ha, hab⟩ := h.row k b hb hk
    exact ⟨a, ha, hE hab hbc⟩

theorem insert (h : Evolves E t t') (a : α) : Evolves E t (t'.insert a) where
  next_le := h.next_le.trans (Nat.le_succ _)
  row k b hb hk := by
    rw [get?_insert, if_neg (Nat.ne_of_lt (hk.trans_le h.next_le))] at hb
    exact h.row k b hb hk

theorem erase (h : Evolves E t t') (j : ℕ) : Evolves E t (t'.erase j) where
  next_le := h.next_le
  row k b hb hk := by
    rw [get?_erase] at hb
    split at hb
    · cases hb
    · exact h.row k b hb hk

theorem modifyAll (hE : ∀ {a b c}, E a b → E b c → E a c) (h : Evolves E t t') {f : ℕ → α → α}
    (hf : ∀ k a, t'.get? k = some a → E a (f k a)) : Evolves E t (t'.modifyAll f) where
  next_le := h.next_le
  row k b hb hk := by
    rw [get?_modifyAll] at hb
    obtain ⟨c, hc, rfl⟩ := Option.map_eq_some_iff.1 hb
    obtain ⟨a, ha, hac⟩ := h.row k c hc hk
    exact ⟨a, ha, hE hac (hf k c hc)⟩

theorem modify (hE : ∀ {a b c}, E a b → E b c → E a c) (h : Evolves E t t') {j : ℕ} {f : α → α}
    (hf : ∀ a, t'.get? j = some a → E a (f a)) : Evolves E t (t'.modify j f) where
  next_le := h.next_le
  row k b hb hk := by
    rw [get?_modify] at hb
    split at hb
    · next hkj =>
      obtain ⟨c, hc, rfl⟩ := Option.map_eq_some_iff.1 hb
      obtain ⟨a, ha, hac⟩ := h.row k c hc hk
      exact ⟨a, ha, hE hac (hf c (hkj ▸ hc))⟩
    · exact h.row k b hb hk

end Evolves

/-- Every row of the earlier table is still there, changed as `E` says. -/
def Lasts (E : α → α → Prop) (t t' : Table α) : Prop :=
  ∀ ⦃k a⦄, t.get? k = some a → ∃ b, t'.get? k = some b ∧ E a b

namespace Lasts

variable {E : α → α → Prop} {t t' t'' : Table α}

theorem refl (hE : ∀ a, E a a) (t : Table α) : Lasts E t t := fun _ a h => ⟨a, h, hE a⟩

theorem trans (hE : ∀ {a b c}, E a b → E b c → E a c) (h : Lasts E t t') (h' : Lasts E t' t'') :
    Lasts E t t'' := by
  intro k a ha
  obtain ⟨b, hb, hab⟩ := h ha
  obtain ⟨c, hc, hbc⟩ := h' hb
  exact ⟨c, hc, hE hab hbc⟩

theorem insert (hE : ∀ a, E a a) (t : Table α) (a : α) : Lasts E t (t.insert a) :=
  fun _ b h => ⟨b, get?_insert_of_some a h, hE b⟩

theorem modifyAll {f : ℕ → α → α} (hf : ∀ k a, t.get? k = some a → E a (f k a)) :
    Lasts E t (t.modifyAll f) := by
  intro k a ha
  exact ⟨f k a, by rw [get?_modifyAll, ha, Option.map_some], hf k a ha⟩

theorem modify (hE : ∀ a, E a a) {j : ℕ} {f : α → α} (hf : ∀ a, t.get? j = some a → E a (f a)) :
    Lasts E t (t.modify j f) := by
  refine modifyAll fun k a ha => ?_
  split
  · next h => exact hf a (h ▸ ha)
  · exact hE a

end Lasts

/-- The row under `k` satisfies `p` and `R`, and no other row satisfies `p`. -/
structure Only (t : Table α) (k : ℕ) (p : α → Bool) (R : α → Prop) : Prop where
  row : ∃ a, t.get? k = some a ∧ p a = true ∧ R a
  only : ∀ ⦃j b⦄, t.get? j = some b → p b = true → j = k

namespace Only

variable {t : Table α} {k : ℕ} {p : α → Bool} {R : α → Prop}

theorem single {a : α} (hp : p a = true) (hR : R a) : (empty.insert a).Only 1 p R where
  row := ⟨a, rfl, hp, hR⟩
  only j b hb _ := by
    rcases get?_insert_cases hb with ⟨rfl, -⟩ | hb
    · rfl
    · simp at hb

theorem updateFirst_eq (h : t.Only k p R) (f : α → α) : t.updateFirst p f = t.modify k f := by
  obtain ⟨a, ha, hp, -⟩ := h.row
  unfold updateFirst
  cases hf : t.find? fun _ a => p a with
  | none => exact absurd (find?_none.1 hf k a ha) (by simp [hp])
  | some r =>
    obtain ⟨j, b⟩ := r
    obtain ⟨hj, hpb⟩ := find?_some hf
    obtain rfl := h.only hj hpb
    rfl

theorem modifyAll (h : t.Only k p R) {f : ℕ → α → α} (hp : ∀ j a, p (f j a) = p a)
    (hR : ∀ a, p a = true → R a → R (f k a)) : (t.modifyAll f).Only k p R where
  row := by
    obtain ⟨a, ha, hpa, hRa⟩ := h.row
    exact ⟨f k a, by rw [get?_modifyAll, ha, Option.map_some], (hp k a).trans hpa, hR a hpa hRa⟩
  only j b hb hpb := by
    rw [get?_modifyAll] at hb
    obtain ⟨a, ha, rfl⟩ := Option.map_eq_some_iff.1 hb
    exact h.only ha ((hp j a).symm.trans hpb)

theorem modify (h : t.Only k p R) {j : ℕ} {f : α → α} (hp : ∀ a, p (f a) = p a)
    (hR : ∀ a, p a = true → R a → R (f a)) : (t.modify j f).Only k p R := by
  refine h.modifyAll (fun i a => ?_) fun a hpa hRa => ?_
  · split
    · exact hp a
    · rfl
  · split
    · exact hR a hpa hRa
    · exact hRa

/-- An update of the first row with some other key is one of some row. -/
theorem updateFirst (h : t.Only k p R) {q : α → Bool} {f : α → α} (hp : ∀ a, p (f a) = p a)
    (hR : ∀ a, p a = true → R a → R (f a)) : (t.updateFirst q f).Only k p R := by
  unfold Table.updateFirst
  split
  · exact h
  · exact h.modify hp hR

/-- A column of the row that such updates do not lower. -/
theorem value_le_updateFirst {M : Type v} [Zero M] [Preorder M] {g : α → M} (h : t.Only k p R)
    {q : α → Bool} {f : α → α} (hg : ∀ a, p a = true → R a → g a ≤ g (f a)) :
    t.value g k ≤ (t.updateFirst q f).value g k := by
  obtain ⟨a, ha, hp, hR⟩ := h.row
  unfold Table.updateFirst
  cases t.find? fun _ a => q a with
  | none => exact le_rfl
  | some r =>
    by_cases hj : k = r.1
    · subst hj
      rw [value_modify_self f g ha, value_of_get? g ha]
      exact hg a hp hR
    · exact (value_modify_of_ne t f g hj).ge

theorem value_le_modifyAll {M : Type v} [Zero M] [Preorder M] {g : α → M} (h : t.Only k p R)
    {f : ℕ → α → α} (hg : ∀ a, p a = true → R a → g a ≤ g (f k a)) :
    t.value g k ≤ (t.modifyAll f).value g k := by
  obtain ⟨a, ha, hp, hR⟩ := h.row
  have hk : (t.modifyAll f).get? k = some (f k a) := by
    rw [get?_modifyAll, ha, Option.map_some]
  rw [value_of_get? g ha, value_of_get? g hk]
  exact hg a hp hR

end Only

end Table

end Lib
