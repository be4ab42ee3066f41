import Mathlib.Logic.Function.Iterate
import Mathlib.Logic.Relation
import Mathlib.Tactic.Set

/-!
# Union-find by shared keys

A table of parents with path compression and no ranks: `find` follows the parents to a root and
points what it passed at that root, `union` points one root at another. `Settles p m` says that `m`
steps lead every element to its root; a union costs one more step and a `find` none, so the number of
unions bounds the steps (`Classes`). Things that share keys are joined through the first owner of each key
(`linkAll`): their classes are those of the equivalence that sharing a key generates.
-/

namespace Lib.UnionFind

universe u v

variable {α : Type u} [DecidableEq α]

/-! ## Finding -/

/-- `p` is changed at `i` only. -/
def setParent (p : α → α) (i r : α) : α → α := fun j => if j = i then r else p j

/-- The root of `i`, within so many steps, and the parents with what was passed pointed at it. -/
def find : ℕ → (α → α) → α → α × (α → α)
  | 0, p, i => (i, p)
  | k + 1, p, i =>
    if p i = i then (i, p)
    else
      let r := find k p (p i)
      (r.1, setParent r.2 i r.1)

/-- `parent[find(i)] = find(j)` -/
def union (k : ℕ) (p : α → α) (i j : α) : α → α :=
  let a := find k p i
  let b := find k a.2 j
  setParent b.2 a.1 b.1

/-- After `m` steps every element is at its root. -/
def Settles (p : α → α) (m : ℕ) : Prop := ∀ i, p (p^[m] i) = p^[m] i

section Roots

variable {p : α → α} {m : ℕ}

omit [DecidableEq α] in
theorem iterate_root {r : α} (hr : p r = r) (t : ℕ) : p^[t] r = r :=
  Function.iterate_fixed hr t

omit [DecidableEq α] in
theorem Settles.of_le (h : Settles p m) {k : ℕ} (hk : m ≤ k) (i : α) : p^[k] i = p^[m] i := by
  obtain ⟨d, rfl⟩ := Nat.exists_eq_add_of_le hk
  rw [Nat.add_comm, Function.iterate_add_apply]
  exact iterate_root (h i) d

omit [DecidableEq α] in
/-- The parent of an element has its root. -/
theorem Settles.parent (h : Settles p m) (i : α) : p^[m] (p i) = p^[m] i := by
  rw [← Function.iterate_succ_apply, h.of_le (Nat.le_succ m)]

omit [DecidableEq α] in
/-- Two roots that an element leads to are one. -/
theorem Settles.root_unique (h : Settles p m) {i s : α} (hs : p s = s) {t : ℕ}
    (ht : p^[t] i = s) : p^[m] i = s := by
  calc p^[m] i = p^[m + t] i := (h.of_le (Nat.le_add_right m t) i).symm
    _ = p^[m] (p^[t] i) := Function.iterate_add_apply p m t i
    _ = s := by rw [ht, iterate_root hs]

theorem setParent_root (i : α) {s : α} (hs : p s = s) : setParent p i (p^[m] i) s = s := by
  unfold setParent
  split
  · next hsi => rw [← hsi, iterate_root hs]
  · exact hs

/-- An element leads to its root still when some element is pointed at its own. -/
theorem iterate_compress (h : Settles p m) (i : α) {s : α} (hs : p s = s) {t : ℕ} {j : α}
    (hj : p^[t] j = s) : (setParent p i (p^[m] i))^[t] j = s := by
  induction t generalizing j with
  | zero => exact hj
  | succ t ih =>
    rw [Function.iterate_succ_apply]
    by_cases hji : j = i
    · rw [hji, setParent, if_pos rfl, h.root_unique hs (hji ▸ hj)]
      have hroot := setParent_root (m := m) i hs
      rw [h.root_unique hs (hji ▸ hj)] at hroot
      exact iterate_root hroot t
    · rw [setParent, if_neg hji]
      exact ih (by rwa [Function.iterate_succ_apply] at hj)

/-- Pointing an element at its root moves no root. -/
theorem Settles.compress (h : Settles p m) (i : α) :
    Settles (setParent p i (p^[m] i)) m ∧ ∀ j, (setParent p i (p^[m] i))^[m] j = p^[m] j := by
  have hkept : ∀ j, (setParent p i (p^[m] i))^[m] j = p^[m] j :=
    fun j => iterate_compress h i (h j) rfl
  refine ⟨fun j => ?_, hkept⟩
  rw [hkept]
  exact setParent_root i (h j)

/-- An element that does not come to `i` leads where it led. -/
theorem iterate_setParent_of_ne {i r s : α} (hi : p i = i) (hs : s ≠ i) {t : ℕ} {j : α}
    (hj : p^[t] j = s) : (setParent p i r)^[t] j = s := by
  induction t generalizing j with
  | zero => exact hj
  | succ t ih =>
    rw [Function.iterate_succ_apply] at hj ⊢
    have hji : j ≠ i := by
      rintro rfl
      rw [hi, iterate_root hi] at hj
      exact hs hj.symm
    rw [setParent, if_neg hji]
    exact ih hj

/-- An element whose root is pointed at another root leads there in one more step. -/
theorem iterate_setParent {a b : α} (hb : p b = b) {t : ℕ} {j : α}
    (hj : p^[t] j = a) : (setParent p a b)^[t + 1] j = b := by
  have hroot : setParent p a b b = b := by
    unfold setParent
    split
    · rfl
    · exact hb
  induction t generalizing j with
  | zero =>
    rw [Function.iterate_zero_apply] at hj
    rw [hj, Function.iterate_one, setParent, if_pos rfl]
  | succ t ih =>
    rw [Function.iterate_succ_apply]
    by_cases hja : j = a
    · rw [hja, setParent, if_pos rfl]
      exact iterate_root hroot (t + 1)
    · rw [setParent, if_neg hja]
      exact ih (by rwa [Function.iterate_succ_apply] at hj)

/-- `find` finds the root and moves none. -/
theorem find_spec {k : ℕ} (h : Settles p m) {t : ℕ} {i : α} (ht : p (p^[t] i) = p^[t] i)
    (hk : t ≤ k) :
    (find k p i).1 = p^[m] i ∧ Settles (find k p i).2 m ∧
      ∀ j, (find k p i).2^[m] j = p^[m] j := by
  induction k generalizing t i with
  | zero =>
    obtain rfl := Nat.le_zero.1 hk
    exact ⟨(iterate_root ht m).symm, h, fun _ => rfl⟩
  | succ k ih =>
    unfold find
    split
    · next hi => exact ⟨(iterate_root hi m).symm, h, fun _ => rfl⟩
    · next hi =>
      cases t with
      | zero => exact absurd ht hi
      | succ t =>
        obtain ⟨hroot, hsettles, hsame⟩ := ih (t := t) (i := p i)
          (by rwa [Function.iterate_succ_apply] at ht) (Nat.le_of_succ_le_succ hk)
        have hrooti : (find k p (p i)).1 = (find k p (p i)).2^[m] i := by
          rw [hroot, h.parent, hsame]
        dsimp only
        rw [hrooti]
        obtain ⟨hsettles', hkept⟩ := hsettles.compress i
        exact ⟨hsame i, hsettles', fun j => (hkept j).trans (hsame j)⟩

/-! ## Joining -/

/-- The classes of `p` are those of the equivalence that `R` generates. -/
structure Classes (p : α → α) (m : ℕ) (R : α → α → Prop) : Prop where
  settles : Settles p m
  same : ∀ i j, p^[m] i = p^[m] j ↔ Relation.EqvGen R i j

omit [DecidableEq α] in
/-- Every element alone. -/
theorem classes_id : Classes (id : α → α) 0 (fun _ _ => False) := by
  refine ⟨fun _ => rfl, fun i j => ⟨?_, fun h => ?_⟩⟩
  · rintro rfl
    exact .refl _
  · induction h with
    | rel i j h => exact h.elim
    | refl i => rfl
    | symm i j _ ih => exact ih.symm
    | trans i j k _ _ ih₁ ih₂ => exact ih₁.trans ih₂

theorem Classes.find {R : α → α → Prop} (h : Classes p m R) {k : ℕ} (hk : m ≤ k) (i : α) :
    (find k p i).1 = p^[m] i ∧ Classes (find k p i).2 m R ∧
      ∀ j, (UnionFind.find k p i).2^[m] j = p^[m] j := by
  obtain ⟨hroot, hsettles, hsame⟩ := find_spec h.settles (h.settles i) hk
  refine ⟨hroot, ⟨hsettles, fun x y => ?_⟩, hsame⟩
  rw [hsame, hsame]
  exact h.same x y

/-- A union joins two classes. -/
theorem Classes.union {R : α → α → Prop} (h : Classes p m R) {k : ℕ} (hk : m ≤ k) (i j : α) :
    Classes (union k p i j) (m + 1) fun x y => R x y ∨ (x = i ∧ y = j) := by
  obtain ⟨hri, hI, hsameI⟩ := h.find hk i
  obtain ⟨hrj, hJ, hsameJ⟩ := hI.find hk j
  have hsame : ∀ x, (UnionFind.find k (UnionFind.find k p i).2 j).2^[m] x = p^[m] x :=
    fun x => (hsameJ x).trans (hsameI x)
  rw [hsameI] at hrj
  unfold UnionFind.union
  dsimp only
  rw [hri, hrj]
  set q := (UnionFind.find k (UnionFind.find k p i).2 j).2 with hq
  set a := p^[m] i
  set b := p^[m] j
  have ha : q a = a := by
    have hroot := hJ.settles i
    rwa [hsame i] at hroot
  have hb : q b = b := by
    have hroot := hJ.settles j
    rwa [hsame j] at hroot
  have hmoved : ∀ x, (setParent q a b)^[m + 1] x = if p^[m] x = a then b else p^[m] x := by
    intro x
    split
    · next hx => exact iterate_setParent hb ((hsame x).trans hx)
    · next hx =>
      have hlead : q^[m + 1] x = p^[m] x := by
        rw [hJ.settles.of_le (Nat.le_succ m), hsame]
      exact iterate_setParent_of_ne ha hx hlead
  refine ⟨fun x => ?_, fun x y => ?_⟩
  · rw [hmoved, setParent]
    split
    · split
      · rfl
      · exact hb
    · have hroot := hJ.settles x
      rwa [hsame x] at hroot
  · rw [hmoved, hmoved]
    have hle : ∀ {x y}, Relation.EqvGen R x y →
        Relation.EqvGen (fun x y => R x y ∨ (x = i ∧ y = j)) x y :=
      fun h => Relation.EqvGen.mono (fun _ _ => Or.inl) _ _ h
    have hij : Relation.EqvGen (fun x y => R x y ∨ (x = i ∧ y = j)) i j :=
      .rel _ _ (.inr ⟨rfl, rfl⟩)
    constructor
    · intro heq
      by_cases hx : p^[m] x = a
      · have hxj := Relation.EqvGen.trans _ _ _ (hle ((h.same x i).1 hx)) hij
        rw [if_pos hx] at heq
        by_cases hy : p^[m] y = a
        · exact (hle ((h.same x y).1 (hx.trans hy.symm)))
        · rw [if_neg hy] at heq
          exact hxj.trans _ _ _ (hle ((h.same j y).1 heq))
      · rw [if_neg hx] at heq
        by_cases hy : p^[m] y = a
        · have hyj := Relation.EqvGen.trans _ _ _ (hle ((h.same y i).1 hy)) hij
          rw [if_pos hy] at heq
          exact (hle ((h.same x j).1 heq)).trans _ _ _ hyj.symm
        · rw [if_neg hy] at heq
          exact hle ((h.same x y).1 heq)
    · intro hgen
      induction hgen with
      | rel x y hR =>
        rcases hR with hR | ⟨rfl, rfl⟩
        · rw [(h.same x y).2 (.rel _ _ hR)]
        · rw [if_pos rfl]
          split <;> rfl
      | refl x => rfl
      | symm x y _ ih => exact ih.symm
      | trans x y z _ _ ih₁ ih₂ => exact ih₁.trans ih₂

end Roots

omit [DecidableEq α] in
theorem Classes.of_le {p : α → α} {m : ℕ} {R : α → α → Prop} (h : Classes p m R) {k : ℕ}
    (hk : m ≤ k) : Classes p k R := by
  refine ⟨fun i => ?_, fun i j => ?_⟩
  · rw [h.settles.of_le hk]
    exact h.settles i
  · rw [h.settles.of_le hk, h.settles.of_le hk]
    exact h.same i j

omit [DecidableEq α] in
/-- Relations that generate each other generate one equivalence. -/
theorem eqvGen_eq {R S : α → α → Prop} (hRS : ∀ i j, R i j → Relation.EqvGen S i j)
    (hSR : ∀ i j, S i j → Relation.EqvGen R i j) : Relation.EqvGen R = Relation.EqvGen S := by
  funext i j
  exact propext ⟨Relation.EqvGen.eqvGen_le hRS i j, Relation.EqvGen.eqvGen_le hSR i j⟩

/-! ## Shared keys -/

variable {κ : Type v} [DecidableEq κ]

/-- The parents, and who had each key first. -/
structure Owners (α : Type u) (κ : Type v) where
  parent : α → α
  owner : κ → Option α

namespace Owners

/-- Every element alone, and no key owned. -/
def start : Owners α κ := ⟨id, fun _ => none⟩

/-- `i` has a key: it owns it, or joins who does. -/
def link (k : ℕ) (g : Owners α κ) (i : α) (key : κ) : Owners α κ :=
  match g.owner key with
  | none => { g with owner := fun x => if x = key then some i else g.owner x }
  | some j => { g with parent := union k g.parent i j }

/-- Every element with every key it has, in order. -/
def linkAll (k : ℕ) (g : Owners α κ) (occurrences : List (α × κ)) : Owners α κ :=
  occurrences.foldl (fun g o => g.link k o.1 o.2) g

end Owners

/-- The elements have a key in common. -/
def Sharing (occurrences : List (α × κ)) (i j : α) : Prop :=
  ∃ key, (i, key) ∈ occurrences ∧ (j, key) ∈ occurrences

/-- The classes are those of the keys shared so far, and every key that occurred has an owner that
has it. -/
structure Linked (g : Owners α κ) (m : ℕ) (seen : List (α × κ)) : Prop where
  classes : ∃ R, Classes g.parent m R ∧ Relation.EqvGen R = Relation.EqvGen (Sharing seen)
  owned : ∀ key j, g.owner key = some j → (j, key) ∈ seen
  known : ∀ i key, (i, key) ∈ seen → (g.owner key).isSome = true

omit [DecidableEq α] [DecidableEq κ] in
theorem linked_start : Linked (.start : Owners α κ) 0 [] where
  classes := by
    refine ⟨_, classes_id, eqvGen_eq (fun _ _ h => h.elim) ?_⟩
    rintro i j ⟨key, hi, -⟩
    cases hi
  owned _ _ h := by cases h
  known _ _ h := by cases h

omit [DecidableEq α] in
/-- Everything that has a key that is shared is joined to `j`, which has it. -/
theorem eqvGen_sharing {R R' : α → α → Prop} {seen : List (α × κ)} {i j : α} {key : κ}
    (hR : Relation.EqvGen R = Relation.EqvGen (Sharing seen))
    (hle : ∀ x y, R x y → R' x y)
    (hback : ∀ x y, R' x y → Relation.EqvGen (Sharing (seen ++ [(i, key)])) x y)
    (hkey : ∀ x, (x, key) ∈ seen ++ [(i, key)] → Relation.EqvGen R' x j) :
    Relation.EqvGen R' = Relation.EqvGen (Sharing (seen ++ [(i, key)])) := by
  refine eqvGen_eq hback ?_
  rintro x y ⟨key', hx, hy⟩
  by_cases hk : key' = key
  · subst hk
    exact (hkey x hx).trans _ _ _ (hkey y hy).symm
  · have hold : ∀ z, (z, key') ∈ seen ++ [(i, key)] → (z, key') ∈ seen := by
      intro z hz
      rcases List.mem_append.1 hz with hz | hz
      · exact hz
      · exact absurd (congrArg Prod.snd (List.mem_singleton.1 hz)) hk
    have hgen : Relation.EqvGen R x y := hR ▸ .rel _ _ ⟨key', hold x hx, hold y hy⟩
    exact Relation.EqvGen.mono hle x y hgen

/-- One more key of one more element. -/
theorem Linked.link {g : Owners α κ} {m k : ℕ} {seen : List (α × κ)} (h : Linked g m seen)
    (hk : m ≤ k) (i : α) (key : κ) :
    Linked (g.link k i key) (m + 1) (seen ++ [(i, key)]) := by
  obtain ⟨R, hclasses, hgen⟩ := h.classes
  have hmono : ∀ x y, R x y → Relation.EqvGen (Sharing (seen ++ [(i, key)])) x y := by
    intro x y hR
    have hseen : Relation.EqvGen (Sharing seen) x y := hgen ▸ .rel _ _ hR
    refine Relation.EqvGen.mono ?_ x y hseen
    rintro x y ⟨key', hx, hy⟩
    exact ⟨key', List.mem_append_left _ hx, List.mem_append_left _ hy⟩
  have hnew : (i, key) ∈ seen ++ [(i, key)] := List.mem_append_right _ List.mem_cons_self
  unfold Owners.link
  cases howner : g.owner key with
  | none =>
    refine ⟨⟨R, hclasses.of_le (Nat.le_succ m), ?_⟩, fun key' j hj => ?_, fun x key' hx => ?_⟩
    · refine eqvGen_sharing hgen (fun _ _ h => h) hmono (j := i) fun x hx => ?_
      rcases List.mem_append.1 hx with hx | hx
      · have hsome := h.known x key hx
        rw [howner] at hsome
        cases hsome
      · rw [(Prod.mk.inj (List.mem_singleton.1 hx)).1]
        exact .refl i
    · dsimp only at hj
      split at hj
      · next hkey =>
        obtain rfl := Option.some.inj hj
        rw [hkey]
        exact hnew
      · exact List.mem_append_left _ (h.owned key' j hj)
    · dsimp only
      split
      · rfl
      · next hkey =>
        rcases List.mem_append.1 hx with hx | hx
        · exact h.known x key' hx
        · exact absurd (Prod.mk.inj (List.mem_singleton.1 hx)).2 hkey
  | some j =>
    have hj := h.owned key j howner
    refine ⟨⟨_, hclasses.union hk i j, ?_⟩, fun key' j' hj' => ?_, fun x key' hx => ?_⟩
    · refine eqvGen_sharing hgen (fun _ _ => Or.inl) ?_ (j := j) fun x hx => ?_
      · rintro x y (hR | ⟨rfl, rfl⟩)
        · exact hmono x y hR
        · exact .rel _ _ ⟨key, hnew, List.mem_append_left _ hj⟩
      · rcases List.mem_append.1 hx with hx | hx
        · have hxj : Relation.EqvGen R x j := hgen ▸ .rel _ _ ⟨key, hx, hj⟩
          exact Relation.EqvGen.mono (fun _ _ => Or.inl) x j hxj
        · rw [(Prod.mk.inj (List.mem_singleton.1 hx)).1]
          exact .rel _ _ (.inr ⟨rfl, rfl⟩)
    · exact List.mem_append_left _ (h.owned key' j' hj')
    · rcases List.mem_append.1 hx with hx | hx
      · exact h.known x key' hx
      · rw [(Prod.mk.inj (List.mem_singleton.1 hx)).2]
        simp [howner]

theorem Linked.linkAll {g : Owners α κ} {m k : ℕ} {seen occurrences : List (α × κ)}
    (h : Linked g m seen) (hk : m + occurrences.length ≤ k) :
    Linked (g.linkAll k occurrences) (m + occurrences.length) (seen ++ occurrences) := by
  induction occurrences generalizing g m seen with
  | nil => simpa [Owners.linkAll] using h
  | cons o occurrences ih =>
    rw [List.length_cons] at hk
    have hstep := ih (h.link (k := k) (by omega) o.1 o.2) (by omega)
    rw [List.append_assoc, List.singleton_append] at hstep
    rw [List.length_cons, show m + (occurrences.length + 1) = m + 1 + occurrences.length by omega]
    exact hstep

/-- With as many steps as keys occur, two elements have one root exactly when a chain of shared keys
leads from one to the other. -/
theorem linkAll_classes {k : ℕ} {occurrences : List (α × κ)} (hk : occurrences.length ≤ k) :
    Classes (Owners.linkAll k .start occurrences).parent occurrences.length
      (Sharing occurrences) := by
  have hlinked : Linked (Owners.linkAll k .start occurrences) (0 + occurrences.length)
      ([] ++ occurrences) := linked_start.linkAll (by omega)
  rw [List.nil_append, Nat.zero_add] at hlinked
  obtain ⟨R, hclasses, hgen⟩ := hlinked.classes
  exact ⟨hclasses.settles, fun i j => by rw [hclasses.same i j, hgen]⟩

/-! ## Groups -/

/-- `groups.set(key, [...(groups.get(key) ?? []), a])`, in a map that keeps the order of insertion.
-/
def gather (groups : List (κ × List α)) (key : κ) (a : α) : List (κ × List α) :=
  if groups.any fun g => g.1 == key then
    groups.map fun g => if g.1 = key then (g.1, g.2 ++ [a]) else g
  else groups ++ [(key, [a])]

/-- The groups of what was seen, by the key `f`. -/
structure Gathered (f : α → κ) (seen : List α) (groups : List (κ × List α)) : Prop where
  nodup : (groups.map Prod.fst).Nodup
  members : ∀ g ∈ groups, g.2 = seen.filter fun a => f a = g.1
  nonempty : ∀ g ∈ groups, g.2 ≠ []
  known : ∀ a ∈ seen, ∃ g ∈ groups, g.1 = f a

omit [DecidableEq α] in
theorem gathered_nil (f : α → κ) : Gathered f [] [] where
  nodup := List.nodup_nil
  members _ h := by cases h
  nonempty _ h := by cases h
  known _ h := by cases h

omit [DecidableEq α] in
/-- The next element joins the group of its key, or begins one. -/
theorem Gathered.gather {f : α → κ} {seen : List α} {groups : List (κ × List α)}
    (h : Gathered f seen groups) (a : α) :
    Gathered f (seen ++ [a]) (gather groups (f a) a) := by
  have hother : ∀ {g : κ × List α}, g ∈ groups → g.1 ≠ f a →
      g.2 = (seen ++ [a]).filter fun x => f x = g.1 := by
    intro g hg hne
    rw [List.filter_append, List.filter_cons_of_neg (by simpa using hne.symm), List.filter_nil,
      List.append_nil]
    exact h.members g hg
  unfold UnionFind.gather
  by_cases hany : (groups.any fun g => g.1 == f a) = true
  · rw [if_pos hany]
    refine ⟨?_, fun g' hg' => ?_, fun g' hg' => ?_, fun x hx => ?_⟩
    · have hkeys : ((groups.map fun g => if g.1 = f a then (g.1, g.2 ++ [a]) else g).map Prod.fst) =
          groups.map Prod.fst := by
        rw [List.map_map]
        refine List.map_congr_left fun g _ => ?_
        rw [Function.comp_apply]
        split <;> rfl
      rw [hkeys]
      exact h.nodup
    · obtain ⟨g, hg, rfl⟩ := List.mem_map.1 hg'
      split
      · next hkey =>
        rw [List.filter_append, List.filter_cons_of_pos (by simpa using hkey.symm), List.filter_nil]
        exact congrArg (· ++ [a]) (h.members g hg)
      · next hkey => exact hother hg hkey
    · obtain ⟨g, hg, rfl⟩ := List.mem_map.1 hg'
      split
      · simp
      · exact h.nonempty g hg
    · have hold : ∃ g ∈ groups, g.1 = f x := by
        rcases List.mem_append.1 hx with hx | hx
        · exact h.known x hx
        · rw [List.mem_singleton.1 hx]
          simpa using hany
      obtain ⟨g, hg, hgx⟩ := hold
      refine ⟨_, List.mem_map_of_mem hg, ?_⟩
      split <;> exact hgx
  · rw [if_neg hany]
    have hnew : ∀ g ∈ groups, g.1 ≠ f a :=
      fun g hg hkey => hany (List.any_eq_true.2 ⟨g, hg, by simpa using hkey⟩)
    refine ⟨?_, fun g hg => ?_, fun g hg => ?_, fun x hx => ?_⟩
    · rw [List.map_append, List.map_singleton]
      refine List.nodup_append.2 ⟨h.nodup, List.pairwise_singleton _ _, ?_⟩
      rintro k hk k' hk' rfl
      obtain ⟨g, hg, rfl⟩ := List.mem_map.1 hk
      exact hnew g hg (List.mem_singleton.1 hk')
    · rcases List.mem_append.1 hg with hg | hg
      · exact hother hg (hnew g hg)
      · rw [List.mem_singleton.1 hg]
        have hnone : seen.filter (fun x => f x = f a) = [] := by
          refine List.filter_eq_nil_iff.2 fun x hx hkey => ?_
          obtain ⟨g, hg, hgx⟩ := h.known x hx
          exact hnew g hg (hgx.trans (by simpa using hkey))
        rw [List.filter_append, hnone, List.filter_cons_of_pos (by simp), List.filter_nil,
          List.nil_append]
    · rcases List.mem_append.1 hg with hg | hg
      · exact h.nonempty g hg
      · rw [List.mem_singleton.1 hg]
        exact List.cons_ne_nil _ _
    · rcases List.mem_append.1 hx with hx | hx
      · obtain ⟨g, hg, hgx⟩ := h.known x hx
        exact ⟨g, List.mem_append_left _ hg, hgx⟩
      · rw [List.mem_singleton.1 hx]
        exact ⟨_, List.mem_append_right _ List.mem_cons_self, rfl⟩

/-- Each element in the group of its root; finding the roots moves parents on. -/
def collect (k : ℕ) (p : α → α) (ids : List α) : (α → α) × List (α × List α) :=
  ids.foldl (fun s i => let r := find k s.1 i; (r.2, gather s.2 r.1 i)) (p, [])

/-- The groups are the classes of the elements. -/
structure Partition (R : α → α → Prop) (ids : List α) (groups : List (List α)) : Prop where
  nonempty : ∀ g ∈ groups, g ≠ []
  closed : ∀ g ∈ groups, ∀ i ∈ g, ∀ j, j ∈ g ↔ j ∈ ids ∧ Relation.EqvGen R i j
  covers : ∀ i ∈ ids, ∃ g ∈ groups, i ∈ g
  apart : groups.Pairwise fun g g' => ∀ i ∈ g, ∀ j ∈ g', ¬Relation.EqvGen R i j

section Collect

variable {p : α → α} {m k : ℕ} {R : α → α → Prop}

theorem collect_gathered (h : Classes p m R) (hk : m ≤ k) (ids : List α) :
    Gathered (p^[m]) ids (collect k p ids).2 := by
  have hall : ∀ (todo seen : List α) (s : (α → α) × List (α × List α)), Classes s.1 m R →
      (∀ i, s.1^[m] i = p^[m] i) → Gathered (p^[m]) seen s.2 →
      Gathered (p^[m]) (seen ++ todo)
        (todo.foldl (fun s i => let r := find k s.1 i; (r.2, gather s.2 r.1 i)) s).2 := by
    intro todo
    induction todo with
    | nil =>
      intro seen s _ _ hs
      simpa using hs
    | cons i todo ih =>
      intro seen s hclasses hsame hs
      obtain ⟨hroot, hclasses', hkept⟩ := hclasses.find hk i
      have hnext := ih (seen ++ [i]) (_, gather s.2 (find k s.1 i).1 i) hclasses'
        (fun j => (hkept j).trans (hsame j)) (by
          rw [hroot, hsame]
          exact hs.gather i)
      rwa [List.append_assoc] at hnext
  have hstart := hall ids [] (p, []) h (fun _ => rfl) (gathered_nil _)
  rwa [List.nil_append] at hstart

theorem collect_partition (h : Classes p m R) (hk : m ≤ k) (ids : List α) :
    Partition R ids ((collect k p ids).2.map Prod.snd) := by
  have hgathered := collect_gathered h hk ids
  have hmem : ∀ g ∈ (collect k p ids).2, ∀ i, i ∈ g.2 ↔ i ∈ ids ∧ p^[m] i = g.1 := by
    intro g hg i
    rw [hgathered.members g hg, List.mem_filter]
    simp
  constructor
  · intro g hg
    obtain ⟨g, hrow, rfl⟩ := List.mem_map.1 hg
    exact hgathered.nonempty g hrow
  · intro g hg i hi j
    obtain ⟨g, hrow, rfl⟩ := List.mem_map.1 hg
    obtain ⟨-, hroot⟩ := (hmem g hrow i).1 hi
    rw [hmem g hrow j, ← h.same, hroot, eq_comm (a := g.1)]
  · intro i hi
    obtain ⟨g, hg, hgi⟩ := hgathered.known i hi
    exact ⟨g.2, List.mem_map_of_mem hg, (hmem g hg i).2 ⟨hi, hgi.symm⟩⟩
  · have hdistinct := List.pairwise_map.1 hgathered.nodup
    refine List.pairwise_map.2 (hdistinct.imp_of_mem fun {g g'} hg hg' hne i hi j hj hij => hne ?_)
    rw [← ((hmem g hg i).1 hi).2, ← ((hmem g' hg' j).1 hj).2]
    exact (h.same i j).2 hij

end Collect

end Lib.UnionFind
