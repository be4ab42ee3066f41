import Barbershop.Package.Session
import Barbershop.Sale.Refund

/-!
# Sessions used and the rows that record them

A package counts its used sessions, and each session has a row. `sessionsOf` and `activeCount` are
the two counts; each write of the service moves them by what this module says. `WithinTotal` is what
every write keeps of a package's own row, whatever the rows of its uses say.
-/

namespace Barbershop

open Lib

/-! ## The two counts -/

/-- The row counts as a used session of the package. -/
def ClientPackageUse.activeFor (k : ℕ) (u : ClientPackageUse) : Bool :=
  u.clientPackageId == k && u.undoneAt.isNone

/-- The rows of a package that are not undone. -/
def activeUsesOf (uses : Table ClientPackageUse) (k : ℕ) : List (ℕ × ClientPackageUse) :=
  uses.filter fun _ u => u.activeFor k

def activeCount (uses : Table ClientPackageUse) (k : ℕ) : ℤ :=
  uses.sum fun _ u => if u.activeFor k then 1 else 0

theorem length_activeUsesOf (uses : Table ClientPackageUse) (k : ℕ) :
    ((activeUsesOf uses k).length : ℤ) = activeCount uses k :=
  Table.length_filter ..

/-- `usedSessions`; a package that does not exist has none. -/
def sessionsOf (packages : Table ClientPackage) (k : ℕ) : ℤ :=
  packages.value (fun p => (p.usedSessions : ℤ)) k

theorem activeCount_insert {uses : Table ClientPackageUse} {u : ClientPackageUse}
    (hu : u.undoneAt = none) (k : ℕ) :
    activeCount (uses.insert u) k = activeCount uses k + if u.clientPackageId = k then 1 else 0 := by
  unfold activeCount
  rw [Table.sum_insert]
  simp [ClientPackageUse.activeFor, hu]

/-- Undoing an active row takes it from the count of its package. -/
theorem activeCount_undo {uses : Table ClientPackageUse} {id : ℕ} {u : ClientPackageUse}
    (hid : uses.get? id = some u) (hu : u.undoneAt = none) (now : ℤ) (userId k : ℕ) :
    activeCount (uses.modify id (·.undo now userId)) k =
      activeCount uses k - if u.clientPackageId = k then 1 else 0 := by
  have hsum := Table.sum_modify (·.undo now userId)
    (fun _ v => if ClientPackageUse.activeFor k v then (1 : ℤ) else 0) hid
  have hold : u.activeFor k = (u.clientPackageId == k) := by simp [ClientPackageUse.activeFor, hu]
  have hnew : (u.undo now userId).activeFor k = false := by
    simp [ClientPackageUse.activeFor, ClientPackageUse.undo]
  simp only [hold, hnew, beq_iff_eq, Bool.false_eq_true, if_false, add_zero] at hsum
  unfold activeCount
  omega

section Sessions

variable {packages : Table ClientPackage}

theorem sessionsOf_modify {j : ℕ} {p : ClientPackage} {f : ClientPackage → ClientPackage} {d : ℤ}
    (hj : packages.get? j = some p) (hf : ((f p).usedSessions : ℤ) = p.usedSessions + d) (k : ℕ) :
    sessionsOf (packages.modify j f) k = sessionsOf packages k + if j = k then d else 0 := by
  unfold sessionsOf
  by_cases hk : k = j
  · subst hk
    rw [Table.value_modify_self _ _ hj, Table.value_of_get? _ hj, if_pos rfl, hf]
  · rw [Table.value_modify_of_ne _ _ _ hk, if_neg (Ne.symm hk), add_zero]

theorem sessionsOf_modify_eq (j : ℕ) {f : ClientPackage → ClientPackage}
    (hf : ∀ p, (f p).usedSessions = p.usedSessions) (k : ℕ) :
    sessionsOf (packages.modify j f) k = sessionsOf packages k :=
  Table.value_modify_eq _ _ _ _ (fun p => by rw [hf]) k

theorem sessionsOf_unlinkPackages (x k : ℕ) :
    sessionsOf (unlinkPackages x packages) k = sessionsOf packages k := by
  refine Table.value_modifyAll_eq _ _ _ (fun _ p => ?_) k
  split <;> rfl

theorem sessionsOf_debit {j : ℕ} {now : ℤ} {packages' : Table ClientPackage}
    (h : debitPackage j now packages = .ok packages') (k : ℕ) :
    sessionsOf packages' k = sessionsOf packages k + if j = k then 1 else 0 := by
  obtain ⟨p, hp, -, rfl⟩ := Table.tryModify_eq_some.1 (orRefuse_eq_ok.1 h)
  exact sessionsOf_modify hp (Nat.cast_succ _) k

theorem sessionsOf_restore {j : ℕ} {packages' : Table ClientPackage}
    (h : packages.tryModify j (·.restorable) (·.restore) = some packages') (k : ℕ) :
    sessionsOf packages' k = sessionsOf packages k + if j = k then -1 else 0 := by
  obtain ⟨p, hp, hr, rfl⟩ := Table.tryModify_eq_some.1 h
  refine sessionsOf_modify hp ?_ k
  have hpos : 0 < p.usedSessions := by
    simp only [ClientPackage.restorable, Bool.and_eq_true, decide_eq_true_eq] at hr
    exact hr.1.1
  simp only [ClientPackage.restore]
  omega

end Sessions

/-! ## The row of a package -/

/-- Never more sessions than the package has, and completed exactly when all are used. -/
structure ClientPackage.WithinTotal (p : ClientPackage) : Prop where
  used_le : p.usedSessions ≤ p.totalSessions
  completed : p.status ≠ .cancelled → (p.status = .completed ↔ p.usedSessions = p.totalSessions)

/-- Every package is within its total. -/
structure PackagesWithin (packages : Table ClientPackage) : Prop where
  within : ∀ k p, packages.get? k = some p → p.WithinTotal

namespace ClientPackage.WithinTotal

variable {p : ClientPackage}

theorem debit (hd : ∃ now, p.debitable now = true) : p.debit.WithinTotal := by
  obtain ⟨now, hd⟩ := hd
  simp only [ClientPackage.debitable, Bool.and_eq_true, decide_eq_true_eq] at hd
  have hlt := hd.1.2
  unfold ClientPackage.debit
  refine ⟨hlt, fun _ => ?_⟩
  dsimp only
  split
  · exact ⟨fun _ => by omega, fun _ => rfl⟩
  · exact ⟨fun h => (by cases h), fun h => by omega⟩

theorem restore (h : p.WithinTotal) (hr : p.restorable = true) : p.restore.WithinTotal := by
  simp only [ClientPackage.restorable, Bool.and_eq_true, decide_eq_true_eq] at hr
  have hpos := hr.1.1
  have hle := h.used_le
  unfold ClientPackage.restore
  refine ⟨by dsimp only; omega, fun _ => ⟨fun h => (by cases h), fun h => ?_⟩⟩
  dsimp only at h
  omega

theorem cancel (h : p.WithinTotal) : p.cancel.WithinTotal :=
  ⟨h.used_le, fun hne => absurd rfl hne⟩

theorem closeAt {saleId : ℕ} {now : ℤ} {read : ClientPackage}
    (hs : read.sameSessions saleId p = true) : (read.closeAt now p).WithinTotal := by
  simp only [ClientPackage.sameSessions, Bool.and_eq_true, beq_iff_eq] at hs
  exact ⟨hs.1.2.le, fun _ => ⟨fun _ => hs.1.2, fun _ => rfl⟩⟩

end ClientPackage.WithinTotal

namespace PackagesWithin

variable {packages packages' : Table ClientPackage}

theorem insert (h : PackagesWithin packages) {p : ClientPackage} (hp : p.WithinTotal) :
    PackagesWithin (packages.insert p) := by
  constructor
  intro k q hk
  rw [Table.get?_insert] at hk
  split at hk
  · exact Option.some.inj hk ▸ hp
  · exact h.within k q hk

/-- A conditional update whose new row is within its total. -/
theorem tryModify (h : PackagesWithin packages) {j : ℕ} {c : ClientPackage → Bool}
    {f : ClientPackage → ClientPackage}
    (hf : ∀ p, p.WithinTotal → c p = true → (f p).WithinTotal)
    (hmod : packages.tryModify j c f = some packages') : PackagesWithin packages' := by
  obtain ⟨p, hp, hc, rfl⟩ := Table.tryModify_eq_some.1 hmod
  constructor
  intro k q hk
  rw [Table.get?_modify] at hk
  split at hk
  · next hkj =>
    obtain ⟨a, ha, rfl⟩ := Option.map_eq_some_iff.1 hk
    obtain rfl : p = a := Option.some.inj (hp.symm.trans (hkj ▸ ha))
    exact hf p (h.within j p hp) hc
  · exact h.within k q hk

theorem unlink (h : PackagesWithin packages) (x : ℕ) : PackagesWithin (unlinkPackages x packages) := by
  constructor
  intro k q hk
  unfold unlinkPackages at hk
  rw [Table.get?_modifyAll] at hk
  obtain ⟨p, hp, rfl⟩ := Option.map_eq_some_iff.1 hk
  have hw := h.within k p hp
  split
  · exact ⟨hw.used_le, hw.completed⟩
  · exact hw

theorem debit (h : PackagesWithin packages) {j : ℕ} {now : ℤ}
    (hd : debitPackage j now packages = .ok packages') : PackagesWithin packages' :=
  h.tryModify (fun _ _ hc => .debit ⟨now, hc⟩) (orRefuse_eq_ok.1 hd)

theorem restore (h : PackagesWithin packages) {j : ℕ}
    (hr : packages.tryModify j (·.restorable) (·.restore) = some packages') :
    PackagesWithin packages' :=
  h.tryModify (fun _ hp hc => hp.restore hc) hr

end PackagesWithin

/-! ## Deleting a sale -/

theorem cancelIssuedPackage_ok {x : ℕ} {reads : DeleteRead → Db}
    {packages packages' : Table ClientPackage}
    (h : cancelIssuedPackage x reads packages = .ok packages') :
    packages' = packages ∨
      ∃ k, packages.tryModify k (·.cancellable x) (·.cancel) = some packages' := by
  unfold cancelIssuedPackage at h
  cases hfound : (reads .package).packageOfSale x with
  | none =>
    simp only [hfound, pure_eq_ok] at h
    exact .inl h.symm
  | some found =>
    simp only [hfound, bind_eq_ok, exists_punit, refuseIf_eq_ok] at h
    obtain ⟨-, h⟩ := h
    split at h
    · exact .inr ⟨found.1, orRefuse_eq_ok.1 h⟩
    · simp only [bind_eq_ok, exists_punit, pure_eq_ok] at h
      exact .inl h.2.symm

section Restore

variable (now : ℤ) (userId : ℕ) {t : Table ClientPackage × Table ClientPackageUse}

/-- One use of the deleted sale: both tables move, or neither. -/
theorem restorePackageUse_cases (useId k : ℕ)
    (t : Table ClientPackage × Table ClientPackageUse) :
    restorePackageUse now userId useId k t = t ∨
      ∃ packages, t.1.tryModify k (·.restorable) (·.restore) = some packages ∧
        restorePackageUse now userId useId k t =
          (packages, t.2.modify useId (·.undo now userId)) := by
  unfold restorePackageUse
  cases hmod : t.1.tryModify k (·.restorable) (·.restore) with
  | none => exact .inl rfl
  | some packages => exact .inr ⟨packages, rfl, rfl⟩

theorem restorePackageUses_cons (u : ℕ × ClientPackageUse) (found : List (ℕ × ClientPackageUse)) :
    restorePackageUses now userId (u :: found) t = restorePackageUses now userId found
      (restorePackageUse now userId u.1 u.2.clientPackageId t) := rfl

/-- The uses that were found are still active rows of their packages. -/
structure StillActive (found : List (ℕ × ClientPackageUse)) (uses : Table ClientPackageUse) :
    Prop where
  nodup : (found.map Prod.fst).Nodup
  active : ∀ f ∈ found, ∃ u, uses.get? f.1 = some u ∧
    u.clientPackageId = f.2.clientPackageId ∧ u.undoneAt = none

theorem StillActive.tail {f : ℕ × ClientPackageUse} {found : List (ℕ × ClientPackageUse)}
    (h : StillActive (f :: found) t.2) :
    StillActive found (restorePackageUse now userId f.1 f.2.clientPackageId t).2 := by
  obtain ⟨hnew, hnodup⟩ := List.nodup_cons.1 h.nodup
  refine ⟨hnodup, fun g hg => ?_⟩
  obtain ⟨u, hu, hk, hactive⟩ := h.active g (List.mem_cons_of_mem f hg)
  refine ⟨u, ?_, hk, hactive⟩
  rcases restorePackageUse_cases now userId f.1 f.2.clientPackageId t with he | ⟨_, -, he⟩
  · rw [he, hu]
  · have hne : g.1 ≠ f.1 := fun e => hnew (e ▸ List.mem_map_of_mem hg)
    rw [he]
    dsimp only
    rw [Table.get?_modify_of_ne _ _ hne, hu]

/-- Restoring the uses of a sale takes as many sessions as rows from every package. -/
theorem restorePackageUses_counts {found : List (ℕ × ClientPackageUse)}
    (h : StillActive found t.2) (k : ℕ) :
    sessionsOf (restorePackageUses now userId found t).1 k -
        activeCount (restorePackageUses now userId found t).2 k =
      sessionsOf t.1 k - activeCount t.2 k := by
  induction found generalizing t with
  | nil => rfl
  | cons f found ih =>
    rw [restorePackageUses_cons, ih (h.tail now userId)]
    obtain ⟨u, hu, hk, hactive⟩ := h.active f List.mem_cons_self
    rcases restorePackageUse_cases now userId f.1 f.2.clientPackageId t with
      he | ⟨packages, hmod, he⟩
    · rw [he]
    · rw [he]
      dsimp only
      rw [sessionsOf_restore hmod, activeCount_undo hu hactive, hk]
      split <;> omega

theorem restorePackageUses_within {found : List (ℕ × ClientPackageUse)}
    (h : PackagesWithin t.1) : PackagesWithin (restorePackageUses now userId found t).1 := by
  induction found generalizing t with
  | nil => exact h
  | cons f found ih =>
    rw [restorePackageUses_cons]
    apply ih
    rcases restorePackageUse_cases now userId f.1 f.2.clientPackageId t with
      he | ⟨packages, hmod, he⟩
    · rwa [he]
    · rw [he]
      exact h.restore hmod

/-- A row of a use keeps its package and its sale, and is undone only if it was found. -/
theorem restorePackageUses_row {found : List (ℕ × ClientPackageUse)} {id : ℕ}
    {u : ClientPackageUse} (hu : t.2.get? id = some u) :
    ∃ u', (restorePackageUses now userId found t).2.get? id = some u' ∧
      u'.clientPackageId = u.clientPackageId ∧ u'.saleId = u.saleId ∧
      (id ∉ found.map Prod.fst → u'.undoneAt = u.undoneAt) := by
  induction found generalizing t u with
  | nil => exact ⟨u, hu, rfl, rfl, fun _ => rfl⟩
  | cons f found ih =>
    rw [restorePackageUses_cons]
    rcases restorePackageUse_cases now userId f.1 f.2.clientPackageId t with he | ⟨_, -, he⟩
    · obtain ⟨u', hu', hk, hx, hrest⟩ := ih (t := t) hu
      exact ⟨u', by rw [he, hu'], hk, hx, fun hn => hrest fun hm => hn (List.mem_cons_of_mem _ hm)⟩
    · rw [he]
      by_cases hid : id = f.1
      · subst hid
        obtain ⟨u', hu', hk, hx, -⟩ := ih (t := (_, t.2.modify f.1 (·.undo now userId)))
          (u := u.undo now userId) (by rw [Table.get?_modify_self, hu, Option.map_some])
        exact ⟨u', hu', hk, hx, fun hn => absurd List.mem_cons_self hn⟩
      · obtain ⟨u', hu', hk, hx, hrest⟩ := ih (t := (_, t.2.modify f.1 (·.undo now userId)))
          (u := u) (by rw [Table.get?_modify_of_ne _ _ hid, hu])
        exact ⟨u', hu', hk, hx, fun hn => hrest fun hm => hn (List.mem_cons_of_mem _ hm)⟩

theorem restorePackageUses_none (found : List (ℕ × ClientPackageUse)) {id : ℕ}
    (h : t.2.get? id = none) : (restorePackageUses now userId found t).2.get? id = none := by
  induction found generalizing t with
  | nil => exact h
  | cons f found ih =>
    rw [restorePackageUses_cons]
    apply ih
    rcases restorePackageUse_cases now userId f.1 f.2.clientPackageId t with he | ⟨_, -, he⟩
    · rw [he, h]
    · rw [he]
      dsimp only
      rw [Table.get?_modify]
      split <;> simp [h]

end Restore

end Barbershop
