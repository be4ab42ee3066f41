import Barbershop.GiftCard.Lifetime
import Barbershop.Lib.History
import Barbershop.Package.Uses

/-!
# Package sessions under concurrency

The requests that touch packages, with reads of any earlier state. A desk debit and its undoing are
two statements each, so a request can be between them: its second write is in flight. The state is
quiescent when none is.

While writes are in flight, the sessions of a package are its active rows, with the rows still to be
written added and the rows still to be marked taken off (`InFlight.offset`). That count survives
every step but one: a second undoing of a use whose first has taken the session already. Both read
the use before either marks it, so both give a session back, for one row. `UndoesOnce` rules that
out; the bounds and the status of a package hold without it.
-/

namespace Barbershop

open Lib

/-- The second statement of a desk request that has made its first. -/
inductive SecondWrite where
  | record (userId clientPackageId : ℕ)
  | mark (now : ℤ) (userId useId clientPackageId : ℕ)
  deriving DecidableEq

namespace SecondWrite

/-- The row is still to come, or still to be marked. -/
def offset (k : ℕ) : SecondWrite → ℤ
  | .record _ clientPackageId => if clientPackageId = k then -1 else 0
  | .mark _ _ _ clientPackageId => if clientPackageId = k then 1 else 0

def undoes (useId : ℕ) : SecondWrite → Bool
  | .record .. => false
  | .mark _ _ id _ => id == useId

def run (db : Db) : SecondWrite → Db
  | .record userId clientPackageId => recordDebit userId clientPackageId db
  | .mark now userId useId _ => markUndone now userId useId db

end SecondWrite

/-- The database and the second writes in flight. -/
structure Desk where
  db : Db
  inFlight : Table SecondWrite

namespace Desk

def quiescent (d : Desk) : Prop := d.inFlight.rows = []

/-- The rows still to be marked, less the rows still to be written, of a package. -/
def offset (d : Desk) (k : ℕ) : ℤ := d.inFlight.sum fun _ w => w.offset k

/-- The desk of a platform before any package was sold. -/
def start (db : Db) : Desk where
  db := { db.beforeSales with packageUses := .empty }
  inFlight := .empty

end Desk

/-- A request or a second write, with how many steps ago each of its reads was. -/
inductive DeskRequest where
  | purchaseClientPackage (ctx : Caller) (customerId : ℕ) (pkg : ServicePackage)
      (paymentMethod : Option PaymentMethod)
  | startDebit (ctx : Caller) (clientPackageId : ℕ) (age : ℕ)
  | startUndo (ctx : Caller) (useId : ℕ) (age : UndoRead → ℕ)
  | finish (id : ℕ)
  | createSale (ctx : Caller) (data : SaleInput) (age : SaleRead → ℕ)
  | deleteSale (ctx : Caller) (saleId : ℕ) (age : DeleteRead → ℕ)
  | refundIssuedRemainder (ctx : Caller) (saleId : ℕ) (age : RefundRead → ℕ)
  /-- Anything else that writes no sale, package or use. -/
  | elsewhere (other : Db)

def DeskRequest.exec (cat : Catalog) (r : DeskRequest) (seen : ℕ → Desk) (d : Desk) : Result Desk :=
  match r with
  | .purchaseClientPackage ctx customerId pkg method => do
    return { d with db := ← Barbershop.purchaseClientPackage ctx customerId pkg method d.db }
  | .startDebit ctx id age => do
    return {
      db := ← Barbershop.startDebit ctx id (seen age).db d.db
      inFlight := d.inFlight.insert (.record ctx.userId id) }
  | .startUndo ctx useId age => do
    let use ← checkUndo ctx useId fun r => (seen (age r)).db
    return {
      db := ← Barbershop.startUndo ctx useId (fun r => (seen (age r)).db) d.db
      inFlight := d.inFlight.insert (.mark ctx.now ctx.userId useId use.clientPackageId) }
  | .finish id => do
    let w ← orRefuse (d.inFlight.get? id) (.notFound "")
    return { db := w.run d.db, inFlight := d.inFlight.erase id }
  | .createSale ctx data age => do
    return { d with db := ← Barbershop.createSale cat ctx data (fun r => (seen (age r)).db) d.db }
  | .deleteSale ctx saleId age => do
    return { d with db := ← Barbershop.deleteSale ctx saleId (fun r => (seen (age r)).db) d.db }
  | .refundIssuedRemainder ctx saleId age => do
    return { d with
      db := ← Barbershop.refundIssuedRemainder ctx saleId (fun r => (seen (age r)).db) d.db }
  | .elsewhere other =>
    .ok { d with
      db := { other with
        sales := d.db.sales
        packages := d.db.packages
        packageUses := d.db.packageUses } }

def deskService (cat : Catalog) : Machine (History Desk) DeskRequest :=
  concurrent (DeskRequest.exec cat)

/-- When an undoing takes its session, the use is active and no other undoing of it is in flight. -/
def UndoesOnce (h : History Desk) : DeskRequest → Prop
  | .startUndo _ useId _ => (h.now.db.packageUses.get? useId).any (·.undoneAt.isNone) = true ∧
      h.now.inFlight.any (fun _ w => w.undoes useId) = false
  | _ => True

instance (h : History Desk) (r : DeskRequest) : Decidable (UndoesOnce h r) := by
  cases r <;> unfold UndoesOnce <;> infer_instance

/-! ## What holds of every committed state -/

/-- The sessions of every package are accounted for by rows and writes in flight. -/
structure DeskState (d : Desk) : Prop where
  counted : ∀ k, sessionsOf d.db.packages k + d.offset k = activeCount d.db.packageUses k
  within : PackagesWithin d.db.packages
  /-- A row to be marked is active, and of no sale. -/
  marked : ∀ i now userId useId k, d.inFlight.get? i = some (.mark now userId useId k) →
    ∃ u, d.db.packageUses.get? useId = some u ∧ u.clientPackageId = k ∧ u.undoneAt = none ∧
      u.saleId = none
  /-- No row is to be marked twice. -/
  once : ∀ i w j w' useId, d.inFlight.get? i = some w → d.inFlight.get? j = some w' →
    w.undoes useId = true → w'.undoes useId = true → i = j
  sold : ∀ id u x, d.db.packageUses.get? id = some u → u.saleId = some x → x < d.db.sales.next

/-- What later states keep: rows of uses keep their package and sale, and the rows of a sale stay
active while the sale exists. -/
structure DeskLater (d d' : Desk) : Prop where
  sales : d.db.sales.Evolves (fun _ _ => True) d'.db.sales
  uses : ∀ id u, d.db.packageUses.get? id = some u → ∃ u', d'.db.packageUses.get? id = some u' ∧
    u'.clientPackageId = u.clientPackageId ∧ u'.saleId = u.saleId
  active : ∀ id u x, d.db.packageUses.get? id = some u → u.saleId = some x → u.undoneAt = none →
    x < d.db.sales.next → (d'.db.sales.get? x).isSome →
    ∃ u', d'.db.packageUses.get? id = some u' ∧ u'.undoneAt = none

theorem DeskLater.refl (d : Desk) : DeskLater d d where
  sales := .refl (fun _ => trivial) _
  uses _ u hu := ⟨u, hu, rfl, rfl⟩
  active _ u _ hu _ hactive _ _ := ⟨u, hu, hactive⟩

theorem DeskLater.trans {a b c : Desk} (h : DeskLater a b) (h' : DeskLater b c) :
    DeskLater a c where
  sales := h.sales.trans (fun _ _ => trivial) h'.sales
  uses id u hu := by
    obtain ⟨v, hv, hk, hx⟩ := h.uses id u hu
    obtain ⟨w, hw, hk', hx'⟩ := h'.uses id v hv
    exact ⟨w, hw, hk'.trans hk, hx'.trans hx⟩
  active id u x hu hx hactive hlt hsale := by
    have hlt' := hlt.trans_le h.sales.next_le
    have hsale' : (b.db.sales.get? x).isSome := by
      obtain ⟨s, hs⟩ := Option.isSome_iff_exists.1 hsale
      obtain ⟨s', hs', -⟩ := h'.sales.row x s hs hlt'
      simp [hs']
    obtain ⟨v, hv, hactive'⟩ := h.active id u x hu hx hactive hlt hsale'
    obtain ⟨v', hv', -, hx'⟩ := h.uses id u hu
    obtain rfl : v = v' := Option.some.inj (hv.symm.trans hv')
    exact h'.active id v x hv (hx'.trans hx) hactive' hlt' hsale

/-! ## The steps -/

section Steps

variable {cat : Catalog} {ctx : Caller} {d : Desk} {db' : Db}

/-- Requests that leave the uses and the sessions of every package alone. -/
theorem DeskState.of_packages (hI : DeskState d) (huses : db'.packageUses = d.db.packageUses)
    (hcounts : ∀ k, sessionsOf db'.packages k = sessionsOf d.db.packages k)
    (hwithin : PackagesWithin db'.packages) (hnext : d.db.sales.next ≤ db'.sales.next) :
    DeskState { d with db := db' } where
  counted k := by
    change sessionsOf db'.packages k + d.offset k = activeCount db'.packageUses k
    rw [hcounts, huses]
    exact hI.counted k
  within := hwithin
  marked i now userId useId k hi := by
    rw [huses]
    exact hI.marked i now userId useId k hi
  once := hI.once
  sold id u x hu hx := by
    rw [huses] at hu
    exact (hI.sold id u x hu hx).trans_le hnext

theorem DeskLater.of_uses {d' : Desk} (huses : d'.db.packageUses = d.db.packageUses)
    (hsales : d.db.sales.Evolves (fun _ _ => True) d'.db.sales) : DeskLater d d' where
  sales := hsales
  uses _ u hu := ⟨u, by rw [huses, hu], rfl, rfl⟩
  active _ u _ hu _ hactive _ _ := ⟨u, by rw [huses, hu], hactive⟩

theorem evolves_true (t : Table Sale) : t.Evolves (fun _ _ => True) t := .refl (fun _ => trivial) t

theorem evolves_refund (ctx : Caller) (r : Refund) (x : ℕ) (openSession : Option ℕ) (t : Table Sale) :
    t.Evolves (fun _ _ => True) (r.sales ctx x openSession t) := by
  unfold Refund.sales
  split
  · refine .modify (fun _ _ => trivial) ?_ fun _ _ => trivial
    split
    · exact (evolves_true t).insert _
    · exact evolves_true t
  · exact .modify (fun _ _ => trivial) (evolves_true t) fun _ _ => trivial

theorem desk_purchase (hI : DeskState d) {customerId : ℕ} {pkg : ServicePackage}
    {method : Option PaymentMethod}
    (h : purchaseClientPackage ctx customerId pkg method d.db = .ok db') :
    DeskState { d with db := db' } ∧ DeskLater d { d with db := db' } := by
  obtain rfl := purchaseClientPackage_ok h
  constructor
  · refine hI.of_packages rfl (fun k => ?_) (hI.within.insert ?_) (Nat.le_succ _)
    · unfold sessionsOf
      rw [Table.value_insert]
      split
      · next hk =>
        rw [hk, Table.value_of_none _ (Table.get?_next _)]
        rfl
      · rfl
    · have hpos := pkg.pos
      refine ⟨Nat.zero_le _, fun _ => ⟨fun h => (by cases h), fun h => ?_⟩⟩
      simp only [newClientPackage] at h
      omega
  · exact .of_uses rfl ((evolves_true _).insert _)

theorem desk_refund (hI : DeskState d) {saleId : ℕ} {reads : RefundRead → Db}
    (h : refundIssuedRemainder ctx saleId reads d.db = .ok db') :
    DeskState { d with db := db' } ∧ DeskLater d { d with db := db' } := by
  obtain ⟨existing, s, -, -, -, -, r, packages, cards, -, hr, rfl⟩ := refundIssuedRemainder_ok h
  have hsales := evolves_refund ctx r saleId
    ((reads .openSession).openSession ctx.shop.id) d.db.sales
  refine ⟨?_, .of_uses rfl hsales⟩
  rcases hr with ⟨found, -, hr, -⟩ | ⟨found, -, -, -, rfl⟩
  · have hmod := (refundPackage_ok hr).2.2.2.2
    refine hI.of_packages rfl (fun k => ?_) ?_ hsales.next_le
    · obtain ⟨p, -, -, rfl⟩ := Table.tryModify_eq_some.1 hmod
      exact sessionsOf_modify_eq (f := found.2.closeAt ctx.now) found.1 (fun _ => rfl) k
    · exact hI.within.tryModify (fun _ _ hs => .closeAt hs) hmod
  · exact hI.of_packages rfl (fun _ => rfl) hI.within hsales.next_le

/-! ### Desk requests -/

theorem offset_insert (w : SecondWrite) (db : Db) (k : ℕ) :
    Desk.offset ⟨db, d.inFlight.insert w⟩ k = d.offset k + w.offset k :=
  Table.sum_insert ..

theorem offset_erase {i : ℕ} {w : SecondWrite} (hi : d.inFlight.get? i = some w) (db : Db) (k : ℕ) :
    Desk.offset ⟨db, d.inFlight.erase i⟩ k = d.offset k - w.offset k :=
  eq_sub_of_add_eq (Table.sum_erase _ hi)

theorem desk_startDebit (hI : DeskState d) {id : ℕ} {seen : Db}
    (h : startDebit ctx id seen d.db = .ok db') :
    DeskState ⟨db', d.inFlight.insert (.record ctx.userId id)⟩ ∧
      DeskLater d ⟨db', d.inFlight.insert (.record ctx.userId id)⟩ := by
  obtain ⟨packages, hp, rfl⟩ := startDebit_ok h
  refine ⟨?_, .of_uses rfl (evolves_true _)⟩
  refine ⟨fun k => ?_, hI.within.debit hp, ?_, ?_, hI.sold⟩
  · have hcounted := hI.counted k
    rw [offset_insert]
    dsimp only
    rw [sessionsOf_debit hp]
    simp only [SecondWrite.offset]
    split <;> omega
  · intro i now userId useId k hi
    dsimp only at hi
    rw [Table.get?_insert] at hi
    split at hi
    · cases hi
    · exact hI.marked i now userId useId k hi
  · intro i w j w' useId hi hj hw hw'
    dsimp only at hi hj
    rw [Table.get?_insert] at hi hj
    split at hi
    · cases Option.some.inj hi
      cases hw
    · split at hj
      · cases Option.some.inj hj
        cases hw'
      · exact hI.once i w j w' useId hi hj hw hw'

theorem desk_startUndo (hI : DeskState d) {useId : ℕ} {use : ClientPackageUse} {reads : UndoRead → Desk}
    (hreads : DeskLater (reads .use) d)
    (hcheck : checkUndo ctx useId (fun r => (reads r).db) = .ok use)
    (hactive : (d.db.packageUses.get? useId).any (·.undoneAt.isNone) = true)
    (honce : d.inFlight.any (fun _ w => w.undoes useId) = false)
    (h : startUndo ctx useId (fun r => (reads r).db) d.db = .ok db') :
    DeskState ⟨db', d.inFlight.insert (.mark ctx.now ctx.userId useId use.clientPackageId)⟩ ∧
      DeskLater d ⟨db', d.inFlight.insert (.mark ctx.now ctx.userId useId use.clientPackageId)⟩ := by
  obtain ⟨use', packages, hcheck', hp, rfl⟩ := startUndo_ok h
  obtain rfl : use = use' := Except.ok.inj (hcheck.symm.trans hcheck')
  obtain ⟨huse, -, hsale⟩ := checkUndo_ok hcheck
  obtain ⟨u, hu, hk, hx⟩ := hreads.uses useId use huse
  have hundone : u.undoneAt = none := by simpa [hu] using hactive
  have hfree := Table.any_eq_false.1 honce
  refine ⟨?_, .of_uses rfl (evolves_true _)⟩
  refine ⟨fun k => ?_, hI.within.restore hp, ?_, ?_, hI.sold⟩
  · have hcounted := hI.counted k
    rw [offset_insert]
    dsimp only
    rw [sessionsOf_restore hp]
    simp only [SecondWrite.offset]
    split <;> omega
  · intro i now userId id k hi
    dsimp only at hi
    rw [Table.get?_insert] at hi
    split at hi
    · cases Option.some.inj hi
      exact ⟨u, hu, hk, hundone, hx.trans hsale⟩
    · exact hI.marked i now userId id k hi
  · intro i w j w' id hi hj hw hw'
    dsimp only at hi hj
    rw [Table.get?_insert] at hi hj
    split at hi
    · next hinext =>
      split at hj
      · next hjnext => rw [hinext, hjnext]
      · obtain rfl := Option.some.inj hi
        obtain rfl : useId = id := by simpa [SecondWrite.undoes] using hw
        rw [hfree j w' hj] at hw'
        cases hw'
    · split at hj
      · obtain rfl := Option.some.inj hj
        obtain rfl : useId = id := by simpa [SecondWrite.undoes] using hw'
        rw [hfree i w hi] at hw
        cases hw
      · exact hI.once i w j w' id hi hj hw hw'

/-- What is left in flight after a second write was in flight before it. -/
theorem get?_erase_of_some {i j : ℕ} {w : SecondWrite} (h : (d.inFlight.erase i).get? j = some w) :
    j ≠ i ∧ d.inFlight.get? j = some w := by
  rw [Table.get?_erase] at h
  split at h
  · cases h
  · next hne => exact ⟨hne, h⟩

theorem desk_finish (hI : DeskState d) {i : ℕ} {w : SecondWrite}
    (hi : d.inFlight.get? i = some w) :
    DeskState ⟨w.run d.db, d.inFlight.erase i⟩ ∧ DeskLater d ⟨w.run d.db, d.inFlight.erase i⟩ := by
  have honce : ∀ j w j' w' useId, (d.inFlight.erase i).get? j = some w →
      (d.inFlight.erase i).get? j' = some w' → w.undoes useId = true → w'.undoes useId = true →
      j = j' :=
    fun j w j' w' useId hj hj' => hI.once j w j' w' useId (get?_erase_of_some hj).2
      (get?_erase_of_some hj').2
  cases w with
  | record userId id =>
    have hnew : (deskUse userId id).undoneAt = none := rfl
    refine ⟨⟨fun k => ?_, hI.within, ?_, honce, ?_⟩, evolves_true _, ?_, ?_⟩
    · have hcounted := hI.counted k
      rw [offset_erase hi]
      change sessionsOf d.db.packages k + _ = activeCount (d.db.packageUses.insert _) k
      rw [activeCount_insert hnew]
      simp only [SecondWrite.offset, deskUse]
      split <;> omega
    · intro j now userId' useId k hj
      obtain ⟨u, hu, hrest⟩ := hI.marked j now userId' useId k (get?_erase_of_some hj).2
      exact ⟨u, Table.get?_insert_of_some _ hu, hrest⟩
    · intro id' u x hu hx
      change (d.db.packageUses.insert _).get? id' = some u at hu
      rw [Table.get?_insert] at hu
      split at hu
      · obtain rfl := Option.some.inj hu
        cases hx
      · exact hI.sold id' u x hu hx
    · exact fun id' u hu => ⟨u, Table.get?_insert_of_some _ hu, rfl, rfl⟩
    · exact fun id' u _ hu _ hactive _ _ => ⟨u, Table.get?_insert_of_some _ hu, hactive⟩
  | mark now userId useId k₀ =>
    obtain ⟨u₀, hu₀, hk₀, hactive₀, hsale₀⟩ := hI.marked i now userId useId k₀ hi
    have hrow : ∀ id u, d.db.packageUses.get? id = some u → ∃ u',
        (d.db.packageUses.modify useId (·.undo now userId)).get? id = some u' ∧
        u'.clientPackageId = u.clientPackageId ∧ u'.saleId = u.saleId ∧ (id ≠ useId → u' = u) := by
      intro id u hu
      by_cases hid : id = useId
      · subst hid
        exact ⟨u.undo now userId, by rw [Table.get?_modify_self, hu, Option.map_some], rfl, rfl,
          fun hne => absurd rfl hne⟩
      · exact ⟨u, by rw [Table.get?_modify_of_ne _ _ hid, hu], rfl, rfl, fun _ => rfl⟩
    refine ⟨⟨fun k => ?_, hI.within, ?_, honce, ?_⟩, evolves_true _, ?_, ?_⟩
    · have hcounted := hI.counted k
      rw [offset_erase hi]
      change sessionsOf d.db.packages k + _ =
        activeCount (d.db.packageUses.modify useId (·.undo now userId)) k
      rw [activeCount_undo hu₀ hactive₀, hk₀]
      simp only [SecondWrite.offset]
      split <;> omega
    · intro j now' userId' useId' k hj
      obtain ⟨hji, hj'⟩ := get?_erase_of_some hj
      obtain ⟨u, hu, hk, hactive, hsale⟩ := hI.marked j now' userId' useId' k hj'
      have hne : useId' ≠ useId := by
        rintro rfl
        exact hji (hI.once j _ i _ useId' hj' hi (by simp [SecondWrite.undoes])
          (by simp [SecondWrite.undoes]))
      exact ⟨u, (Table.get?_modify_of_ne _ _ hne).trans hu, hk, hactive, hsale⟩
    · intro id u x hu hx
      change (d.db.packageUses.modify useId (·.undo now userId)).get? id = some u at hu
      rw [Table.get?_modify] at hu
      split at hu
      · obtain ⟨v, hv, rfl⟩ := Option.map_eq_some_iff.1 hu
        exact hI.sold id v x hv hx
      · exact hI.sold id u x hu hx
    · intro id u hu
      obtain ⟨u', hu', hk, hx, -⟩ := hrow id u hu
      exact ⟨u', hu', hk, hx⟩
    · intro id u x hu hx hactive _ _
      obtain ⟨u', hu', -, -, hsame⟩ := hrow id u hu
      have hne : id ≠ useId := by
        rintro rfl
        obtain rfl : u = u₀ := Option.some.inj (hu.symm.trans hu₀)
        rw [hsale₀] at hx
        cases hx
      exact ⟨u', hu', (hsame hne).symm ▸ hactive⟩

/-! ### Sales -/

/-- The session of a sale and its row are written together. -/
theorem desk_createSale (hI : DeskState d) {data : SaleInput} {reads : SaleRead → Db}
    (h : createSale cat ctx data reads d.db = .ok db') :
    DeskState { d with db := db' } ∧ DeskLater d { d with db := db' } := by
  obtain ⟨plan, -, hcommit⟩ := createSale_ok h
  obtain ⟨cards, club, packages, customers, -, -, hp, -, rfl⟩ := commitSale_ok hcommit
  have hsales : d.db.sales.Evolves (fun _ _ => True) (d.db.sales.insert (plan.sale ctx)) :=
    (evolves_true _).insert _
  unfold SalePlan.debitPackage at hp
  cases hplan : plan.package with
  | none =>
    simp only [hplan, pure_eq_ok] at hp
    have huses : plan.recordPackageUse ctx.userId d.db.sales.next d.db.packageUses =
        d.db.packageUses := by
      unfold SalePlan.recordPackageUse
      rw [hplan]
    exact ⟨hI.of_packages huses (fun k => by rw [hp]) (hp ▸ hI.within) hsales.next_le,
      .of_uses huses hsales⟩
  | some id =>
    simp only [hplan] at hp
    have huses : ∃ u, u.undoneAt = none ∧ u.clientPackageId = id ∧
        u.saleId = some d.db.sales.next ∧
        plan.recordPackageUse ctx.userId d.db.sales.next d.db.packageUses =
          d.db.packageUses.insert u := by
      unfold SalePlan.recordPackageUse
      rw [hplan]
      exact ⟨_, rfl, rfl, rfl, rfl⟩
    obtain ⟨u, hactive, hk, hx, huses⟩ := huses
    rw [huses]
    refine ⟨⟨fun k => ?_, hI.within.debit hp, ?_, hI.once, ?_⟩, hsales, ?_, ?_⟩
    · have hcounted := hI.counted k
      change sessionsOf packages k + d.offset k = activeCount (d.db.packageUses.insert u) k
      rw [activeCount_insert hactive, sessionsOf_debit hp, hk]
      split <;> omega
    · intro i now userId useId k hi
      obtain ⟨v, hv, hrest⟩ := hI.marked i now userId useId k hi
      exact ⟨v, Table.get?_insert_of_some _ hv, hrest⟩
    · intro id' v x hv hx'
      dsimp only at hv ⊢
      rw [Table.get?_insert] at hv
      split at hv
      · obtain rfl := Option.some.inj hv
        obtain rfl : d.db.sales.next = x := Option.some.inj (hx.symm.trans hx')
        exact Nat.lt_succ_self _
      · exact Nat.lt_succ_of_lt (hI.sold id' v x hv hx')
    · exact fun id' v hv => ⟨v, Table.get?_insert_of_some _ hv, rfl, rfl⟩
    · exact fun id' v _ hv _ hactive' _ _ => ⟨v, Table.get?_insert_of_some _ hv, hactive'⟩

/-- The uses found by a deletion are still active: they are of the sale being deleted, which is
still there. -/
theorem stillActive_activeUses {p : Desk} (hp : DeskState p) (hlater : DeskLater p d) {saleId : ℕ}
    (hsale : (d.db.sales.get? saleId).isSome) :
    StillActive (p.db.activeUses saleId) d.db.packageUses where
  nodup := Table.nodup_filter ..
  active f hf := by
    obtain ⟨hget, hmatch⟩ := Table.mem_filter.1 hf
    simp only [Bool.and_eq_true, beq_iff_eq, Option.isNone_iff_eq_none] at hmatch
    have hlt := hp.sold f.1 f.2 saleId hget hmatch.1
    obtain ⟨u, hu, hactive⟩ := hlater.active f.1 f.2 saleId hget hmatch.1 hmatch.2 hlt hsale
    obtain ⟨u', hu', hk, -⟩ := hlater.uses f.1 f.2 hget
    obtain rfl : u = u' := Option.some.inj (hu.symm.trans hu')
    exact ⟨u, hu, hk, hactive⟩

theorem desk_deleteSale (hI : DeskState d) {saleId : ℕ} {reads : DeleteRead → Desk}
    (huses : DeskState (reads .uses)) (hlater : DeskLater (reads .uses) d)
    (h : deleteSale ctx saleId (fun r => (reads r).db) d.db = .ok db') :
    DeskState { d with db := db' } ∧ DeskLater d { d with db := db' } := by
  obtain ⟨existing, packages, cards, s, -, hp, -, hs, rfl⟩ := deleteSale_ok h
  have hcancel : (∀ k, sessionsOf packages k = sessionsOf d.db.packages k) ∧
      PackagesWithin packages := by
    rcases cancelIssuedPackage_ok hp with rfl | ⟨j, hmod⟩
    · exact ⟨fun _ => rfl, hI.within⟩
    · refine ⟨fun k => ?_, hI.within.tryModify (fun _ hw _ => hw.cancel) hmod⟩
      obtain ⟨a, -, -, rfl⟩ := Table.tryModify_eq_some.1 hmod
      exact sessionsOf_modify_eq (f := ClientPackage.cancel) j (fun _ => rfl) k
  set found := (reads .uses).db.activeUses saleId
  have hfound : StillActive found d.db.packageUses :=
    stillActive_activeUses huses hlater (by simp [hs])
  have hrows : ∀ id u, d.db.packageUses.get? id = some u → ∃ u',
      (restorePackageUses ctx.now ctx.userId found (packages, d.db.packageUses)).2.get? id = some u' ∧
      u'.clientPackageId = u.clientPackageId ∧ u'.saleId = u.saleId ∧
      (u.saleId ≠ some saleId → u'.undoneAt = u.undoneAt) := by
    intro id u hu
    obtain ⟨u', hu', hk, hx, hrest⟩ := restorePackageUses_row ctx.now ctx.userId
      (t := (packages, d.db.packageUses)) hu
    refine ⟨u', hu', hk, hx, fun hne => hrest fun hm => ?_⟩
    obtain ⟨f, hf, rfl⟩ := List.mem_map.1 hm
    obtain ⟨hget, hmatch⟩ := Table.mem_filter.1 hf
    simp only [Bool.and_eq_true, beq_iff_eq] at hmatch
    obtain ⟨v, hv, -, hvx⟩ := hlater.uses f.1 f.2 hget
    obtain rfl : u = v := Option.some.inj (hu.symm.trans hv)
    exact hne (hvx.trans hmatch.1)
  refine ⟨⟨fun k => ?_, ?_, ?_, hI.once, ?_⟩, (evolves_true _).erase _, ?_, ?_⟩
  · have hcounted := hI.counted k
    have hrestored := restorePackageUses_counts ctx.now ctx.userId
      (t := (packages, d.db.packageUses)) hfound k
    dsimp only at hrestored ⊢
    rw [hcancel.1 k] at hrestored
    rw [sessionsOf_unlinkPackages]
    change _ + d.offset k = _
    omega
  · exact (restorePackageUses_within _ _ hcancel.2).unlink saleId
  · intro i now userId useId k hi
    obtain ⟨u, hu, hk, hactive, hsale⟩ := hI.marked i now userId useId k hi
    obtain ⟨u', hu', hk', hx', hrest⟩ := hrows useId u hu
    exact ⟨u', hu', hk'.trans hk, (hrest (by simp [hsale])).trans hactive, hx'.trans hsale⟩
  · intro id u' x hu' hx
    have hold : (d.db.packageUses.get? id).isSome := by
      by_contra hnone
      have := restorePackageUses_none ctx.now ctx.userId found
        (t := (packages, d.db.packageUses)) (by simpa using hnone)
      rw [this] at hu'
      cases hu'
    obtain ⟨u, hu⟩ := Option.isSome_iff_exists.1 hold
    obtain ⟨u₁, hu₁, -, hx₁, -⟩ := hrows id u hu
    obtain rfl : u' = u₁ := Option.some.inj (hu'.symm.trans hu₁)
    exact hI.sold id u x hu (hx₁ ▸ hx)
  · intro id u hu
    obtain ⟨u', hu', hk, hx, -⟩ := hrows id u hu
    exact ⟨u', hu', hk, hx⟩
  · intro id u x hu hx hactive _ hsale
    obtain ⟨u', hu', -, -, hrest⟩ := hrows id u hu
    refine ⟨u', hu', (hrest fun e => ?_).trans hactive⟩
    obtain rfl : x = saleId := Option.some.inj (hx.symm.trans e)
    dsimp only at hsale
    rw [Table.get?_erase, if_pos rfl] at hsale
    cases hsale

end Steps

/-! ## Runs -/

theorem deskState_start (db : Db) : DeskState (Desk.start db) where
  counted _ := rfl
  within := ⟨fun _ _ h => by cases h⟩
  marked _ _ _ _ _ h := by cases h
  once _ _ _ _ _ h := by cases h
  sold _ _ _ h := by cases h

theorem deskGood_step {cat : Catalog} {h h' : History Desk} {r : DeskRequest}
    (hh : h.Good DeskState DeskLater) (hr : UndoesOnce h r)
    (hs : (deskService cat).step h r = some h') : h'.Good DeskState DeskLater := by
  obtain ⟨d', hexec, rfl⟩ := concurrent_step.1 hs
  have hseen : ∀ n, DeskState (h.seen n) ∧ DeskLater (h.seen n) h.now := hh.seen DeskLater.refl
  have hstep : DeskState d' ∧ DeskLater h.now d' := by
    cases r with
    | purchaseClientPackage ctx customerId pkg method =>
      simp only [DeskRequest.exec, bind_eq_ok, pure_eq_ok] at hexec
      obtain ⟨db', hdb, rfl⟩ := hexec
      exact desk_purchase hh.now hdb
    | startDebit ctx id age =>
      simp only [DeskRequest.exec, bind_eq_ok, pure_eq_ok] at hexec
      obtain ⟨db', hdb, rfl⟩ := hexec
      exact desk_startDebit hh.now hdb
    | startUndo ctx useId age =>
      simp only [DeskRequest.exec, bind_eq_ok, pure_eq_ok] at hexec
      obtain ⟨use, hcheck, db', hdb, rfl⟩ := hexec
      exact desk_startUndo hh.now (hseen _).2 hcheck hr.1 hr.2 hdb
    | finish id =>
      simp only [DeskRequest.exec, bind_eq_ok, orRefuse_eq_ok, pure_eq_ok] at hexec
      obtain ⟨w, hw, rfl⟩ := hexec
      exact desk_finish hh.now hw
    | createSale ctx data age =>
      simp only [DeskRequest.exec, bind_eq_ok, pure_eq_ok] at hexec
      obtain ⟨db', hdb, rfl⟩ := hexec
      exact desk_createSale hh.now hdb
    | deleteSale ctx saleId age =>
      simp only [DeskRequest.exec, bind_eq_ok, pure_eq_ok] at hexec
      obtain ⟨db', hdb, rfl⟩ := hexec
      exact desk_deleteSale hh.now (hseen _).1 (hseen _).2 hdb
    | refundIssuedRemainder ctx saleId age =>
      simp only [DeskRequest.exec, bind_eq_ok, pure_eq_ok] at hexec
      obtain ⟨db', hdb, rfl⟩ := hexec
      exact desk_refund hh.now hdb
    | elsewhere other =>
      obtain rfl := Except.ok.inj hexec
      exact ⟨hh.now.of_packages rfl (fun _ => rfl) hh.now.within le_rfl, .of_uses rfl (evolves_true _)⟩
  exact hh.commit DeskLater.trans hstep.1 hstep.2

/-- In every run in which no two undoings of one use each take a session, a package in a quiescent
state has used as many sessions as it has active rows, never more than it has, and is completed
exactly when it has used them all, unless it was cancelled. -/
theorem packageSessions_counted {cat : Catalog} {db : Db} {as : List DeskRequest} {h : History Desk}
    (hrun : (deskService cat).run (.start (Desk.start db)) as = some h)
    (hmeets : (deskService cat).Meets UndoesOnce (.start (Desk.start db)) as)
    (hquiet : h.now.quiescent) {k : ℕ} {p : ClientPackage}
    (hk : h.now.db.packages.get? k = some p) :
    p.usedSessions = (activeUsesOf h.now.db.packageUses k).length ∧
      (0 ≤ p.usedSessions ∧ p.usedSessions ≤ p.totalSessions) ∧
      (p.status ≠ .cancelled → (p.status = .completed ↔ p.usedSessions = p.totalSessions)) := by
  have hgood : h.Good DeskState DeskLater :=
    (deskService cat).run_inv_of_meets deskGood_step (History.good_start (deskState_start db)) hmeets
      hrun
  have hcounted := hgood.now.counted k
  have hoffset : h.now.offset k = 0 := by
    unfold Desk.offset Table.sum
    rw [show h.now.inFlight.rows = [] from hquiet]
    rfl
  have hsessions : sessionsOf h.now.db.packages k = p.usedSessions := Table.value_of_get? _ hk
  have hwithin := hgood.now.within.within k p hk
  rw [hsessions, hoffset, add_zero, ← length_activeUsesOf] at hcounted
  exact ⟨by exact_mod_cast hcounted, ⟨Nat.zero_le _, hwithin.used_le⟩, hwithin.completed⟩

/-- A package of two sessions, both used at the desk at the same time. -/
def bothUsed : List DeskRequest :=
  [.purchaseClientPackage (owner 0) 1 twoSessions (some .cash), .startDebit (owner 1) 1 0,
    .startDebit (owner 1) 1 1, .finish 2, .finish 1]

/-- One of the sessions is undone. -/
def undoneOnce : List DeskRequest := bothUsed ++ [.startUndo (owner 2) 1 fun _ => 0, .finish 3]

theorem undoneOnce_counted : ∃ h p,
    (deskService oneProduct).run (.start (Desk.start (oneCustomer 0))) undoneOnce = some h ∧
    h.now.db.packages.get? 1 = some p ∧ p.status = .active ∧
    p.usedSessions = (activeUsesOf h.now.db.packageUses 1).length ∧
      (0 ≤ p.usedSessions ∧ p.usedSessions ≤ p.totalSessions) ∧
      (p.status ≠ .cancelled → (p.status = .completed ↔ p.usedSessions = p.totalSessions)) := by
  have hrun : ((deskService oneProduct).run (.start (Desk.start (oneCustomer 0))) undoneOnce).any
      (fun h => h.now.inFlight.rows.isEmpty && (h.now.db.packages.get? 1).any fun p =>
        decide (p.status = .active)) = true := by
    decide +kernel
  obtain ⟨h, hh, hp⟩ := (Option.any_eq_true _ _).1 hrun
  simp only [Bool.and_eq_true, Option.any_eq_true, List.isEmpty_iff, decide_eq_true_eq] at hp
  obtain ⟨hquiet, p, hk, hactive⟩ := hp
  exact ⟨h, p, hh, hk, hactive, packageSessions_counted hh (by decide +kernel) hquiet hk⟩

/-- One of the sessions is undone by two requests that both read it before either marks it. -/
def undoneTwice : List DeskRequest :=
  bothUsed ++ [.startUndo (owner 2) 1 fun _ => 0, .startUndo (owner 2) 1 fun _ => 0, .finish 3,
    .finish 4]

/-- Both sessions come back, and one row stays active. -/
theorem undoneTwice_drifts : ∃ h p,
    (deskService oneProduct).run (.start (Desk.start (oneCustomer 0))) undoneTwice = some h ∧
    h.now.quiescent ∧ h.now.db.packages.get? 1 = some p ∧ p.usedSessions = 0 ∧
    (activeUsesOf h.now.db.packageUses 1).length = 1 := by
  have hrun : ((deskService oneProduct).run (.start (Desk.start (oneCustomer 0))) undoneTwice).any
      (fun h => h.now.inFlight.rows.isEmpty && ((h.now.db.packages.get? 1).any fun p =>
        decide (p.usedSessions = 0)) &&
        decide ((activeUsesOf h.now.db.packageUses 1).length = 1)) = true := by
    decide +kernel
  obtain ⟨h, hh, hp⟩ := (Option.any_eq_true _ _).1 hrun
  simp only [Bool.and_eq_true, Option.any_eq_true, List.isEmpty_iff, decide_eq_true_eq] at hp
  obtain ⟨⟨hquiet, p, hk, hused⟩, hrows⟩ := hp
  exact ⟨h, p, hh, hquiet, hk, hused, hrows⟩

end Barbershop
