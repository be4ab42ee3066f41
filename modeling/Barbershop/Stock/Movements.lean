import Barbershop.Lib.Journal
import Barbershop.Service

/-!
# Stock movements

The stock is a journal: the quantity of a product in a unit moves only by the movements that are
recorded with it. Each stock operation of a sale has one lemma that says what it records: a new sale
and an edit record movements of the sale that add up to minus the units they sell, a deletion records
movements that add up to what the sale's movements had taken.
-/

namespace Barbershop

open Lib

/-- The stock as a journal: quantities under unit and product, moved by inventory movements. -/
def stockJournal : Journal Stock InventoryMovement (ℕ × ℕ) ℚ where
  log st := st.movements
  level st k := st.quantity k.1 k.2
  amount m k := if m.barbershopId = k.1 ∧ m.productId = k.2 then m.quantityChange else 0

/-- What a list of movements does to a product of a unit. -/
abbrev changeOf (k : ℕ × ℕ) (ms : List InventoryMovement) : ℚ := stockJournal.total k ms

theorem recorded_move (st : Stock) (shop product : ℕ) (unit : String) (change : ℚ)
    (movementType : MovementType) (referenceType : ReferenceType) (referenceId : Option ℕ) :
    stockJournal.Recorded st
      (st.move shop product unit change movementType referenceType referenceId)
      [{ barbershopId := shop, productId := product, movementType := movementType,
         quantityChange := change, quantityBefore := st.quantity shop product,
         quantityAfter := st.quantity shop product + change, referenceType := referenceType,
         referenceId := referenceId }] where
  log := rfl
  level k := by
    have hq := quantity_setItem st shop product
      { quantity := st.quantity shop product + change, unit := unit,
        lastCountedAt := (st.inventory shop product).bind (·.lastCountedAt) } k.1 k.2
    rw [Journal.total_cons, Journal.total_nil, add_zero]
    refine hq.trans ?_
    simp only [stockJournal]
    by_cases hk : shop = k.1 ∧ product = k.2
    · rw [if_pos ⟨hk.1.symm, hk.2.symm⟩, if_pos hk, hk.1, hk.2]
    · rw [if_neg fun h => hk ⟨h.1.symm, h.2.symm⟩, if_neg hk, add_zero]

theorem recorded_markCounted (st : Stock) (shop product : ℕ) (unit : String) (countedAt : ℤ) :
    stockJournal.Recorded st (markCounted st shop product unit countedAt) [] where
  log := by rw [List.append_nil]; rfl
  level k := by
    rw [Journal.total_nil, add_zero]
    refine (quantity_setItem st shop product _ k.1 k.2).trans ?_
    split
    · next hk => simp [stockJournal, hk]
    · rfl

/-- What selling `units` of a product records: one movement of the sale, which takes them. -/
theorem recorded_sellProduct {cat : Catalog} (shop saleId : ℕ) (st : Stock) {productId : ℕ}
    (units : ℤ) (hknown : (cat.products productId).isSome) :
    ∃ new, stockJournal.Recorded st (sellProduct cat shop saleId st productId units) new ∧
      (∀ m ∈ new, m.ofSale saleId = true) ∧
      ∀ k, changeOf k new = if shop = k.1 ∧ productId = k.2 then -(units : ℚ) else 0 := by
  obtain ⟨product, hproduct⟩ := Option.isSome_iff_exists.1 hknown
  unfold sellProduct
  rw [hproduct]
  refine ⟨_, recorded_move .., ?_, fun k => ?_⟩
  · intro m hm
    obtain rfl := List.mem_singleton.1 hm
    simp [InventoryMovement.ofSale]
  · simp [stockJournal]

/-- The products of the lines that are for sale from the stock are in the catalog. -/
def KnownProducts (cat : Catalog) (items : List SaleItem) : Prop :=
  ∀ i ∈ items, ∀ p, i.productId = some p → (cat.products p).isSome

theorem KnownProducts.productIds {cat : Catalog} {items : List SaleItem}
    (h : KnownProducts cat items) {p : ℕ} (hp : p ∈ productIds items) :
    (cat.products p).isSome := by
  simp only [Barbershop.productIds, List.mem_eraseDups, List.mem_filterMap] at hp
  obtain ⟨i, hi, hp⟩ := hp
  split at hp
  · exact h i hi p hp
  · cases hp

theorem sum_productQuantity (shop : ℕ) (items : List SaleItem) (k : ℕ × ℕ) :
    (items.map fun i => if shop = k.1 then -((i.productQuantity k.2 : ℤ) : ℚ) else 0).sum =
      if shop = k.1 then -(productQuantity items k.2 : ℚ) else 0 := by
  induction items with
  | nil => simp
  | cons i items ih =>
    rw [List.map_cons, List.sum_cons, ih]
    split
    · push_cast [productQuantity_cons]
      ring
    · simp

/-- What one line of a new sale takes from the stock. -/
def sellItem (cat : Catalog) (shop saleId : ℕ) (st : Stock) (i : SaleItem) : Stock :=
  if i.itemType = .product then
    match i.productId with
    | none => st
    | some p => sellProduct cat shop saleId st p i.quantity
  else st

theorem recorded_sellItem {cat : Catalog} (shop saleId : ℕ) (st : Stock) {i : SaleItem}
    (hknown : ∀ p, i.productId = some p → (cat.products p).isSome) :
    ∃ new, stockJournal.Recorded st (sellItem cat shop saleId st i) new ∧
      (∀ m ∈ new, m.ofSale saleId = true) ∧
      ∀ k, changeOf k new = if shop = k.1 then -((i.productQuantity k.2 : ℤ) : ℚ) else 0 := by
  have hnone : (i.itemType ≠ .product ∨ i.productId = none) →
      ∃ new, stockJournal.Recorded st st new ∧ (∀ m ∈ new, m.ofSale saleId = true) ∧
      ∀ k, changeOf k new = if shop = k.1 then -((i.productQuantity k.2 : ℤ) : ℚ) else 0 := by
    intro h
    refine ⟨[], Journal.Recorded.refl st, by simp, fun k => ?_⟩
    rcases h with h | h <;> simp [SaleItem.productQuantity, h]
  unfold sellItem
  by_cases htype : i.itemType = .product
  · cases hp : i.productId with
    | none => simpa [htype] using hnone (.inr hp)
    | some p =>
      obtain ⟨new, hrec, hsale, hchange⟩ :=
        recorded_sellProduct shop saleId st i.quantity (hknown p hp)
      refine ⟨new, by simpa [htype] using hrec, hsale, fun k => ?_⟩
      rw [hchange]
      simp only [SaleItem.productQuantity, htype, hp, true_and, Option.some.injEq]
      by_cases hs : shop = k.1 <;> by_cases hk : p = k.2 <;> simp [hs, hk]
  · simpa [htype] using hnone (.inl htype)

/-- A new sale takes from the stock what its lines sell. -/
theorem recorded_sellItems {cat : Catalog} (shop saleId : ℕ) {items : List SaleItem} (st : Stock)
    (hknown : KnownProducts cat items) :
    ∃ new, stockJournal.Recorded st (sellItems cat shop saleId items st) new ∧
      (∀ m ∈ new, m.ofSale saleId = true) ∧
      ∀ k, changeOf k new = if shop = k.1 then -(productQuantity items k.2 : ℚ) else 0 := by
  have hfold : sellItems cat shop saleId items st = items.foldl (sellItem cat shop saleId) st := rfl
  rw [hfold]
  have hstep : ∀ st : Stock, ∀ i ∈ items, ∃ new,
      stockJournal.Recorded st (sellItem cat shop saleId st i) new ∧
      (∀ m ∈ new, m.ofSale saleId = true) ∧
      ∀ k, changeOf k new = if shop = k.1 then -((i.productQuantity k.2 : ℤ) : ℚ) else 0 :=
    fun st i hi => recorded_sellItem shop saleId st (hknown i hi)
  obtain ⟨new, hrec, hsale, hchange⟩ := Journal.Recorded.foldl items st hstep
  exact ⟨new, hrec, hsale, fun k => (hchange k).trans (sum_productQuantity shop items k)⟩

/-- An edit of the items takes the difference of what the lines sell. -/
theorem recorded_applySaleStockDelta {cat : Catalog} (shop saleId : ℕ) {before after : List SaleItem}
    (st : Stock) (hbefore : KnownProducts cat before) (hafter : KnownProducts cat after) :
    ∃ new, stockJournal.Recorded st (applySaleStockDelta cat shop saleId before after st) new ∧
      (∀ m ∈ new, m.ofSale saleId = true) ∧
      ∀ k, changeOf k new =
        if shop = k.1 then -((productQuantity after k.2 : ℚ) - productQuantity before k.2)
        else 0 := by
  let sold (p : ℕ) : ℤ := productQuantity after p - productQuantity before p
  have hstep : ∀ st : Stock, ∀ p ∈ (productIds before ++ productIds after).eraseDups, ∃ new,
      stockJournal.Recorded st
        (if sold p = 0 then st else sellProduct cat shop saleId st p (sold p)) new ∧
      (∀ m ∈ new, m.ofSale saleId = true) ∧
      ∀ k : ℕ × ℕ, changeOf k new =
        if p = k.2 then if shop = k.1 then -(sold k.2 : ℚ) else 0 else 0 := by
    intro st p hp
    have hknown : (cat.products p).isSome := by
      rcases List.mem_append.1 (List.mem_eraseDups.1 hp) with hp | hp
      · exact hbefore.productIds hp
      · exact hafter.productIds hp
    split
    · next hzero =>
      refine ⟨[], Journal.Recorded.refl st, by simp, fun k => ?_⟩
      by_cases hk : p = k.2
      · simp [← hk, hzero]
      · simp [hk]
    · obtain ⟨new, hrec, hsale, hchange⟩ := recorded_sellProduct shop saleId st (sold p) hknown
      refine ⟨new, hrec, hsale, fun k => ?_⟩
      rw [hchange]
      by_cases hs : shop = k.1 <;> by_cases hk : p = k.2 <;> simp [hs, hk]
  obtain ⟨new, hrec, hsale, hchange⟩ := Journal.Recorded.foldl _ st hstep
  refine ⟨new, hrec, hsale, fun k => ?_⟩
  refine (hchange k).trans ?_
  rw [sum_ite_of_nodup (nodup_eraseDups _)]
  split
  · simp [sold]
  · next hk =>
    -- a product that neither list sells has no quantity in either
    simp only [List.mem_eraseDups, List.mem_append, not_or] at hk
    simp [productQuantity_eq_zero hk.1, productQuantity_eq_zero hk.2]

/-- A deleted sale gives back what its movements had taken. -/
theorem recorded_returnStock (saleId : ℕ) (st : Stock) :
    ∃ new, stockJournal.Recorded st (returnStock saleId st) new ∧
      (∀ m ∈ new, m.referenceType = .saleDeleted) ∧
      ∀ k, changeOf k new = -changeOf k (st.movements.filter (·.ofSale saleId)) := by
  have hstep : ∀ st' : Stock, ∀ m ∈ st.movements.filter (·.ofSale saleId), ∃ new,
      stockJournal.Recorded st' (st'.move m.barbershopId m.productId
        (((st'.inventory m.barbershopId m.productId).map (·.unit)).getD "UNIT")
        (-m.quantityChange) .adjustment .saleDeleted (some saleId)) new ∧
      (∀ m ∈ new, m.referenceType = .saleDeleted) ∧
      ∀ k, changeOf k new = -stockJournal.amount m k := by
    intro st' m _
    refine ⟨_, recorded_move .., by simp, fun k => ?_⟩
    simp only [Journal.total_cons, Journal.total_nil, add_zero, stockJournal]
    split <;> simp
  obtain ⟨new, hrec, htype, hchange⟩ := Journal.Recorded.foldl _ st hstep
  refine ⟨new, hrec, htype, fun k => ?_⟩
  refine (hchange k).trans ?_
  unfold changeOf Journal.total
  rw [List.sum_neg, List.map_map]
  rfl

end Barbershop
