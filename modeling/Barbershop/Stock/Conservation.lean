import Barbershop.Stock.Movements

/-!
# Conservation of stock

`StockLaw` is the invariant: the quantity of every product is the sum of its movements, it is what
was entered by hand less what the existing sales sell, and the movements of each sale add up to
exactly what its items sell now. The last part is what makes a deletion exact: however often the
sale was edited, reversing its movements gives back what its items had taken.
-/

namespace Barbershop

open Lib

/-- Was the movement entered by hand? -/
def InventoryMovement.byHand (m : InventoryMovement) : Bool := m.referenceType == .manual

/-- What the existing sales of a unit sell of a product. -/
def soldOf (sales : Table Sale) (k : ℕ × ℕ) : ℚ :=
  sales.sum fun _ s => if s.barbershopId = k.1 then (productQuantity s.items k.2 : ℚ) else 0

structure StockLaw (cat : Catalog) (sales : Table Sale) (st : Stock) : Prop where
  total : stockJournal.Reconciled st
  net : ∀ k : ℕ × ℕ, st.quantity k.1 k.2 =
    changeOf k (st.movements.filter (·.byHand)) - soldOf sales k
  ofSale : ∀ id s, sales.get? id = some s → ∀ k, changeOf k (st.movements.filter (·.ofSale id)) =
    if s.barbershopId = k.1 then -(productQuantity s.items k.2 : ℚ) else 0
  fresh : ∀ m ∈ st.movements, ∀ id, m.ofSale id = true → id < sales.next
  known : ∀ id s, sales.get? id = some s → KnownProducts cat s.items

theorem ofSale_eq_true {m : InventoryMovement} {id : ℕ} (h : m.ofSale id = true) :
    m.referenceType = .sale ∧ m.referenceId = some id := by
  simp only [InventoryMovement.ofSale, Bool.and_eq_true, beq_iff_eq] at h
  exact h.1

theorem ofSale_unique {m : InventoryMovement} {id j : ℕ} (h : m.ofSale id = true) (hne : j ≠ id) :
    m.ofSale j = false := by
  rw [Bool.eq_false_iff]
  intro hj
  have := (ofSale_eq_true h).2.symm.trans (ofSale_eq_true hj).2
  exact hne (Option.some.inj this).symm

theorem byHand_of_ofSale {m : InventoryMovement} {id : ℕ} (h : m.ofSale id = true) :
    m.byHand = false := by
  simp [InventoryMovement.byHand, (ofSale_eq_true h).1]

/-! ## Sales tables -/

theorem soldOf_modify {sales : Table Sale} {id : ℕ} {s : Sale} {f : Sale → Sale}
    (hs : sales.get? id = some s) (hshop : (f s).barbershopId = s.barbershopId) (k : ℕ × ℕ) :
    soldOf (sales.modify id f) k = soldOf sales k + if s.barbershopId = k.1 then
      (productQuantity (f s).items k.2 : ℚ) - productQuantity s.items k.2 else 0 := by
  have h := Table.sum_modify f (fun _ s => if s.barbershopId = k.1 then
    (productQuantity s.items k.2 : ℚ) else 0) hs
  rw [hshop] at h
  unfold soldOf
  split at h
  · next hk => simp only [hk, if_true]; linarith
  · next hk => simp only [hk, if_false]; linarith

theorem productQuantity_of_none {items : List SaleItem} (h : ∀ i ∈ items, i.productId = none)
    (p : ℕ) : productQuantity items p = 0 := by
  induction items with
  | nil => rfl
  | cons i items ih =>
    rw [productQuantity_cons, ih fun j hj => h j (List.mem_cons_of_mem _ hj)]
    simp [SaleItem.productQuantity, h i List.mem_cons_self]

namespace StockLaw

variable {cat : Catalog} {sales : Table Sale} {st st' : Stock}

/-- A new sale whose movements take what its items sell. -/
theorem insert (h : StockLaw cat sales st) {s : Sale} (hknown : KnownProducts cat s.items)
    {new : List InventoryMovement} (hrec : stockJournal.Recorded st st' new)
    (hsale : ∀ m ∈ new, m.ofSale sales.next = true)
    (hchange : ∀ k, changeOf k new =
      if s.barbershopId = k.1 then -(productQuantity s.items k.2 : ℚ) else 0) :
    StockLaw cat (sales.insert s) st' where
  total := h.total.recorded hrec
  net k := by
    have hmov : st'.movements = st.movements ++ new := hrec.log
    have hq : st'.quantity k.1 k.2 = st.quantity k.1 k.2 + changeOf k new := hrec.level k
    have hsum : soldOf (sales.insert s) k = soldOf sales k +
        if s.barbershopId = k.1 then (productQuantity s.items k.2 : ℚ) else 0 :=
      Table.sum_insert ..
    have hhand := Journal.total_filter_of_not (j := stockJournal)
      (fun m hm => byHand_of_ofSale (hsale m hm)) k st.movements
    rw [hq, h.net k, hmov, hsum, hchange k]
    unfold changeOf at hhand ⊢
    rw [hhand]
    split <;> ring
  ofSale id a ha k := by
    have hmov : st'.movements = st.movements ++ new := hrec.log
    rw [Table.get?_insert] at ha
    split at ha
    · next hid =>
      subst hid
      obtain rfl := Option.some.inj ha
      have hnone : st.movements.filter (·.ofSale sales.next) = [] :=
        List.filter_eq_nil_iff.2 fun m hm hof => Nat.lt_irrefl _ (h.fresh m hm _ hof)
      have := Journal.total_filter_of_forall (j := stockJournal) hsale k st.movements
      rw [hnone, Journal.total_nil, zero_add] at this
      rw [hmov]
      exact this.trans (hchange k)
    · next hid =>
      rw [hmov]
      exact (Journal.total_filter_of_not (fun m hm => ofSale_unique (hsale m hm) hid) k _).trans
        (h.ofSale id a ha k)
  fresh m hm id hof := by
    have hmov : st'.movements = st.movements ++ new := hrec.log
    rw [hmov] at hm
    rw [Table.next_insert]
    rcases List.mem_append.1 hm with hm | hm
    · exact Nat.lt_succ_of_lt (h.fresh m hm id hof)
    · have := (ofSale_eq_true (hsale m hm)).2.symm.trans (ofSale_eq_true hof).2
      rw [Option.some.inj this]
      exact Nat.lt_succ_self _
  known id a ha := by
    rw [Table.get?_insert] at ha
    split at ha
    · obtain rfl := Option.some.inj ha
      exact hknown
    · exact h.known id a ha

/-- An edit of a sale whose movements take the difference of what its items sell. -/
theorem modify (h : StockLaw cat sales st) {id : ℕ} {s : Sale} (hs : sales.get? id = some s)
    {f : Sale → Sale} (hshop : (f s).barbershopId = s.barbershopId)
    (hknown : KnownProducts cat (f s).items) {new : List InventoryMovement}
    (hrec : stockJournal.Recorded st st' new) (hsale : ∀ m ∈ new, m.ofSale id = true)
    (hchange : ∀ k, changeOf k new = if s.barbershopId = k.1 then
      -((productQuantity (f s).items k.2 : ℚ) - productQuantity s.items k.2) else 0) :
    StockLaw cat (sales.modify id f) st' where
  total := h.total.recorded hrec
  net k := by
    have hmov : st'.movements = st.movements ++ new := hrec.log
    have hq : st'.quantity k.1 k.2 = st.quantity k.1 k.2 + changeOf k new := hrec.level k
    have hhand := Journal.total_filter_of_not (j := stockJournal)
      (fun m hm => byHand_of_ofSale (hsale m hm)) k st.movements
    rw [hq, h.net k, hmov, soldOf_modify hs hshop, hchange k]
    unfold changeOf at hhand ⊢
    rw [hhand]
    split <;> ring
  ofSale j a ha k := by
    have hmov : st'.movements = st.movements ++ new := hrec.log
    rw [Table.get?_modify] at ha
    split at ha
    · next hj =>
      subst hj
      obtain rfl : f s = a := by simpa [hs] using ha
      have := Journal.total_filter_of_forall (j := stockJournal) hsale k st.movements
      rw [hmov, hshop]
      refine this.trans ?_
      have hold := h.ofSale j s hs k
      have hnew := hchange k
      unfold changeOf at hold hnew
      rw [hold, hnew]
      split <;> ring
    · next hj =>
      rw [hmov]
      exact (Journal.total_filter_of_not (fun m hm => ofSale_unique (hsale m hm) hj) k _).trans
        (h.ofSale j a ha k)
  fresh m hm j hof := by
    have hmov : st'.movements = st.movements ++ new := hrec.log
    rw [hmov] at hm
    rw [Table.next_modify]
    rcases List.mem_append.1 hm with hm | hm
    · exact h.fresh m hm j hof
    · have := (ofSale_eq_true (hsale m hm)).2.symm.trans (ofSale_eq_true hof).2
      rw [← Option.some.inj this]
      exact Table.lt_next_of_get? hs
  known j a ha := by
    rw [Table.get?_modify] at ha
    split at ha
    · next hj =>
      subst hj
      obtain rfl : f s = a := by simpa [hs] using ha
      exact hknown
    · exact h.known j a ha

/-- A deletion that gives back what the movements of the sale had taken. -/
theorem erase (h : StockLaw cat sales st) {id : ℕ} {s : Sale} (hs : sales.get? id = some s)
    {new : List InventoryMovement} (hrec : stockJournal.Recorded st st' new)
    (htype : ∀ m ∈ new, m.referenceType = .saleDeleted)
    (hchange : ∀ k, changeOf k new = -changeOf k (st.movements.filter (·.ofSale id))) :
    StockLaw cat (sales.erase id) st' where
  total := h.total.recorded hrec
  net k := by
    have hmov : st'.movements = st.movements ++ new := hrec.log
    have hq : st'.quantity k.1 k.2 = st.quantity k.1 k.2 + changeOf k new := hrec.level k
    have hsum : soldOf (sales.erase id) k +
        (if s.barbershopId = k.1 then (productQuantity s.items k.2 : ℚ) else 0) = soldOf sales k :=
      Table.sum_erase (fun _ (s : Sale) => if s.barbershopId = k.1 then
        (productQuantity s.items k.2 : ℚ) else 0) hs
    have hnot : ∀ m ∈ new, m.byHand = false := fun m hm => by
      simp [InventoryMovement.byHand, htype m hm]
    have hhand := Journal.total_filter_of_not (j := stockJournal) hnot k st.movements
    rw [hq, h.net k, hmov, hchange k, h.ofSale id s hs k, ← hsum]
    unfold changeOf at hhand ⊢
    rw [hhand]
    split <;> ring
  ofSale j a ha k := by
    have hmov : st'.movements = st.movements ++ new := hrec.log
    rw [Table.get?_erase] at ha
    split at ha
    · cases ha
    · rw [hmov]
      refine (Journal.total_filter_of_not (fun m hm => ?_) k _).trans (h.ofSale j a ha k)
      simp [InventoryMovement.ofSale, htype m hm]
  fresh m hm j hof := by
    have hmov : st'.movements = st.movements ++ new := hrec.log
    rw [hmov] at hm
    rw [Table.next_erase]
    rcases List.mem_append.1 hm with hm | hm
    · exact h.fresh m hm j hof
    · have := (htype m hm).symm.trans (ofSale_eq_true hof).1
      cases this
  known j a ha := by
    rw [Table.get?_erase] at ha
    split at ha
    · cases ha
    · exact h.known j a ha

/-- Movements entered by hand. -/
theorem byHand (h : StockLaw cat sales st) {new : List InventoryMovement}
    (hrec : stockJournal.Recorded st st' new) (hhand : ∀ m ∈ new, m.byHand = true) :
    StockLaw cat sales st' where
  total := h.total.recorded hrec
  net k := by
    have hmov : st'.movements = st.movements ++ new := hrec.log
    have hq : st'.quantity k.1 k.2 = st.quantity k.1 k.2 + changeOf k new := hrec.level k
    have hfilter := Journal.total_filter_of_forall (j := stockJournal) hhand k st.movements
    rw [hq, h.net k, hmov]
    unfold changeOf
    rw [hfilter]
    ring
  ofSale id a ha k := by
    have hmov : st'.movements = st.movements ++ new := hrec.log
    rw [hmov]
    refine (Journal.total_filter_of_not (fun m hm => ?_) k _).trans (h.ofSale id a ha k)
    rw [Bool.eq_false_iff]
    intro hof
    exact absurd (hhand m hm) (by simp [byHand_of_ofSale hof])
  fresh m hm id hof := by
    have hmov : st'.movements = st.movements ++ new := hrec.log
    rw [hmov] at hm
    rcases List.mem_append.1 hm with hm | hm
    · exact h.fresh m hm id hof
    · exact absurd (hhand m hm) (by simp [byHand_of_ofSale hof])
  known := h.known

/-- A new sale without products. -/
theorem insert_plain (h : StockLaw cat sales st) {s : Sale} (hs : ∀ i ∈ s.items, i.productId = none) :
    StockLaw cat (sales.insert s) st := by
  refine h.insert (fun i hi p hp => ?_) (Journal.Recorded.refl st) (by simp) fun k => ?_
  · rw [hs i hi] at hp
    cases hp
  · simp [productQuantity_of_none hs]

/-- A write to a sale that keeps the unit and what the items sell. -/
theorem modify_plain (h : StockLaw cat sales st) {id : ℕ} {s : Sale}
    (hs : sales.get? id = some s) {f : Sale → Sale} (hshop : (f s).barbershopId = s.barbershopId)
    (hknown : KnownProducts cat s.items → KnownProducts cat (f s).items)
    (hq : ∀ p, productQuantity (f s).items p = productQuantity s.items p) :
    StockLaw cat (sales.modify id f) st :=
  h.modify hs hshop (hknown (h.known id s hs)) (Journal.Recorded.refl st) (by simp) fun k => by
    simp [hq]

end StockLaw

/-! ## One request -/

theorem reprice_productQuantity (r : Refund) (items : List SaleItem) (p : ℕ) :
    productQuantity (r.reprice items) p = productQuantity items p := by
  cases items with
  | nil => rfl
  | cons first rest =>
    simp only [Refund.reprice, productQuantity, List.map_cons, List.map_map]
    rfl

theorem reprice_known {cat : Catalog} (r : Refund) {items : List SaleItem}
    (h : KnownProducts cat items) : KnownProducts cat (r.reprice items) := by
  cases items with
  | nil => exact h
  | cons first rest =>
    intro i hi p hp
    rcases List.mem_cons.1 hi with rfl | hi
    · exact h first List.mem_cons_self p hp
    · obtain ⟨j, hj, rfl⟩ := List.mem_map.1 hi
      exact h j (List.mem_cons_of_mem _ hj) p hp

/-- Rewriting the points of a sale keeps its unit and its items. -/
theorem lowerEarned_items (r : Refund) (network : Network) (s : Sale) :
    (r.lowerEarned network s).barbershopId = s.barbershopId ∧
      (r.lowerEarned network s).items = s.items := by
  unfold Refund.lowerEarned
  split <;> exact ⟨rfl, rfl⟩

theorem StockLaw.refund {cat : Catalog} {sales : Table Sale} {st : Stock}
    (h : StockLaw cat sales st) (r : Refund) (ctx : Caller) {saleId : ℕ} (openSession : Option ℕ)
    {s : Sale} (hs : sales.get? saleId = some s) :
    StockLaw cat (r.sales ctx saleId openSession sales) st := by
  have hlower := lowerEarned_items r ctx.shop.network
  unfold Refund.sales
  split
  · have hinsert : StockLaw cat
        (if 0 < r.amount then sales.insert (r.sale ctx saleId openSession) else sales) st := by
      split
      · exact h.insert_plain (by simp [Refund.sale])
      · exact h
    have hget : (if 0 < r.amount then sales.insert (r.sale ctx saleId openSession)
        else sales).get? saleId = some s := by
      split
      · exact Table.get?_insert_of_some _ hs
      · exact hs
    exact hinsert.modify_plain hget (hlower s).1 (fun hk => (hlower s).2 ▸ hk)
      fun p => by rw [(hlower s).2]
  · refine h.modify_plain hs (hlower _).1 (fun hk => ?_) fun p => ?_
    · unfold Refund.lower
      rw [(hlower _).2]
      exact reprice_known r hk
    · unfold Refund.lower
      rw [(hlower _).2]
      exact reprice_productQuantity r s.items p

/-- A manual entry that succeeds records its change, or nothing, and leaves no negative quantity. -/
theorem recorded_adjustStock {ctx : Caller} {unit : String} {data : InventoryInput} {st : Stock}
    (hcounted : ∀ c ∈ data.countedQuantity, 0 ≤ c)
    (hgiven : data.countedQuantity = none → data.quantityChange.getD 0 ≠ 0)
    (h : (adjustStock ctx unit data st).1 = .ok ()) :
    ∃ new, stockJournal.Recorded st (adjustStock ctx unit data st).2 new ∧
      (∀ m ∈ new, m.byHand = true) ∧
      0 ≤ (adjustStock ctx unit data st).2.quantity ctx.shop.id data.productId := by
  have hmark : ∀ st' : Stock, (markCounted st' ctx.shop.id data.productId unit ctx.now).quantity
      ctx.shop.id data.productId = st'.quantity ctx.shop.id data.productId := by
    intro st'
    simp [markCounted, quantity_setItem]
  rcases adjustStock_ok h with ⟨hzero, hst⟩ | ⟨hafter, hst⟩
  · -- only a count that confirms the quantity moves nothing
    rw [hst]
    refine ⟨[], recorded_markCounted .., by simp, ?_⟩
    rw [hmark]
    unfold InventoryInput.change at hzero
    cases hc : data.countedQuantity with
    | none =>
      rw [hc] at hzero
      exact absurd hzero (hgiven hc)
    | some counted =>
      rw [hc] at hzero
      have := hcounted counted hc
      linarith
  · rw [hst]
    have hmove := recorded_move st ctx.shop.id data.productId unit
      (data.change (st.quantity ctx.shop.id data.productId)) data.movement .manual none
    split
    · exact ⟨_, hmove.trans (recorded_markCounted ..), by simp [InventoryMovement.byHand],
        by rwa [hmark]⟩
    · exact ⟨_, hmove, by simp [InventoryMovement.byHand], hafter⟩

theorem recorded_adjustInventory {cat : Catalog} {ctx : Caller} {data : InventoryInput} {db : Db}
    (h : (adjustInventory cat ctx data db).1 = .ok ()) :
    ∃ new, stockJournal.Recorded db.stock (adjustInventory cat ctx data db).2.stock new ∧
      (∀ m ∈ new, m.byHand = true) ∧
      0 ≤ (adjustInventory cat ctx data db).2.stock.quantity ctx.shop.id data.productId := by
  unfold adjustInventory at h ⊢
  cases hcheck : checkAdjust cat ctx data with
  | error e =>
    simp only [hcheck] at h
    cases h
  | ok product =>
    simp only [hcheck] at h ⊢
    have hrun := transaction_ok h
    rw [hrun] at h ⊢
    simp only [checkAdjust, bind_eq_ok, exists_punit, refuseIf_eq_ok] at hcheck
    obtain ⟨-, -, -, hcounted, hgiven, -⟩ := hcheck
    push Not at hcounted hgiven
    exact recorded_adjustStock hcounted hgiven h

/-- Every request keeps the law. -/
theorem stockLaw_step {cat : Catalog} {r : Request} {db db' : Db}
    (hI : StockLaw cat db.sales db.stock) (h : (service cat).step db r = some db') :
    StockLaw cat db'.sales db'.stock := by
  rw [service_step] at h
  cases hr : r.plain with
  | true =>
    have hf := plain_frame hr h
    rw [hf.stock]
    rcases hf.sales with hs | ⟨s, hs, hinsert⟩
    · rwa [hs]
    · rw [hinsert]
      exact hI.insert_plain hs.products
  | false =>
    cases r with
    | createSale ctx data =>
      change createSale cat ctx data (fun _ => db) db = .ok db' at h
      obtain ⟨plan, hplan, hcommit⟩ := createSale_ok h
      obtain ⟨cards, club, packages, customers, -, -, -, -, rfl⟩ := commitSale_ok hcommit
      have hknown : KnownProducts cat plan.data.items := by
        intro i hi p hp
        rw [hplan.data_eq] at hi
        obtain ⟨c, hc, -⟩ := hplan.products i hi p hp
        simp [hc]
      obtain ⟨new, hrec, hsale, hchange⟩ :=
        recorded_sellItems ctx.shop.id db.sales.next db.stock hknown
      exact hI.insert (s := plan.sale ctx) hknown hrec hsale hchange
    | updateSale ctx saleId data =>
      change updateSale cat ctx saleId data (fun _ => db) db = .ok db' at h
      obtain ⟨e, -, he, hcommit⟩ := updateSale_ok h
      obtain ⟨s, hs, rfl⟩ := commitEdit_ok hcommit
      obtain rfl : s = e.existing := Option.some.inj (hs.symm.trans he.existing)
      cases hitems : e.data.items with
      | none =>
        have hstock : e.moveStock cat ctx saleId e.existing db.stock = db.stock := by
          simp [SaleEdit.moveStock, hitems]
        have hrow : (e.row ctx e.existing).items = e.existing.items := by
          simp [SaleEdit.row, hitems]
        simp only [hstock]
        exact hI.modify_plain hs rfl (fun hk => hrow ▸ hk) fun p => by rw [hrow]
      | some items =>
        have hknown : KnownProducts cat items := by
          intro i hi p hp
          obtain ⟨c, hc, -⟩ := he.products items hitems i hi p hp
          simp [hc]
        have hrow : (e.row ctx e.existing).items = items := by simp [SaleEdit.row, hitems]
        obtain ⟨new, hrec, hsale, hchange⟩ := recorded_applySaleStockDelta ctx.shop.id saleId
          db.stock (hI.known saleId _ hs) hknown
        have hstock : e.moveStock cat ctx saleId e.existing db.stock =
            applySaleStockDelta cat ctx.shop.id saleId e.existing.items items db.stock := by
          simp [SaleEdit.moveStock, hitems]
        refine hI.modify hs rfl (hrow ▸ hknown) (hstock ▸ hrec) hsale fun k => ?_
        rw [hrow, he.ofShop]
        exact hchange k
    | deleteSale ctx saleId =>
      change deleteSale ctx saleId (fun _ => db) db = .ok db' at h
      obtain ⟨existing, packages, cards, s, -, -, -, hs, rfl⟩ := deleteSale_ok h
      obtain ⟨new, hrec, htype, hchange⟩ := recorded_returnStock saleId db.stock
      exact hI.erase hs hrec htype hchange
    | refundIssuedRemainder ctx saleId =>
      change refundIssuedRemainder ctx saleId (fun _ => db) db = .ok db' at h
      obtain ⟨existing, s, -, -, -, hs, r, packages, cards, -, -, rfl⟩ :=
        refundIssuedRemainder_ok h
      exact hI.refund r ctx _ hs
    | adjustInventory ctx data =>
      obtain ⟨u, hok, rfl⟩ := map_eq_ok.1 h
      obtain ⟨new, hrec, hhand, -⟩ := recorded_adjustInventory hok
      obtain ⟨st, hst⟩ := adjustInventory_frame cat ctx data db
      have hsales : (adjustInventory cat ctx data db).2.sales = db.sales := by rw [hst]
      rw [hsales]
      exact hI.byHand hrec hhand
    | _ => cases hr

/-! ## Runs -/

/-- No sale was made and no stock moved yet. -/
structure NoStock (db : Db) : Prop where
  sales : db.sales.rows = []
  inventory : ∀ u p, db.inventory u p = none
  movements : db.movements = []

theorem NoStock.law {cat : Catalog} {db : Db} (h : NoStock db) :
    StockLaw cat db.sales db.stock := by
  have hget : ∀ k, db.sales.get? k = none := fun k => by simp [Table.get?, h.sales]
  have hmov : db.stock.movements = [] := h.movements
  have hq : ∀ u p, db.stock.quantity u p = 0 := fun u p => by
    simp [Stock.quantity, Db.stock, h.inventory]
  constructor
  · intro k
    change db.stock.quantity k.1 k.2 = changeOf k db.stock.movements
    rw [hq, hmov]
    rfl
  · intro k
    rw [hq, hmov]
    simp [soldOf, Table.sum, h.sales, changeOf]
  · intro id s hs
    rw [hget] at hs
    cases hs
  · rw [hmov]
    simp
  · intro id s hs
    rw [hget] at hs
    cases hs

theorem stockLaw_run {cat : Catalog} {db db' : Db} {rs : List Request} (hstart : NoStock db)
    (h : (service cat).run db rs = some db') : StockLaw cat db'.sales db'.stock :=
  (service cat).run_inv (I := fun db => StockLaw cat db.sales db.stock) stockLaw_step hstart.law h

/-- An entry that is refused leaves the database as it was. -/
theorem adjustInventory_refused {cat : Catalog} {ctx : Caller} {data : InventoryInput} {db : Db}
    {e : Refusal} (h : (adjustInventory cat ctx data db).1 = .error e) :
    (adjustInventory cat ctx data db).2 = db := by
  unfold adjustInventory at h ⊢
  cases hcheck : checkAdjust cat ctx data with
  | error e => rfl
  | ok product =>
    simp only [hcheck] at h ⊢
    rw [transaction_error h]
    rfl

/-- A deletion moves the stock by minus what the movements of the sale had done. -/
theorem deleteSale_restores {ctx : Caller} {saleId : ℕ} {db db' : Db}
    (h : deleteSale ctx saleId (fun _ => db) db = .ok db') (u p : ℕ) :
    db'.stock.quantity u p = db.stock.quantity u p -
      changeOf (u, p) (db.movements.filter (·.ofSale saleId)) := by
  obtain ⟨existing, packages, cards, s, -, -, -, -, rfl⟩ := deleteSale_ok h
  obtain ⟨new, hrec, -, hchange⟩ := recorded_returnStock saleId db.stock
  refine (hrec.level (u, p)).trans ?_
  have hk := hchange (u, p)
  unfold changeOf at hk
  rw [hk, ← sub_eq_add_neg]
  rfl

/-- Conservation: in every state a run reaches from an empty stock, each quantity is the sum of its
movements and what was entered by hand less what the existing sales sell; a deletion then gives back
exactly what the sale had taken, which is what its items sell now; and a manual entry leaves no
negative quantity when it succeeds and the database as it was when it fails. -/
theorem stock_conserved (cat : Catalog) {db db' : Db} {rs : List Request} (hstart : NoStock db)
    (h : (service cat).run db rs = some db') :
    (∀ u p, db'.stock.quantity u p = changeOf (u, p) db'.movements) ∧
    (∀ u p, db'.stock.quantity u p =
      changeOf (u, p) (db'.movements.filter (·.byHand)) - soldOf db'.sales (u, p)) ∧
    (∀ ctx saleId s db'', db'.sales.get? saleId = some s →
      deleteSale ctx saleId (fun _ => db') db' = .ok db'' → ∀ u p,
        db''.stock.quantity u p = db'.stock.quantity u p -
          changeOf (u, p) (db'.movements.filter (·.ofSale saleId)) ∧
        -changeOf (u, p) (db'.movements.filter (·.ofSale saleId)) =
          if s.barbershopId = u then (productQuantity s.items p : ℚ) else 0) ∧
    ∀ ctx data,
      ((adjustInventory cat ctx data db').1 = .ok () →
        0 ≤ (adjustInventory cat ctx data db').2.stock.quantity ctx.shop.id data.productId) ∧
      ∀ e, (adjustInventory cat ctx data db').1 = .error e →
        (adjustInventory cat ctx data db').2 = db' := by
  have hlaw := stockLaw_run hstart h
  refine ⟨fun u p => hlaw.total (u, p), fun u p => hlaw.net (u, p), ?_, fun ctx data => ⟨?_, ?_⟩⟩
  · intro ctx saleId s db'' hs hdelete u p
    refine ⟨deleteSale_restores hdelete u p, ?_⟩
    have hof := hlaw.ofSale saleId s hs (u, p)
    change changeOf (u, p) (db'.movements.filter (·.ofSale saleId)) = _ at hof
    rw [hof]
    split <;> simp
  · intro hok
    obtain ⟨new, -, -, hnonneg⟩ := recorded_adjustInventory hok
    exact hnonneg
  · exact fun e he => adjustInventory_refused he

/-- A line of the product. -/
def bottles (quantity : ℤ) : SaleItem where
  itemType := .product
  serviceId := none
  productId := some 1
  serviceHistoryId := none
  quantity := quantity
  unitPrice := 10
  totalPrice := 10 * quantity
  notes := none

/-- Ten bottles come in; a sale takes three and then one in two lines, is edited to two and then
to a haircut, sells four again and is deleted. -/
def bottleRun : List Request :=
  [.adjustInventory (owner 0)
    { productId := 1
      quantityChange := some 10
      countedQuantity := none
      movementType := some .purchase },
   .createSale (owner 0)
    { haircutSale none 40 with
      saleType := .product
      items := [bottles 3, bottles 1] },
   .updateSale (owner 0) 1 { SalePatch.none with items := some [bottles 2] },
   .updateSale (owner 0) 1 { SalePatch.none with items := some [haircut 20] },
   .updateSale (owner 0) 1 { SalePatch.none with items := some [bottles 4] },
   .deleteSale (owner 0) 1]

theorem bottleRun_conserved : ∃ db, (service oneProduct).run (oneCustomer 0) bottleRun = some db ∧
    db.stock.quantity 1 1 = changeOf (1, 1) db.movements := by
  have h : ((service oneProduct).run (oneCustomer 0) bottleRun).isSome := by decide +kernel
  obtain ⟨db, hdb⟩ := Option.isSome_iff_exists.1 h
  exact ⟨db, hdb, (stock_conserved oneProduct ⟨rfl, fun _ _ => rfl, rfl⟩ hdb).1 1 1⟩

end Barbershop
