import Barbershop.GiftCard.Lifetime
import Barbershop.GiftCard.Refunds
import Barbershop.Lib.History

/-!
# The gift-card account under concurrency

The requests that touch gift cards, with reads of any earlier committed state: before a request
commits, any others commit between its reads. What its decisions rest on is either checked again by
a conditional update, or is something committed rows never change (`Later`): what a sale took from a
card, what it issued, and what a card was issued with.
-/

namespace Barbershop

open Lib

/-- A request, with how many commits ago each of its reads was. -/
inductive CardRequest where
  | createGiftCard (ctx : Caller) (data : GiftCardInput)
  | setGiftCardActive (networkId giftCardId : ℕ) (isActive : Bool)
  | purchaseClientPackage (ctx : Caller) (customerId : ℕ) (pkg : ServicePackage)
      (paymentMethod : Option PaymentMethod)
  | createSale (ctx : Caller) (data : SaleInput) (age : SaleRead → ℕ)
  | deleteSale (ctx : Caller) (saleId : ℕ) (age : DeleteRead → ℕ)
  | refundIssuedRemainder (ctx : Caller) (saleId : ℕ) (age : RefundRead → ℕ)
  /-- Anything else that writes no sale, gift card or package. -/
  | elsewhere (other : Db)

namespace CardRequest

def exec (cat : Catalog) (r : CardRequest) (seen : ℕ → Db) (db : Db) : Result Db :=
  match r with
  | .createGiftCard ctx data => Barbershop.createGiftCard ctx data db
  | .setGiftCardActive networkId giftCardId isActive =>
    Barbershop.setGiftCardActive networkId giftCardId isActive db
  | .purchaseClientPackage ctx customerId pkg method =>
    Barbershop.purchaseClientPackage ctx customerId pkg method db
  | .createSale ctx data age => Barbershop.createSale cat ctx data (fun r => seen (age r)) db
  | .deleteSale ctx saleId age => Barbershop.deleteSale ctx saleId (fun r => seen (age r)) db
  | .refundIssuedRemainder ctx saleId age =>
    Barbershop.refundIssuedRemainder ctx saleId (fun r => seen (age r)) db
  | .elsewhere other =>
    .ok { other with sales := db.sales, giftCards := db.giftCards, packages := db.packages }

/-- What a request gives back of card `k`: its balance, when it is cancelled with the sale that
issued it or its remainder refunded. -/
def givenBack (k : ℕ) (r : CardRequest) (seen : ℕ → Db) (db : Db) : ℚ :=
  match r with
  | .deleteSale _ saleId age => cancelledOf saleId (fun r => seen (age r)) db.giftCards k
  | .refundIssuedRemainder ctx saleId age =>
    (Barbershop.refundIssuedRemainder ctx saleId (fun r => seen (age r)) db).toOption.elim 0
      fun db' => balanceOf db.giftCards k - balanceOf db'.giftCards k
  | _ => 0

end CardRequest

/-- The requests interleaved in any order. -/
def cardService (cat : Catalog) : Machine (History Db) CardRequest := concurrent (CardRequest.exec cat)

/-! ## What holds of every committed state -/

/-- A package is linked to an existing package sale. -/
structure PackagesIssued (db : Db) : Prop where
  issued : ∀ k p x, db.packages.get? k = some p → p.saleId = some x →
    ∃ s, db.sales.get? x = some s ∧ s.saleType = .package

structure CardState (db : Db) : Prop where
  balanced : db.cardLedger.Balanced
  refunds : RefundLaw db.cardLedger
  packages : PackagesIssued db

/-- What committed rows never change. -/
structure Later (db db' : Db) : Prop where
  sales : db.sales.Evolves Sale.SameIssue db'.sales
  cards : ∀ k, (db.giftCards.get? k).isSome →
    (db'.giftCards.get? k).isSome ∧ initialOf db'.giftCards k = initialOf db.giftCards k

theorem Later.refl (db : Db) : Later db db := ⟨.refl Sale.SameIssue.refl _, fun _ h => ⟨h, rfl⟩⟩

theorem Later.trans {a b c : Db} (h : Later a b) (h' : Later b c) : Later a c where
  sales := h.sales.trans Sale.SameIssue.trans h'.sales
  cards k hk := by
    obtain ⟨hb, eb⟩ := h.cards k hk
    obtain ⟨hc, ec⟩ := h'.cards k hb
    exact ⟨hc, ec.trans eb⟩

theorem later_of_writes {db db' : Db} {g : ℕ → ℚ} (ws : CardWrites db.cardLedger db'.cardLedger g)
    (hsales : db.sales.Evolves Sale.SameIssue db'.sales) : Later db db' :=
  ⟨hsales, fun _ hk => ⟨ws.isSome_cards hk, ws.initialOf_eq hk⟩⟩

/-- The row of a sale that an earlier state had and the current one still has. -/
theorem Later.same_sale {p db : Db} (h : Later p db) {x : ℕ} {s₀ s : Sale}
    (hp : p.sales.get? x = some s₀) (hs : db.sales.get? x = some s) : s₀.SameIssue s := by
  obtain ⟨s₁, hs₁, hsame⟩ := h.sales.row x s hs (Table.lt_next_of_get? hp)
  obtain rfl : s₀ = s₁ := Option.some.inj (hp.symm.trans hs₁)
  exact hsame

/-- What a request does: a chain of ledger writes that gives back what it says, from one good state
to another. Only a refund of a linked card or of a package refunds anything of an older sale. -/
structure CardStep (db db' : Db) (g : ℕ → ℚ) : Prop where
  writes : CardWrites db.cardLedger db'.cardLedger g
  state : CardState db'
  later : Later db db'
  refunded : ∀ x, x < db.sales.next → refundsOf db'.sales x = refundsOf db.sales x ∨
    (∃ k c, db'.giftCards.get? k = some c ∧ c.saleId = some x) ∨
    ∃ s, db.sales.get? x = some s ∧ s.saleType = .package

/-! ## The requests -/

section Steps

variable {cat : Catalog} {ctx : Caller} {db db' : Db}

/-- Packages are linked to the same sales, or to none; the sales of linked packages are kept. -/
theorem PackagesIssued.of_packages (h : PackagesIssued db)
    (hpackages : ∀ k p' x, db'.packages.get? k = some p' → p'.saleId = some x →
      ∃ p, db.packages.get? k = some p ∧ p.saleId = some x)
    (hsales : ∀ x s, db.sales.get? x = some s → s.saleType = .package →
      (∃ k p, db'.packages.get? k = some p ∧ p.saleId = some x) →
      ∃ s', db'.sales.get? x = some s' ∧ s'.saleType = s.saleType) : PackagesIssued db' := by
  constructor
  intro k p' x hk hx
  obtain ⟨p, hp, hpx⟩ := hpackages k p' x hk hx
  obtain ⟨s, hs, ht⟩ := h.issued k p x hp hpx
  obtain ⟨s', hs', ht'⟩ := hsales x s hs ht ⟨k, p', hk, hx⟩
  exact ⟨s', hs', ht'.trans ht⟩

theorem links_modify {packages : Table ClientPackage} {j : ℕ} {f : ClientPackage → ClientPackage}
    (hf : ∀ p, (f p).saleId = p.saleId) {k : ℕ} {p' : ClientPackage} {x : ℕ}
    (hk : (packages.modify j f).get? k = some p') (hx : p'.saleId = some x) :
    ∃ p, packages.get? k = some p ∧ p.saleId = some x := by
  rw [Table.get?_modify] at hk
  split at hk
  · obtain ⟨p, hp, rfl⟩ := Option.map_eq_some_iff.1 hk
    exact ⟨p, hp, hf p ▸ hx⟩
  · exact ⟨p', hk, hx⟩

theorem step_createGiftCard (hI : CardState db) {data : GiftCardInput}
    (h : createGiftCard ctx data db = .ok db') : CardStep db db' 0 := by
  have ws := createGiftCard_writes h
  obtain ⟨hpos, rfl⟩ := createGiftCard_ok h
  refine ⟨ws, ⟨ws.balanced hI.balanced, ?_, ?_⟩, ?_, ?_⟩
  · exact hI.refunds.issue hI.balanced rfl hpos.le rfl rfl rfl rfl
  · exact hI.packages.of_packages (fun k p x hk hx => ⟨p, hk, hx⟩)
      fun x s hs _ _ => ⟨s, Table.get?_insert_of_some _ hs, rfl⟩
  · exact later_of_writes ws ((Table.Evolves.refl Sale.SameIssue.refl _).insert _)
  · intro x hx
    left
    dsimp only
    rw [refundsOf_insert, refundOf_of_type (by simp [standaloneSale]), add_zero]

theorem step_setGiftCardActive (hI : CardState db) {networkId giftCardId : ℕ} {isActive : Bool}
    (h : setGiftCardActive networkId giftCardId isActive db = .ok db') : CardStep db db' 0 := by
  have ws := setGiftCardActive_writes h
  obtain rfl := setGiftCardActive_ok h
  refine ⟨ws, ⟨ws.balanced hI.balanced, ⟨hI.refunds.noted, fun k c x s hk hx hs => ?_⟩, ?_⟩, ?_, ?_⟩
  · have hold : k < (db.giftCards.modify giftCardId (·.setActive isActive)).next :=
      Table.lt_next_of_get? hk
    exact hI.refunds.frame hI.balanced ws hk hx hold rfl hs rfl
  · exact ⟨hI.packages.issued⟩
  · exact later_of_writes ws (.refl Sale.SameIssue.refl _)
  · exact fun x _ => .inl rfl

theorem step_purchaseClientPackage (hI : CardState db) {customerId : ℕ} {pkg : ServicePackage}
    {method : Option PaymentMethod}
    (h : purchaseClientPackage ctx customerId pkg method db = .ok db') : CardStep db db' 0 := by
  obtain rfl := purchaseClientPackage_ok h
  have ws : CardWrites db.cardLedger ⟨db.sales.insert (standaloneSale ctx
      (db.openSession ctx.shop.id) customerId .package .package pkg.price "Pacote" method),
      db.giftCards⟩ 0 := .single (.sell _ rfl)
  have htype : (standaloneSale ctx (db.openSession ctx.shop.id) customerId .package .package
      pkg.price "Pacote" method).saleType ≠ .refund := by simp [standaloneSale]
  refine ⟨ws, ⟨ws.balanced hI.balanced, ?_, ⟨fun k p x hk hx => ?_⟩⟩, ?_, ?_⟩
  · exact hI.refunds.insert hI.balanced ws htype rfl
  · dsimp only at hk
    rw [Table.get?_insert] at hk
    split at hk
    · obtain rfl := Option.some.inj hk
      obtain rfl : db.sales.next = x := Option.some.inj hx
      exact ⟨_, Table.get?_insert_self .., rfl⟩
    · obtain ⟨s, hs, ht⟩ := hI.packages.issued k p x hk hx
      exact ⟨s, Table.get?_insert_of_some _ hs, ht⟩
  · exact later_of_writes ws ((Table.Evolves.refl Sale.SameIssue.refl _).insert _)
  · intro x hx
    left
    dsimp only
    rw [refundsOf_insert, refundOf_of_type htype, add_zero]

theorem links_debitPackage {plan : SalePlan} {now : ℤ} {packages packages' : Table ClientPackage}
    (h : plan.debitPackage now packages = .ok packages') {k : ℕ} {p' : ClientPackage} {x : ℕ}
    (hk : packages'.get? k = some p') (hx : p'.saleId = some x) :
    ∃ p, packages.get? k = some p ∧ p.saleId = some x := by
  unfold SalePlan.debitPackage debitPackage at h
  cases hplan : plan.package with
  | none =>
    simp only [hplan, pure_eq_ok] at h
    exact ⟨p', h ▸ hk, hx⟩
  | some id =>
    simp only [hplan, orRefuse_eq_ok] at h
    obtain ⟨a, -, -, rfl⟩ := Table.tryModify_eq_some.1 h
    exact links_modify (f := ClientPackage.debit) (fun _ => rfl) hk hx

theorem step_createSale (hI : CardState db) {data : SaleInput} {reads : SaleRead → Db}
    (h : createSale cat ctx data reads db = .ok db') : CardStep db db' 0 := by
  have ws := createSale_writes h
  obtain ⟨plan, hplan, hcommit⟩ := createSale_ok h
  obtain ⟨cards, club, packages, customers, hcards, -, hpackages, -, rfl⟩ := commitSale_ok hcommit
  have htype : (plan.sale ctx).saleType ≠ .refund := by
    intro ht
    have hstaff := hplan.staff
    rw [← hplan.data_eq, show plan.data.saleType = .refund from ht] at hstaff
    cases hstaff
  have hnext : cards.next = db.giftCards.next := by
    unfold SalePlan.debitCard debitGiftCard at hcards
    cases hk : plan.giftCardId with
    | none =>
      simp only [hk, pure_eq_ok] at hcards
      rw [hcards]
    | some k =>
      simp only [hk, orRefuse_eq_ok] at hcards
      obtain ⟨a, -, -, rfl⟩ := Table.tryModify_eq_some.1 hcards
      rfl
  refine ⟨ws, ⟨ws.balanced hI.balanced, ?_, ?_⟩, ?_, ?_⟩
  · exact hI.refunds.insert hI.balanced ws htype hnext
  · exact hI.packages.of_packages (fun k p x hk hx => links_debitPackage hpackages hk hx)
      fun x s hs _ _ => ⟨s, Table.get?_insert_of_some _ hs, rfl⟩
  · exact later_of_writes ws ((Table.Evolves.refl Sale.SameIssue.refl _).insert _)
  · intro x hx
    left
    dsimp only
    rw [refundsOf_insert, refundOf_of_type htype, add_zero]

/-! ### Deleting -/

theorem links_cancelIssuedPackage {x : ℕ} {reads : DeleteRead → Db}
    {packages packages' : Table ClientPackage}
    (h : cancelIssuedPackage x reads packages = .ok packages') {k : ℕ} {p' : ClientPackage} {y : ℕ}
    (hk : packages'.get? k = some p') (hy : p'.saleId = some y) :
    ∃ p, packages.get? k = some p ∧ p.saleId = some y := by
  unfold cancelIssuedPackage at h
  cases hfound : (reads .package).packageOfSale x with
  | none =>
    simp only [hfound, pure_eq_ok] at h
    exact ⟨p', h ▸ hk, hy⟩
  | some found =>
    simp only [hfound, bind_eq_ok, exists_punit, refuseIf_eq_ok] at h
    obtain ⟨-, h⟩ := h
    split at h
    · obtain ⟨a, -, -, rfl⟩ := Table.tryModify_eq_some.1 (orRefuse_eq_ok.1 h)
      exact links_modify (f := ClientPackage.cancel) (fun _ => rfl) hk hy
    · simp only [bind_eq_ok, exists_punit, pure_eq_ok] at h
      exact ⟨p', h.2 ▸ hk, hy⟩

theorem links_restorePackageUses {now : ℤ} {userId : ℕ} {found : List (ℕ × ClientPackageUse)}
    {t : Table ClientPackage × Table ClientPackageUse} {k : ℕ} {p' : ClientPackage} {y : ℕ}
    (hk : (restorePackageUses now userId found t).1.get? k = some p') (hy : p'.saleId = some y) :
    ∃ p, t.1.get? k = some p ∧ p.saleId = some y := by
  induction found generalizing t with
  | nil => exact ⟨p', hk, hy⟩
  | cons u found ih =>
    obtain ⟨p, hp, hpy⟩ := ih hk
    unfold restorePackageUse at hp
    dsimp only at hp
    split at hp
    · exact ⟨p, hp, hpy⟩
    · next packages hmod =>
      obtain ⟨a, -, -, rfl⟩ := Table.tryModify_eq_some.1 hmod
      exact links_modify (f := ClientPackage.restore) (fun _ => rfl) hp hpy

theorem step_deleteSale (hI : CardState db) {saleId : ℕ} {reads : DeleteRead → Db}
    (hreads : ∀ r, Later (reads r) db) (h : deleteSale ctx saleId reads db = .ok db') :
    CardStep db db' (cancelledOf saleId reads db.giftCards) := by
  have ws := deleteSale_writes
    (fun s existing hs he => ((hreads .existing).same_sale he hs).symm.charge) h
  obtain ⟨existing, packages, cards, s, hcheck, hpackages, hcards, hs, rfl⟩ := deleteSale_ok h
  obtain ⟨hexisting, -, hrefund, -⟩ := checkDelete_ok hcheck
  have htype : s.saleType ≠ .refund :=
    ((hreads .existing).same_sale hexisting hs).type ▸ hrefund
  refine ⟨ws, ⟨ws.balanced hI.balanced, ?_, ?_⟩, ?_, ?_⟩
  · exact hI.refunds.delete hI.balanced hcards hs htype ws
  · have hback : ∀ k p' y, (unlinkPackages saleId (restorePackageUses ctx.now ctx.userId
        ((reads .uses).activeUses saleId) (packages, db.packageUses)).1).get? k = some p' →
        p'.saleId = some y → y ≠ saleId ∧ ∃ p, db.packages.get? k = some p ∧ p.saleId = some y := by
      intro k p' y hk hy
      unfold unlinkPackages at hk
      rw [Table.get?_modifyAll] at hk
      obtain ⟨p, hp, rfl⟩ := Option.map_eq_some_iff.1 hk
      split at hy
      · cases hy
      · next hne =>
        obtain ⟨p₁, hp₁, hy₁⟩ := links_restorePackageUses hp hy
        exact ⟨fun e => hne (e ▸ hy), links_cancelIssuedPackage hpackages hp₁ hy₁⟩
    refine hI.packages.of_packages (fun k p' y hk hy => (hback k p' y hk hy).2) ?_
    rintro y s' hs' - ⟨k, p, hk, hy⟩
    refine ⟨s', ?_, rfl⟩
    dsimp only
    rw [Table.get?_erase, if_neg (hback k p y hk hy).1, hs']
  · exact later_of_writes ws ((Table.Evolves.refl Sale.SameIssue.refl _).erase _)
  · exact fun x _ => .inl (refundsOf_erase hs htype x)

/-! ### Refunding -/

theorem Refund.lowerEarned_same (r : Refund) (network : Network) (s : Sale) :
    s.SameIssue (r.lowerEarned network s) := by
  unfold Refund.lowerEarned
  split <;> exact ⟨⟨rfl, rfl⟩, rfl, rfl, fun _ => rfl⟩

theorem Refund.evolves (r : Refund) (x : ℕ) (openSession : Option ℕ) {sales : Table Sale}
    (hpaid : ∀ s, sales.get? x = some s → s.paymentStatus = .paid → r.paid = true) :
    sales.Evolves Sale.SameIssue (r.sales ctx x openSession sales) := by
  have hrefl : sales.Evolves Sale.SameIssue sales := .refl Sale.SameIssue.refl _
  unfold Refund.sales
  split
  · refine .modify (E := Sale.SameIssue) Sale.SameIssue.trans ?_ fun a _ => r.lowerEarned_same ctx.shop.network a
    split
    · exact hrefl.insert _
    · exact hrefl
  · next hpending =>
    refine .modify (E := Sale.SameIssue) Sale.SameIssue.trans hrefl fun a ha => ?_
    have hsame := r.lowerEarned_same ctx.shop.network { a with
      subtotal := r.newTotal
      discountAmount := 0
      taxAmount := 0
      total := r.newTotal
      items := r.reprice a.items }
    exact {
      charge := ⟨hsame.charge.card, hsame.charge.applied⟩
      type := hsame.type
      status := hsame.status
      total := fun hp => absurd (hpaid a ha hp) hpending }

theorem links_refundPackage {x : ℕ} {existing : Sale} {found : ℕ × ClientPackage}
    {packages packages' : Table ClientPackage} {r : Refund}
    (h : refundPackage ctx x existing found packages = .ok (r, packages')) {k : ℕ}
    {p' : ClientPackage} {y : ℕ} (hk : packages'.get? k = some p') (hy : p'.saleId = some y) :
    ∃ p, packages.get? k = some p ∧ p.saleId = some y := by
  obtain ⟨a, -, -, rfl⟩ := Table.tryModify_eq_some.1 (refundPackage_ok h).2.2.2.2
  exact links_modify (f := found.2.closeAt ctx.now) (fun _ => rfl) hk hy

theorem step_refundIssuedRemainder (hI : CardState db) {saleId : ℕ} {reads : RefundRead → Db}
    (hstates : ∀ r, CardState (reads r)) (hreads : ∀ r, Later (reads r) db)
    (h : refundIssuedRemainder ctx saleId reads db = .ok db') :
    CardStep db db' fun k => balanceOf db.giftCards k - balanceOf db'.giftCards k := by
  have ws := refundIssuedRemainder_writes h
  obtain ⟨existing, s, hexisting, -, -, hs, r, packages, cards, hrexisting, hr, rfl⟩ :=
    refundIssuedRemainder_ok h
  have hsame := (hreads .existing).same_sale hexisting hs
  have hpaid : ∀ a, db.sales.get? saleId = some a → a.paymentStatus = .paid → r.paid = true := by
    intro a ha hp
    obtain rfl : s = a := Option.some.inj (hs.symm.trans ha)
    simp [Refund.paid, hrexisting, ← hsame.status, hp]
  have hlater := later_of_writes ws (r.evolves saleId _ hpaid)
  have hkept : ∀ y a, db.sales.get? y = some a → ∃ a', (r.sales ctx saleId
      ((reads .openSession).openSession ctx.shop.id) db.sales).get? y = some a' ∧
      a'.saleType = a.saleType := by
    intro y a ha
    by_cases hy : y = saleId
    · subst hy
      obtain rfl : s = a := Option.some.inj (hs.symm.trans ha)
      obtain ⟨s', hs', ht, -⟩ :=
        r.get?_sales_self ctx y ((reads .openSession).openSession ctx.shop.id) hs
      exact ⟨s', hs', ht⟩
    · exact ⟨a, r.get?_sales_of_ne ctx saleId _ ha hy, rfl⟩
  have hother : ∀ y, y ≠ saleId → s.saleType ≠ .refund → refundsOf (r.sales ctx saleId
      ((reads .openSession).openSession ctx.shop.id) db.sales) y = refundsOf db.sales y := by
    intro y hy ht
    rw [r.refundsOf_sales ctx saleId _ hs ht, if_neg fun e => hy e.2, add_zero]
  rcases hr with ⟨found, hfound, hr, rfl⟩ | ⟨found, -, hfound, hr, rfl⟩
  · -- the sale issued a package
    have htype : s.saleType = .package := by
      obtain ⟨hp, hpx⟩ := Db.packageOfSale_some (k := found.1) (p := found.2) hfound
      obtain ⟨s₀, hs₀, ht⟩ := (hstates .package).packages.issued found.1 found.2 saleId hp hpx
      exact ((hreads .package).same_sale hs₀ hs).type.trans ht
    refine ⟨ws, ⟨ws.balanced hI.balanced, ?_, ?_⟩, hlater, fun y hy => ?_⟩
    · exact hI.refunds.refundOther hI.balanced hs htype
    · exact hI.packages.of_packages (fun k p' y hk hy => links_refundPackage hr hk hy)
        fun y a ha _ _ => hkept y a ha
    · by_cases hyx : y = saleId
      · exact .inr (.inr ⟨s, hyx ▸ hs, htype⟩)
      · exact .inl (hother y hyx (by simp [htype]))
  · -- the sale issued a card
    obtain ⟨hfk, hfx⟩ := Db.cardOfSale_some (k := found.1) (c := found.2) hfound
    have hinitial : initialOf db.giftCards found.1 = found.2.initialValue := by
      rw [((hreads .card).cards found.1 (by simp [hfk])).2]
      exact Table.value_of_get? _ hfk
    obtain ⟨c, hc, hbalance, hcards⟩ := Table.tryModify_eq_some.1 (refundCard_ok hr).2.2.2
    have hcx : c.saleId = some saleId := by
      have := hbalance
      simp only [GiftCard.sameBalance, Bool.and_eq_true, beq_iff_eq] at this
      exact this.1
    have htype : s.saleType = .giftCard := (hI.refunds.law found.1 c saleId s hc hcx hs).type
    refine ⟨ws, ⟨ws.balanced hI.balanced, ?_, ?_⟩, hlater, fun y hy => ?_⟩
    · exact hI.refunds.refundCard hI.balanced hr hs hsame hinitial
    · exact hI.packages.of_packages (fun k p x hk hx => ⟨p, hk, hx⟩) fun y a ha _ _ => hkept y a ha
    · by_cases hyx : y = saleId
      · subst hyx
        refine .inr (.inl ⟨found.1, c.cancel, ?_, hcx⟩)
        dsimp only
        rw [hcards, Table.get?_modify_self, hc, Option.map_some]
      · exact .inl (hother y hyx (by simp [htype]))

end Steps

/-! ## Runs -/

/-- What a step gives back of card `k`. -/
def givenBackOf (k : ℕ) (h : History Db) (r : CardRequest) : ℚ := r.givenBack k h.seen h.now

theorem cardState_beforeSales (db : Db) : CardState db.beforeSales where
  balanced := balanced_beforeSales db
  refunds := ⟨⟨fun _ _ h => by cases h⟩, fun _ _ _ _ h => by cases h⟩
  packages := ⟨fun _ _ _ h => by cases h⟩

theorem cardStep {cat : Catalog} {h h' : History Db} {r : CardRequest}
    (hh : h.Good CardState Later) (hs : (cardService cat).step h r = some h') :
    CardStep h.now h'.now (fun k => givenBackOf k h r) ∧ h'.Good CardState Later := by
  obtain ⟨db', hexec, rfl⟩ := concurrent_step.1 hs
  have hseen : ∀ n, CardState (h.seen n) ∧ Later (h.seen n) h.now := hh.seen Later.refl
  have hstep : CardStep h.now db' fun k => givenBackOf k h r := by
    cases r with
    | createGiftCard ctx data => exact step_createGiftCard hh.now hexec
    | setGiftCardActive networkId giftCardId isActive => exact step_setGiftCardActive hh.now hexec
    | purchaseClientPackage ctx customerId pkg method =>
      exact step_purchaseClientPackage hh.now hexec
    | createSale ctx data age => exact step_createSale hh.now hexec
    | deleteSale ctx saleId age => exact step_deleteSale hh.now (fun _ => (hseen _).2) hexec
    | refundIssuedRemainder ctx saleId age =>
      have h₁ := step_refundIssuedRemainder hh.now (fun _ => (hseen _).1) (fun _ => (hseen _).2) hexec
      have hg : (fun k => givenBackOf k h (.refundIssuedRemainder ctx saleId age)) =
          fun k => balanceOf h.now.giftCards k - balanceOf db'.giftCards k := by
        change Barbershop.refundIssuedRemainder ctx saleId (fun r => h.seen (age r)) h.now =
          .ok db' at hexec
        funext k
        simp [givenBackOf, CardRequest.givenBack, hexec, Except.toOption]
      exact hg ▸ h₁
    | elsewhere other =>
      obtain rfl := Except.ok.inj hexec
      exact {
        writes := .done _
        state := ⟨hh.now.balanced, hh.now.refunds, ⟨hh.now.packages.issued⟩⟩
        later := ⟨.refl Sale.SameIssue.refl _, fun _ hk => ⟨hk, rfl⟩⟩
        refunded := fun _ _ => .inl rfl }
  exact ⟨hstep, hh.commit Later.trans hstep.state hstep.later⟩

/-- The refunds of the sale `x` that issued a card stay within `b`, its total. -/
structure RefundsWithin (x : ℕ) (b : ℚ) (h : History Db) : Prop where
  good : h.Good CardState Later
  made : x < h.now.sales.next
  le : refundsOf h.now.sales x ≤ b
  sale : ∀ s, h.now.sales.get? x = some s →
    s.saleType = .giftCard ∧ (s.paymentStatus = .paid → s.total = b)

theorem refundsWithin_step {cat : Catalog} {h h' : History Db} {r : CardRequest} {x : ℕ} {b : ℚ}
    (hb : 0 ≤ b) (hI : RefundsWithin x b h) (hs : (cardService cat).step h r = some h') :
    RefundsWithin x b h' := by
  obtain ⟨hstep, hgood⟩ := cardStep hI.good hs
  have hsale : ∀ s, h'.now.sales.get? x = some s →
      s.saleType = .giftCard ∧ (s.paymentStatus = .paid → s.total = b) := by
    intro s' hs'
    obtain ⟨s, hs, hsame⟩ := hstep.later.sales.row x s' hs' hI.made
    obtain ⟨ht, htotal⟩ := hI.sale s hs
    refine ⟨hsame.type.trans ht, fun hp => ?_⟩
    have hp' := hsame.status ▸ hp
    rw [hsame.total hp', htotal hp']
  refine ⟨hgood, hI.made.trans_le hstep.later.sales.next_le, ?_, hsale⟩
  rcases hstep.refunded x hI.made with hsame | ⟨k, c, hk, hx⟩ | ⟨s, hs, ht⟩
  · exact hsame ▸ hI.le
  · -- still linked: the law of the card bounds its refunds
    obtain ⟨s, hs⟩ := Option.isSome_iff_exists.1 (hgood.now.balanced.linked.issued k c x hk hx)
    by_cases hpaid : s.paymentStatus = .paid
    · exact (hsale s hs).2 hpaid ▸ hgood.now.refunds.le_total hgood.now.balanced hk hx hs
    · exact ((hgood.now.refunds.law k c x s hk hx hs).pending hpaid).trans_le hb
  · rw [(hI.sale s hs).1] at ht
    cases ht

/-- Whatever the interleaving, the value of a card is on it, in the sales that used it, or was given
back; and from any state on, the refunds of the sale that issued it never total more than that
sale. -/
theorem giftCard_ledger (cat : Catalog) (db : Db) {as : List CardRequest} {h : History Db}
    (hrun : (cardService cat).run (.start db.beforeSales) as = some h) :
    (∀ k c, h.now.giftCards.get? k = some c →
      0 ≤ c.remainingValue ∧ c.remainingValue ≤ c.initialValue ∧
      c.initialValue = c.remainingValue + usedOf h.now.sales k +
        (cardService cat).total (givenBackOf k) (.start db.beforeSales) as) ∧
    ∀ bs h', (cardService cat).run h bs = some h' → ∀ k c x s,
      h.now.giftCards.get? k = some c → c.saleId = some x → h.now.sales.get? x = some s →
      refundsOf h'.now.sales x ≤ s.total := by
  have hstart : (History.start db.beforeSales).Good CardState Later :=
    History.good_start (cardState_beforeSales db)
  have hgood : h.Good CardState Later :=
    (cardService cat).run_inv (fun hI hs => (cardStep hI hs).2) hstart hrun
  constructor
  · intro k c hk
    have htotal := (cardService cat).run_total (f := givenBackOf k)
      (q := fun h => h.now.cardLedger.returned k)
      (fun {s a s'} hI hs => ⟨(cardStep hI hs).2,
        (cardStep hI hs).1.writes.returned hI.now.balanced k⟩) hstart hrun
    have hzero : db.beforeSales.cardLedger.returned k = 0 := by
      simp [CardLedger.returned, Db.cardLedger, Db.beforeSales, initialOf, balanceOf, usedOf,
        Table.value]
    have hinitial : initialOf h.now.giftCards k = c.initialValue := Table.value_of_get? _ hk
    have hbalance : balanceOf h.now.giftCards k = c.remainingValue := Table.value_of_get? _ hk
    have hnonneg := hgood.now.balanced.solvent.balance k
    have hreturned := hgood.now.balanced.solvent.returned k
    have hused := hgood.now.balanced.charged.usedOf_nonneg k
    have hsum := htotal.2
    simp only [CardLedger.returned, Db.cardLedger, hinitial, hbalance] at hsum hnonneg hreturned
    simp only [Db.cardLedger] at hused
    change _ = db.beforeSales.cardLedger.returned k + _ at hsum
    rw [hzero, zero_add] at hsum
    refine ⟨hnonneg, by linarith, ?_⟩
    rw [← hsum]
    ring
  · intro bs h' hrun' k c x s hk hx hs
    have hlaw := hgood.now.refunds.law k c x s hk hx hs
    have hI : RefundsWithin x s.total h := {
      good := hgood
      made := Table.lt_next_of_get? hs
      le := hgood.now.refunds.le_total hgood.now.balanced hk hx hs
      sale := fun s' hs' => by
        obtain rfl : s = s' := Option.some.inj (hs.symm.trans hs')
        exact ⟨hlaw.type, fun _ => rfl⟩ }
    exact ((cardService cat).run_inv (fun hI hs => refundsWithin_step hlaw.total_nonneg hI hs)
      hI hrun').le

/-- A sale paid in full with the card. -/
def cardSale (price : ℚ) : SaleInput :=
  { haircutSale none price with giftCardCode := some "GIFT" }

/-- A card of 100 and two sales that use it, the second on a card read before the first. -/
def usedTwice : List CardRequest :=
  [.createGiftCard (owner 0) cardOf100, .createSale (owner 1) (cardSale 30) fun _ => 0,
    .createSale (owner 1) (cardSale 50) fun _ => 1]

/-- The rest is refunded while the first sale is being deleted, and refunded again. -/
def refundedTwice : List CardRequest :=
  [.refundIssuedRemainder (owner 2) 1 fun _ => 0, .deleteSale (owner 2) 2 fun _ => 1,
    .refundIssuedRemainder (owner 3) 1 fun _ => 0]

theorem refundedTwice_ledger : ∃ h h' c,
    (cardService oneProduct).run (.start Db.empty.beforeSales) usedTwice = some h ∧
    (cardService oneProduct).run h refundedTwice = some h' ∧ h.now.giftCards.get? 1 = some c ∧
    (c.initialValue = c.remainingValue + usedOf h.now.sales 1 +
      (cardService oneProduct).total (givenBackOf 1) (.start Db.empty.beforeSales) usedTwice) ∧
    refundsOf h'.now.sales 1 = 50 ∧ refundsOf h'.now.sales 1 ≤ 100 := by
  have hrun : (((cardService oneProduct).run (.start Db.empty.beforeSales) usedTwice).any fun h =>
      (h.now.giftCards.get? 1).any (fun c => c.saleId == some 1) &&
        (h.now.sales.get? 1).any (fun s => s.total == 100) &&
        ((cardService oneProduct).run h refundedTwice).any fun h' =>
          decide (refundsOf h'.now.sales 1 = 50)) = true := by
    decide +kernel
  obtain ⟨h, hh, hp⟩ := (Option.any_eq_true _ _).1 hrun
  simp only [Bool.and_eq_true, Option.any_eq_true, beq_iff_eq, decide_eq_true_eq] at hp
  obtain ⟨⟨⟨c, hc, hx⟩, s, hs, htotal⟩, h', hh', hrefunds⟩ := hp
  have hledger := giftCard_ledger oneProduct Db.empty hh
  refine ⟨h, h', c, hh, hh', hc, (hledger.1 1 c hc).2.2, hrefunds, ?_⟩
  exact htotal ▸ hledger.2 refundedTwice h' hh' 1 c 1 s hc hx hs

end Barbershop
