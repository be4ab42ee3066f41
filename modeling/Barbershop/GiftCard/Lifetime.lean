import Barbershop.GiftCard.Writes

/-!
# A gift card and the sale that paid for it

Deleting the sale that issued a card cancels the card by an update that also asks for `isActive`. On
an inactive card it misses, and the deletion goes on when a second read finds the card unused: the
card keeps its balance without a sale, and can be activated again. `FindsCardActive` is the condition
under which that does not happen. A cancelled card that no sale used is spent, and a spent card stays
spent (`CardWrites.spent`).
-/

namespace Barbershop

open Lib

/-- The database before anything was sold. -/
def Db.beforeSales (db : Db) : Db :=
  { db with sales := .empty, giftCards := .empty, packages := .empty }

theorem balanced_beforeSales (db : Db) : db.beforeSales.cardLedger.Balanced where
  charged := ⟨fun _ _ h => by cases h⟩
  solvent := ⟨fun _ => le_rfl, fun _ => by
    simp [CardLedger.returned, initialOf, balanceOf, usedOf, Db.cardLedger, Db.beforeSales,
      Table.value]⟩
  linked := ⟨fun _ _ _ h => (by cases h), fun _ _ _ _ _ h => by cases h⟩

/-- Every request is a chain of ledger writes. -/
theorem service_writes {cat : Catalog} {r : Request} {db db' : Db}
    (h : (service cat).step db r = some db') : ∃ g, CardWrites db.cardLedger db'.cardLedger g := by
  rw [service_step] at h
  cases hw : r.plain && !r.writesCards with
  | true =>
    obtain ⟨hplain, hcards⟩ : r.plain = true ∧ r.writesCards = false := by simpa using hw
    have hf := plain_frame hplain h
    have hsame := hf.giftCards hcards
    unfold Db.cardLedger
    rcases hf.sales with hs | ⟨s, hs, hinsert⟩
    · rw [hs, hsame]
      exact ⟨0, .done _⟩
    · rw [hinsert, hsame]
      exact ⟨0, .single (.sell s hs.card)⟩
  | false =>
    cases r with
    | createSale ctx data =>
      change createSale cat ctx data (fun _ => db) db = .ok db' at h
      exact ⟨0, createSale_writes h⟩
    | updateSale ctx saleId data =>
      change updateSale cat ctx saleId data (fun _ => db) db = .ok db' at h
      exact ⟨0, updateSale_writes h⟩
    | deleteSale ctx saleId =>
      change deleteSale ctx saleId (fun _ => db) db = .ok db' at h
      refine ⟨_, deleteSale_writes (fun s existing hs he => ?_) h⟩
      obtain rfl : s = existing := Option.some.inj (hs.symm.trans he)
      exact ⟨rfl, rfl⟩
    | refundIssuedRemainder ctx saleId =>
      change refundIssuedRemainder ctx saleId (fun _ => db) db = .ok db' at h
      exact ⟨_, refundIssuedRemainder_writes h⟩
    | createGiftCard ctx data => exact ⟨0, createGiftCard_writes h⟩
    | setGiftCardActive networkId giftCardId isActive => exact ⟨0, setGiftCardActive_writes h⟩
    | adjustInventory ctx data =>
      obtain ⟨_, -, rfl⟩ := map_eq_ok.1 h
      obtain ⟨st, hst⟩ := adjustInventory_frame cat ctx data db
      rw [hst]
      exact ⟨0, .done _⟩
    | _ => cases hw

/-- A sale disappears only when it is deleted. -/
theorem sale_kept {cat : Catalog} {r : Request} {db db' : Db} {x : ℕ}
    (h : (service cat).step db r = some db') (hx : (db.sales.get? x).isSome)
    (hr : ∀ ctx, r ≠ .deleteSale ctx x) : (db'.sales.get? x).isSome := by
  rw [service_step] at h
  have inserted : ∀ s : Sale, ((db.sales.insert s).get? x).isSome := by
    intro s
    obtain ⟨a, ha⟩ := Option.isSome_iff_exists.1 hx
    rw [Table.get?_insert_of_some _ ha]
    rfl
  have modified : ∀ (t : Table Sale) (y : ℕ) (f : Sale → Sale), (t.get? x).isSome →
      ((t.modify y f).get? x).isSome := by
    intro t y f ht
    rw [Table.get?_modify]
    split <;> simp [ht]
  cases hw : r.plain with
  | true =>
    rcases (plain_frame hw h).sales with hs | ⟨s, -, hinsert⟩
    · rwa [hs]
    · rw [hinsert]
      exact inserted s
  | false =>
    cases r with
    | createSale ctx data =>
      change createSale cat ctx data (fun _ => db) db = .ok db' at h
      obtain ⟨plan, -, hcommit⟩ := createSale_ok h
      obtain ⟨_, _, _, _, -, -, -, -, rfl⟩ := commitSale_ok hcommit
      exact inserted _
    | updateSale ctx saleId data =>
      change updateSale cat ctx saleId data (fun _ => db) db = .ok db' at h
      obtain ⟨e, -, -, hcommit⟩ := updateSale_ok h
      obtain ⟨s, -, rfl⟩ := commitEdit_ok hcommit
      exact modified _ _ _ hx
    | deleteSale ctx saleId =>
      change deleteSale ctx saleId (fun _ => db) db = .ok db' at h
      obtain ⟨existing, packages, cards, s, -, -, -, -, rfl⟩ := deleteSale_ok h
      have hne : x ≠ saleId := fun e => hr ctx (e ▸ rfl)
      dsimp only
      rwa [Table.get?_erase, if_neg hne]
    | refundIssuedRemainder ctx saleId =>
      change refundIssuedRemainder ctx saleId (fun _ => db) db = .ok db' at h
      obtain ⟨existing, s, -, -, -, -, r, packages, cards, -, -, rfl⟩ := refundIssuedRemainder_ok h
      dsimp only [Refund.sales]
      split
      · refine modified _ _ _ ?_
        split
        · exact inserted _
        · exact hx
      · exact modified _ _ _ hx
    | adjustInventory ctx data =>
      obtain ⟨_, -, rfl⟩ := map_eq_ok.1 h
      obtain ⟨st, hst⟩ := adjustInventory_frame cat ctx data db
      rwa [hst]
    | _ => cases hw

/-! ## The deletion -/

/-- A request deletes a sale only while the card it issued is active. -/
def FindsCardActive (db : Db) : Request → Prop
  | .deleteSale _ saleId => ∀ found ∈ db.cardOfSale saleId, found.2.isActive = true
  | _ => True

instance (db : Db) (r : Request) : Decidable (FindsCardActive db r) :=
  match r with
  | .deleteSale _ saleId =>
    inferInstanceAs (Decidable (∀ found ∈ db.cardOfSale saleId, found.2.isActive = true))
  | .createSale .. | .updateSale .. | .refundIssuedRemainder .. | .createGiftCard .. |
    .setGiftCardActive .. | .purchaseClientPackage .. | .debitClientPackageSession .. |
    .undoClientPackageUse .. | .adjustInventory .. | .openCashSession .. | .closeCashSession .. |
    .createExpense .. | .setAppointmentDepositPaid .. | .markNoShowFeeCollected .. =>
    isTrue trivial

/-- Deleting the sale that issued an active card leaves the card spent: it had its whole value on
it, so no sale used it, and now it is cancelled. -/
theorem spent_deleteSale {ctx : Caller} {db db' : Db} {k x : ℕ} {c : GiftCard}
    (hb : db.cardLedger.Balanced) (hk : db.giftCards.get? k = some c) (hx : c.saleId = some x)
    (hactive : ∀ found ∈ db.cardOfSale x, found.2.isActive = true)
    (h : deleteSale ctx x (fun _ => db) db = .ok db') : db'.cardLedger.Spent k := by
  obtain ⟨existing, packages, cards, s, hcheck, -, hcards, hs, rfl⟩ := deleteSale_ok h
  obtain rfl : s = existing := Option.some.inj (hs.symm.trans (checkDelete_ok hcheck).1)
  rcases cancelIssuedCard_ok hcards with
    ⟨hnone, -⟩ | ⟨j, issued, hfound, hunused, hcancel⟩
  · have := Table.find?_none.1 hnone k c hk
    simp [hx] at this
  · obtain ⟨hj, hjx⟩ := Db.cardOfSale_some hfound
    obtain rfl : k = j := hb.linked.unique k c j issued x hk hj hx hjx
    obtain rfl : c = issued := Option.some.inj (hk.symm.trans hj)
    have hfull : c.remainingValue = c.initialValue := by simpa [GiftCard.unused] using hunused
    rcases hcancel with ⟨_, -, -, rfl⟩ | ⟨hmiss, -⟩
    · have hcancelled : (⟨db.sales, db.giftCards.modify k (·.cancel)⟩ : CardLedger).Spent k := by
        constructor
        · exact Table.value_modify_self _ _ hk
        · have hreturned := hb.solvent.returned k
          have hused := hb.charged.usedOf_nonneg k
          have hi : initialOf db.giftCards k = c.initialValue := Table.value_of_get? _ hk
          have hr : balanceOf db.giftCards k = c.remainingValue := Table.value_of_get? _ hk
          unfold CardLedger.returned Db.cardLedger at hreturned
          unfold Db.cardLedger at hused
          dsimp only at *
          linarith
      have hw := CardWrite.giveBack (l := db.cardLedger) k
      have herase := CardWrite.erase (l := ⟨db.sales, db.giftCards.modify k (·.cancel)⟩) x s hs
      exact herase.spent (hw.balanced hb) (hw.isSome_cards (by simp [Db.cardLedger, hk])) hcancelled
    · have hcancellable : c.cancellable x c.initialValue = true :=
        GiftCard.cancellable_iff.2 ⟨hx, hactive (k, c) hfound, hfull⟩
      simp [hk, hcancellable] at hmiss

/-- Linked to its sale, or spent. -/
structure Covered (k x : ℕ) (db : Db) : Prop where
  balanced : db.cardLedger.Balanced
  covered : (∃ c, db.giftCards.get? k = some c ∧ c.saleId = some x) ∨
    (db.giftCards.get? k).isSome ∧ db.cardLedger.Spent k

theorem covered_step {cat : Catalog} {r : Request} {db db' : Db} {k x : ℕ} (hI : Covered k x db)
    (hr : FindsCardActive db r) (h : (service cat).step db r = some db') : Covered k x db' := by
  obtain ⟨g, ws⟩ := service_writes h
  refine ⟨ws.balanced hI.balanced, ?_⟩
  rcases hI.covered with ⟨c, hk, hx⟩ | ⟨hk, hspent⟩
  · rcases ws.link_kept hI.balanced hk hx with hlink | hgone
    · exact .inl hlink
    · have hsale := hI.balanced.linked.issued k c x hk hx
      have hdelete : ∃ ctx, r = .deleteSale ctx x := by
        by_contra hne
        push Not at hne
        have := sale_kept h hsale hne
        rw [show db'.sales.get? x = none from hgone] at this
        cases this
      obtain ⟨ctx, rfl⟩ := hdelete
      refine .inr ⟨ws.isSome_cards (by simp [Db.cardLedger, hk]), ?_⟩
      exact spent_deleteSale hI.balanced hk hx hr (service_step.1 h)
  · exact .inr ⟨ws.isSome_cards hk, ws.spent hI.balanced hk hspent⟩

theorem service_balanced {cat : Catalog} {db db' : Db} {as : List Request}
    (h : (service cat).run db.beforeSales as = some db') : db'.cardLedger.Balanced :=
  (service cat).run_inv (fun hI hs => (service_writes hs).choose_spec.balanced hI)
    (balanced_beforeSales db) h

/-- In every run that deletes sales only while the card they issued is active, a card whose sale was
deleted has nothing on it, and is rejected, in every state from then on. -/
theorem giftCard_dies_with_sale {cat : Catalog} {db p q : Db} {as bs : List Request} {k x : ℕ}
    {c : GiftCard} (hp : (service cat).run db.beforeSales as = some p)
    (hq : (service cat).run p bs = some q) (hmeets : (service cat).Meets FindsCardActive p bs)
    (hk : p.giftCards.get? k = some c) (hx : c.saleId = some x) (hgone : q.sales.get? x = none) :
    balanceOf q.giftCards k = 0 ∧
      ∀ ctx code found, validateGiftCard ctx code q = .ok found → found.1 ≠ k := by
  have hI : Covered k x q :=
    (service cat).run_inv_of_meets covered_step ⟨service_balanced hp, .inl ⟨c, hk, hx⟩⟩ hmeets hq
  have hspent : q.cardLedger.Spent k := by
    rcases hI.covered with ⟨c', hk', hx'⟩ | ⟨-, hspent⟩
    · have := hI.balanced.linked.issued k c' x hk' hx'
      rw [show q.cardLedger.sales.get? x = none from hgone] at this
      cases this
    · exact hspent
  refine ⟨hspent.balance, ?_⟩
  rintro ctx code ⟨j, card⟩ hvalid rfl
  obtain ⟨hj, -, hpos⟩ := validateGiftCard_ok hvalid
  have hzero : balanceOf q.giftCards j = card.remainingValue := Table.value_of_get? _ hj
  exact absurd (hzero.symm.trans hspent.balance) hpos.ne'

/-- A card of 100, paid in cash. -/
def cardOf100 : GiftCardInput where
  code := "GIFT"
  initialValue := 100
  expiresAt := none
  paymentMethod := some .cash

def soldCard : List Request := [.createGiftCard (owner 0) cardOf100]

theorem soldCard_dies : ∃ p q c, (service oneProduct).run Db.empty.beforeSales soldCard = some p ∧
    (service oneProduct).run p [.deleteSale (owner 1) 1] = some q ∧ p.giftCards.get? 1 = some c ∧
    balanceOf q.giftCards 1 = 0 ∧
      ∀ ctx code found, validateGiftCard ctx code q = .ok found → found.1 ≠ 1 := by
  have hrun : (((service oneProduct).run Db.empty.beforeSales soldCard).any fun p =>
      (p.giftCards.get? 1).any (fun c => c.saleId == some 1) &&
        decide ((service oneProduct).Meets FindsCardActive p [.deleteSale (owner 1) 1]) &&
        ((service oneProduct).run p [.deleteSale (owner 1) 1]).any fun q =>
          (q.sales.get? 1).isNone) = true := by
    decide +kernel
  obtain ⟨p, hp, hpq⟩ := (Option.any_eq_true _ _).1 hrun
  simp only [Bool.and_eq_true, Option.any_eq_true, decide_eq_true_eq, Option.isNone_iff_eq_none] at hpq
  obtain ⟨⟨⟨c, hc, hx⟩, hmeets⟩, q, hq, hgone⟩ := hpq
  exact ⟨p, q, c, hp, hq, hc,
    giftCard_dies_with_sale (x := 1) hp hq hmeets hc (by simpa using hx) hgone⟩

/-- The card is deactivated, its sale deleted, and the card activated again. -/
def orphaning : List Request :=
  [.setGiftCardActive 1 1 false, .deleteSale (owner 1) 1, .setGiftCardActive 1 1 true]

/-- An inactive card survives the deletion of its sale and is accepted once it is active again. -/
theorem orphanCard_accepted : ∃ p q c, (service oneProduct).run Db.empty.beforeSales soldCard = some p ∧
    (service oneProduct).run p orphaning = some q ∧
    (p.giftCards.get? 1 = some c ∧ c.saleId = some 1) ∧ q.sales.get? 1 = none ∧
    balanceOf q.giftCards 1 = 100 ∧
    ∃ found, validateGiftCard (owner 2) "GIFT" q = .ok found ∧ found.1 = 1 := by
  have hrun : (((service oneProduct).run Db.empty.beforeSales soldCard).any fun p =>
      (p.giftCards.get? 1).any (fun c => c.saleId == some 1) &&
        ((service oneProduct).run p orphaning).any fun q => (q.sales.get? 1).isNone &&
          decide (balanceOf q.giftCards 1 = 100) &&
          (validateGiftCard (owner 2) "GIFT" q).toOption.any fun found => found.1 == 1) = true := by
    decide +kernel
  obtain ⟨p, hp, hpq⟩ := (Option.any_eq_true _ _).1 hrun
  simp only [Bool.and_eq_true, Option.any_eq_true, beq_iff_eq, decide_eq_true_eq,
    Option.isNone_iff_eq_none, toOption_eq_some] at hpq
  obtain ⟨⟨c, hc, hx⟩, q, hq, ⟨hgone, hbalance⟩, found, hfound, hk⟩ := hpq
  exact ⟨p, q, c, hp, hq, ⟨hc, hx⟩, hgone, hbalance, found, hfound, hk⟩

end Barbershop
