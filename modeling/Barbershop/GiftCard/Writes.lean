import Barbershop.GiftCard.Ledger

/-!
# What each request writes to the card ledger

Every request that touches sales or gift cards is a chain of ledger writes, and says what it gives
back of each card. The reads a request decided on may be of any earlier state; only deleting a sale
needs the sale it read and the row it deletes to agree on the card they used.
-/

namespace Barbershop

open Lib

variable {cat : Catalog} {ctx : Caller} {db db' : Db}

theorem createGiftCard_writes {data : GiftCardInput} (h : createGiftCard ctx data db = .ok db') :
    CardWrites db.cardLedger db'.cardLedger 0 := by
  obtain ⟨hpos, rfl⟩ := createGiftCard_ok h
  exact .single (.issue _ _ rfl hpos.le rfl rfl)

theorem setGiftCardActive_writes {networkId giftCardId : ℕ} {isActive : Bool}
    (h : setGiftCardActive networkId giftCardId isActive db = .ok db') :
    CardWrites db.cardLedger db'.cardLedger 0 := by
  obtain rfl := setGiftCardActive_ok h
  exact .single (.setActive giftCardId isActive)

theorem commitSale_writes {plan : SalePlan} {n : ℤ} (hn : 0 ≤ n)
    (hcents : plan.charge.giftCardAmountApplied = (n : ℚ) / 100)
    (h : commitSale cat ctx plan db = .ok db') :
    CardWrites db.cardLedger db'.cardLedger 0 := by
  obtain ⟨cards, club, packages, customers, hcards, -, -, -, rfl⟩ := commitSale_ok h
  unfold SalePlan.debitCard at hcards
  cases hk : plan.giftCardId with
  | none =>
    simp only [hk, pure_eq_ok] at hcards
    exact hcards ▸ .single (.sell _ hk)
  | some k =>
    simp only [hk, debitGiftCard, orRefuse_eq_ok, hcents] at hcards
    obtain ⟨c, hc, hle, rfl⟩ := Table.tryModify_eq_some.1 hcards
    refine .single (.redeem _ k c n hk ?_ hn hc (of_decide_eq_true hle))
    simp [SalePlan.sale, hk, hcents]

theorem createSale_writes {data : SaleInput} {reads : SaleRead → Db}
    (h : createSale cat ctx data reads db = .ok db') :
    CardWrites db.cardLedger db'.cardLedger 0 := by
  obtain ⟨plan, hplan, hcommit⟩ := createSale_ok h
  obtain ⟨n, hn, hcents⟩ := hplan.card_cents
  exact commitSale_writes hn hcents hcommit

theorem updateSale_writes {saleId : ℕ} {data : SalePatch} {reads : UpdateRead → Db}
    (h : updateSale cat ctx saleId data reads db = .ok db') :
    CardWrites db.cardLedger db'.cardLedger 0 := by
  obtain ⟨e, -, -, hcommit⟩ := updateSale_ok h
  obtain ⟨s, -, rfl⟩ := commitEdit_ok hcommit
  exact .single (.edit saleId (e.row ctx) fun _ => ⟨rfl, rfl⟩)

/-! ## Deleting -/

/-- What cancelling the card that a deleted sale issued takes off the balance of a card. -/
def cancelledOf (saleId : ℕ) (reads : DeleteRead → Db) (cards : Table GiftCard) (k : ℕ) : ℚ :=
  (cancelIssuedCard saleId reads cards).toOption.elim 0 fun cards' =>
    balanceOf cards k - balanceOf cards' k

theorem restoreCard_congr {s existing : Sale} (h : s.SameCharge existing) (cards : Table GiftCard) :
    restoreCard existing cards = restoreCard s cards := by
  unfold restoreCard
  rw [h.card, h.applied]

theorem cancelIssuedCard_writes {saleId : ℕ} {reads : DeleteRead → Db} {sales : Table Sale}
    {cards cards' : Table GiftCard} (h : cancelIssuedCard saleId reads cards = .ok cards') :
    CardWrites ⟨sales, cards⟩ ⟨sales, cards'⟩ (cancelledOf saleId reads cards) := by
  have hg : cancelledOf saleId reads cards = fun k => balanceOf cards k - balanceOf cards' k := by
    funext k
    simp [cancelledOf, h, Except.toOption]
  have hsame : cards' = cards →
      CardWrites ⟨sales, cards⟩ ⟨sales, cards'⟩ (cancelledOf saleId reads cards) := by
    rintro rfl
    refine (CardWrites.done _).cast ?_
    rw [hg]
    funext k
    exact (sub_self _).symm
  rcases cancelIssuedCard_ok h with ⟨-, he⟩ | ⟨k, issued, -, -, ⟨c, -, -, rfl⟩ | ⟨-, he⟩⟩
  · exact hsame he
  · exact (CardWrites.single (.giveBack k)).cast hg.symm
  · exact hsame he

theorem deleteSale_writes {saleId : ℕ} {reads : DeleteRead → Db}
    (hsame : ∀ s existing, db.sales.get? saleId = some s →
      (reads .existing).sales.get? saleId = some existing → s.SameCharge existing)
    (h : deleteSale ctx saleId reads db = .ok db') :
    CardWrites db.cardLedger db'.cardLedger (cancelledOf saleId reads db.giftCards) := by
  obtain ⟨existing, packages, cards, s, hcheck, -, hcards, hs, rfl⟩ := deleteSale_ok h
  have hcancel : CardWrites db.cardLedger ⟨db.sales, cards⟩ (cancelledOf saleId reads db.giftCards) :=
    cancelIssuedCard_writes hcards
  have herase := CardWrites.single (CardWrite.erase (l := ⟨db.sales, cards⟩) saleId s hs)
  rw [← restoreCard_congr (hsame s existing hs (checkDelete_ok hcheck).1)] at herase
  exact (hcancel.trans herase).cast (add_zero _)

/-! ## Refunding -/

theorem refund_sales_writes (ctx : Caller) (r : Refund) (saleId : ℕ) (openSession : Option ℕ) (sales : Table Sale)
    (cards : Table GiftCard) :
    CardWrites ⟨sales, cards⟩ ⟨r.sales ctx saleId openSession sales, cards⟩ 0 := by
  have earned : ∀ s : Sale, s.SameCharge (r.lowerEarned ctx.shop.network s) := by
    intro s
    unfold Refund.lowerEarned
    split <;> exact ⟨rfl, rfl⟩
  have lower : ∀ s : Sale, s.SameCharge (r.lower ctx.shop.network s) := by
    intro s
    exact ⟨(earned _).card, (earned _).applied⟩
  unfold Refund.sales
  split
  · split
    · exact (CardWrites.next (.sell (r.sale ctx saleId openSession) rfl)
        (.single (.edit saleId _ earned))).cast (add_zero 0)
    · exact .single (.edit saleId _ earned)
  · exact .single (.edit saleId _ lower)

theorem refundIssuedRemainder_writes {saleId : ℕ} {reads : RefundRead → Db}
    (h : refundIssuedRemainder ctx saleId reads db = .ok db') :
    CardWrites db.cardLedger db'.cardLedger
      fun k => balanceOf db.giftCards k - balanceOf db'.giftCards k := by
  obtain ⟨existing, s, -, -, -, -, r, packages, cards, -, hr, rfl⟩ := refundIssuedRemainder_ok h
  have hsales := refund_sales_writes ctx r saleId
    ((reads .openSession).openSession ctx.shop.id) db.sales cards
  rcases hr with ⟨found, -, -, rfl⟩ | ⟨found, -, -, hr, -⟩
  · refine hsales.cast (funext fun k => ?_)
    exact (sub_self _).symm
  · obtain ⟨c, -, -, rfl⟩ := Table.tryModify_eq_some.1 (refundCard_ok hr).2.2.2
    exact (CardWrites.next (.giveBack found.1) hsales).cast (add_zero _)

end Barbershop
