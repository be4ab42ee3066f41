import Barbershop.GiftCard.Writes

/-!
# What is refunded of a gift card

A refund sale names the sale it refunds in the note of its line. `RefundLaw` ties what was refunded
of an issuing sale to what its card gave back: a paid sale refunds what the card gave back, halves of
a cent kept, and a pending one refunds nothing. What a card gives back is at most what it was issued
with, so the refunds never total more than the sale (`RefundLaw.le_total`).

Once something was given back, everything that comes on the card again is whole cents, since only
deleted sales bring it there; before that the balance may have parts of a cent, from an initial value
that has some.
-/

namespace Barbershop

open Lib

/-- What a sale refunds of sale `x`. -/
def Sale.refundOf (s : Sale) (x : ℕ) : ℚ :=
  if s.saleType = .refund ∧ ∃ i ∈ s.items, i.notes = some (.remainderOf x) then -s.total else 0

def refundsOf (sales : Table Sale) (x : ℕ) : ℚ := sales.sum fun _ s => s.refundOf x

theorem refundOf_of_type {s : Sale} (h : s.saleType ≠ .refund) (x : ℕ) : s.refundOf x = 0 :=
  if_neg fun hs => h hs.1

theorem refundsOf_insert (sales : Table Sale) (s : Sale) (x : ℕ) :
    refundsOf (sales.insert s) x = refundsOf sales x + s.refundOf x :=
  Table.sum_insert ..

theorem refundsOf_modify {sales : Table Sale} {y : ℕ} {f : Sale → Sale} {x : ℕ}
    (h : ∀ s, sales.get? y = some s → (f s).refundOf x = s.refundOf x) :
    refundsOf (sales.modify y f) x = refundsOf sales x :=
  Table.sum_modify_eq _ _ h

theorem refundsOf_erase {sales : Table Sale} {y : ℕ} {s : Sale} (hy : sales.get? y = some s)
    (hs : s.saleType ≠ .refund) (x : ℕ) : refundsOf (sales.erase y) x = refundsOf sales x := by
  have hsum := Table.sum_erase (fun _ s' => Sale.refundOf s' x) hy
  rwa [refundOf_of_type hs, add_zero] at hsum

/-! ## Refunds name sales that were made -/

structure RefundsNoted (sales : Table Sale) : Prop where
  noted : ∀ y s, sales.get? y = some s → s.saleType = .refund → ∀ i ∈ s.items, ∀ x,
    i.notes = some (.remainderOf x) → x < sales.next

namespace RefundsNoted

variable {sales : Table Sale}

theorem insert (h : RefundsNoted sales) {s : Sale} (hs : s.saleType = .refund → ∀ i ∈ s.items, ∀ x,
    i.notes = some (.remainderOf x) → x < sales.next) : RefundsNoted (sales.insert s) := by
  constructor
  intro y s' hy ht i hi x hx
  rw [Table.get?_insert] at hy
  refine Nat.lt_succ_of_lt ?_
  split at hy
  · obtain rfl := Option.some.inj hy
    exact hs ht i hi x hx
  · exact h.noted y s' hy ht i hi x hx

theorem insert_of_type (h : RefundsNoted sales) {s : Sale} (hs : s.saleType ≠ .refund) :
    RefundsNoted (sales.insert s) :=
  h.insert fun ht => absurd ht hs

theorem modify (h : RefundsNoted sales) {y : ℕ} {f : Sale → Sale}
    (hf : ∀ s, sales.get? y = some s → (f s).saleType = .refund →
      s.saleType = .refund ∧ (f s).items = s.items) : RefundsNoted (sales.modify y f) := by
  constructor
  intro z s' hz ht i hi x hx
  rw [Table.get?_modify] at hz
  split at hz
  · next hzy =>
    obtain ⟨s, hs, rfl⟩ := Option.map_eq_some_iff.1 hz
    obtain ⟨ht', hitems⟩ := hf s (hzy ▸ hs) ht
    exact h.noted z s hs ht' i (hitems ▸ hi) x hx
  · exact h.noted z s' hz ht i hi x hx

theorem erase (h : RefundsNoted sales) (y : ℕ) : RefundsNoted (sales.erase y) := by
  constructor
  intro z s hz ht i hi x hx
  rw [Table.get?_erase] at hz
  split at hz
  · cases hz
  · exact h.noted z s hz ht i hi x hx

/-- Nothing was refunded yet of the next sale. -/
theorem refundsOf_next (h : RefundsNoted sales) : refundsOf sales sales.next = 0 := by
  refine Table.sum_eq_zero fun y s hy => ?_
  refine if_neg ?_
  rintro ⟨ht, i, hi, hx⟩
  exact Nat.lt_irrefl _ (h.noted y s hy ht i hi _ hx)

end RefundsNoted

/-! ## The law -/

/-- What was refunded of sale `x`, with row `s`, which issued card `k`. -/
structure CardRefunds (l : CardLedger) (k x : ℕ) (s : Sale) : Prop where
  type : s.saleType = .giftCard
  total_nonneg : 0 ≤ s.total
  total : s.paymentStatus = .paid → s.total = round2 (initialOf l.cards k)
  paid : s.paymentStatus = .paid → refundsOf l.sales x = round2Down (l.returned k)
  pending : s.paymentStatus ≠ .paid → refundsOf l.sales x = 0
  cents : l.returned k = 0 ∨ IsCents (initialOf l.cards k - l.returned k)

structure RefundLaw (l : CardLedger) : Prop where
  noted : RefundsNoted l.sales
  law : ∀ k c x s, l.cards.get? k = some c → c.saleId = some x → l.sales.get? x = some s →
    CardRefunds l k x s

namespace RefundLaw

variable {l l' : CardLedger} {g : ℕ → ℚ}

/-- The refunds of a card never total more than the sale that issued it. -/
theorem le_total (h : RefundLaw l) (hb : l.Balanced) {k x : ℕ} {c : GiftCard} {s : Sale}
    (hk : l.cards.get? k = some c) (hx : c.saleId = some x) (hs : l.sales.get? x = some s) :
    refundsOf l.sales x ≤ s.total := by
  have hlaw := h.law k c x s hk hx hs
  by_cases hpaid : s.paymentStatus = .paid
  · have hreturned : l.returned k ≤ initialOf l.cards k := by
      have := hb.solvent.balance k
      have := hb.charged.usedOf_nonneg k
      unfold CardLedger.returned
      linarith
    calc refundsOf l.sales x = round2Down (l.returned k) := hlaw.paid hpaid
      _ ≤ round2Down (initialOf l.cards k) := round2Down_mono hreturned
      _ ≤ round2 (initialOf l.cards k) := round2Down_le_round2 _
      _ = s.total := (hlaw.total hpaid).symm
  · exact (hlaw.pending hpaid).trans_le hlaw.total_nonneg

/-- A chain of writes that gives nothing back of a card, and leaves its sale and the refunds of it
alone, keeps the law for it. -/
theorem frame (h : RefundLaw l) (hb : l.Balanced) (ws : CardWrites l l' g) {k x : ℕ} {c' : GiftCard}
    {s : Sale} (hk : l'.cards.get? k = some c') (hx : c'.saleId = some x)
    (hold : k < l.cards.next) (hg : g k = 0)
    (hsale : l.sales.get? x = some s) (hrefunds : refundsOf l'.sales x = refundsOf l.sales x) :
    CardRefunds l' k x s := by
  rcases ws.linked_back hb hk hx with ⟨hnew, -⟩ | ⟨c, hc, hcx⟩
  · exact absurd hold (Nat.not_lt.2 hnew)
  · have hlaw := h.law k c x s hc hcx hsale
    have hinitial := ws.initialOf_eq (k := k) (by simp [hc])
    have hreturned : l'.returned k = l.returned k := by rw [ws.returned hb, hg, add_zero]
    exact {
      type := hlaw.type
      total_nonneg := hlaw.total_nonneg
      total := fun hp => by rw [hinitial, hlaw.total hp]
      paid := fun hp => by rw [hrefunds, hreturned, hlaw.paid hp]
      pending := fun hp => by rw [hrefunds, hlaw.pending hp]
      cents := by rw [hinitial, hreturned]; exact hlaw.cents }

/-- A new sale that is no refund, and issues no card. -/
theorem insert (h : RefundLaw l) (hb : l.Balanced) {s : Sale} {cards : Table GiftCard}
    (ws : CardWrites l ⟨l.sales.insert s, cards⟩ 0) (hs : s.saleType ≠ .refund)
    (hcards : cards.next = l.cards.next) : RefundLaw ⟨l.sales.insert s, cards⟩ where
  noted := h.noted.insert_of_type hs
  law k c x s' hk hx hs' := by
    have hold : k < l.cards.next := hcards ▸ Table.lt_next_of_get? hk
    rcases ws.linked_back hb hk hx with ⟨hnew, -⟩ | ⟨c₀, hc₀, hcx⟩
    · exact absurd hold (Nat.not_lt.2 hnew)
    · obtain ⟨s₀, hs₀⟩ := Option.isSome_iff_exists.1 (hb.linked.issued k c₀ x hc₀ hcx)
      have hsame : l.sales.get? x = some s' := by
        rw [hs₀, ← Table.get?_insert_of_some s hs₀]
        exact hs'
      refine h.frame hb ws hk hx hold rfl hsame ?_
      rw [refundsOf_insert, refundOf_of_type hs, add_zero]

/-- A new card with its sale. -/
theorem issue (h : RefundLaw l) (hb : l.Balanced) {s : Sale} {c : GiftCard}
    (hs : s.giftCardId = none) (hpos : 0 ≤ c.initialValue) (hfull : c.remainingValue = c.initialValue)
    (hsale : c.saleId = some l.sales.next) (htype : s.saleType = .giftCard)
    (htotal : s.total = round2 c.initialValue) :
    RefundLaw ⟨l.sales.insert s, l.cards.insert c⟩ where
  noted := h.noted.insert_of_type (by simp [htype])
  law k c' x s' hk hx hs' := by
    have w := CardWrite.issue s c hs hpos hfull hsale
    by_cases hnew : k = l.cards.next
    · subst hnew
      obtain rfl : c = c' := by simpa using hk
      obtain rfl : l.sales.next = x := Option.some.inj (hsale.symm.trans hx)
      obtain rfl : s = s' := by simpa using hs'
      have hinitial : initialOf (l.cards.insert c) l.cards.next = c.initialValue :=
        Table.value_of_get? _ (Table.get?_insert_self ..)
      have hnone := Table.get?_next l.cards
      have hreturned : (⟨l.sales.insert s, l.cards.insert c⟩ : CardLedger).returned l.cards.next = 0 := by
        rw [w.returned hb.charged, CardLedger.returned, initialOf, balanceOf,
          Table.value_of_none _ hnone, Table.value_of_none _ hnone, hb.charged.usedOf_eq_zero hnone]
        simp
      have hrefunds : refundsOf (l.sales.insert s) l.sales.next = 0 := by
        rw [refundsOf_insert, refundOf_of_type (by simp [htype]), h.noted.refundsOf_next, add_zero]
      exact {
        type := htype
        total_nonneg := htotal ▸ round2_nonneg hpos
        total := fun _ => by rw [htotal, hinitial]
        paid := fun _ => by rw [hreturned, hrefunds, round2Down_zero]
        pending := fun _ => hrefunds
        cents := .inl hreturned }
    · have hc' : l.cards.get? k = some c' := by simpa [Table.get?_insert, hnew] using hk
      obtain ⟨s₀, hs₀⟩ := Option.isSome_iff_exists.1 (hb.linked.issued k c' x hc' hx)
      have hsame : l.sales.get? x = some s' := by
        rw [hs₀, ← Table.get?_insert_of_some s hs₀]
        exact hs'
      refine h.frame hb (.single w) hk hx (Table.lt_next_of_get? hc') rfl hsame ?_
      rw [refundsOf_insert, refundOf_of_type (by simp [htype]), add_zero]

end RefundLaw

/-! ### Deleting a sale -/

/-- Deleting a sale takes nothing off the cards that another sale issued. -/
theorem cancelledOf_eq_zero {x : ℕ} {reads : DeleteRead → Db} {cards cards' : Table GiftCard}
    (h : cancelIssuedCard x reads cards = .ok cards') {k : ℕ} {c : GiftCard}
    (hk : cards.get? k = some c) (hne : c.saleId ≠ some x) : cancelledOf x reads cards k = 0 := by
  unfold cancelledOf
  rw [h]
  change balanceOf cards k - balanceOf cards' k = 0
  rcases cancelIssuedCard_ok h with ⟨-, rfl⟩ | ⟨j, issued, -, -, ⟨c', hj, hc', rfl⟩ | ⟨-, rfl⟩⟩
  · exact sub_self _
  · have hkj : k ≠ j := by
      rintro rfl
      obtain rfl : c = c' := Option.some.inj (hk.symm.trans hj)
      exact hne (GiftCard.cancellable_iff.1 hc').1
    rw [balanceOf, balanceOf, Table.value_modify_of_ne _ _ _ hkj, sub_self]
  · exact sub_self _

theorem next_restoreCard (s : Sale) (cards : Table GiftCard) :
    (restoreCard s cards).next = cards.next := by
  unfold restoreCard
  split <;> rfl

theorem next_cancelIssuedCard {x : ℕ} {reads : DeleteRead → Db} {cards cards' : Table GiftCard}
    (h : cancelIssuedCard x reads cards = .ok cards') : cards'.next = cards.next := by
  rcases cancelIssuedCard_ok h with ⟨-, rfl⟩ | ⟨j, issued, -, -, ⟨c', -, -, rfl⟩ | ⟨-, rfl⟩⟩
  all_goals rfl

/-- Deleting a sale keeps the law of the cards that other sales issued. -/
theorem RefundLaw.delete {l : CardLedger} (h : RefundLaw l) (hb : l.Balanced) {x : ℕ} {s : Sale}
    {existing : Sale} {reads : DeleteRead → Db} {cards : Table GiftCard}
    (hcards : cancelIssuedCard x reads l.cards = .ok cards) (hs : l.sales.get? x = some s)
    (htype : s.saleType ≠ .refund)
    (ws : CardWrites l ⟨l.sales.erase x, unlinkCards x (restoreCard existing cards)⟩
      (cancelledOf x reads l.cards)) :
    RefundLaw ⟨l.sales.erase x, unlinkCards x (restoreCard existing cards)⟩ where
  noted := h.noted.erase x
  law k c' y s' hk hy hs' := by
    dsimp only at hs'
    rw [Table.get?_erase] at hs'
    split at hs'
    · cases hs'
    · next hyx =>
      have hold : k < l.cards.next := by
        have hlt := Table.lt_next_of_get? hk
        have hnext : (unlinkCards x (restoreCard existing cards)).next = l.cards.next :=
          (next_restoreCard existing cards).trans (next_cancelIssuedCard hcards)
        exact hnext ▸ hlt
      rcases ws.linked_back hb hk hy with ⟨hnew, -⟩ | ⟨c, hc, hcy⟩
      · exact absurd hold (Nat.not_lt.2 hnew)
      · have hne : c.saleId ≠ some x := fun e => hyx (Option.some.inj (hcy.symm.trans e))
        exact h.frame hb ws hk hy hold (cancelledOf_eq_zero hcards hc hne) hs'
          (refundsOf_erase hs htype y)

/-! ### Refunding a remainder -/

namespace Refund

variable (r : Refund) (ctx : Caller) (x : ℕ) (openSession : Option ℕ) {sales : Table Sale} {s : Sale}

theorem lowerEarned_saleType (network : Network) (s : Sale) :
    (r.lowerEarned network s).saleType = s.saleType ∧ (r.lowerEarned network s).total = s.total ∧
      (r.lowerEarned network s).paymentStatus = s.paymentStatus ∧
      (r.lowerEarned network s).items = s.items := by
  unfold Refund.lowerEarned
  split <;> exact ⟨rfl, rfl, rfl, rfl⟩

theorem lower_saleType (network : Network) (s : Sale) :
    (r.lower network s).saleType = s.saleType ∧ (r.lower network s).total = r.newTotal ∧
      (r.lower network s).paymentStatus = s.paymentStatus := by
  unfold Refund.lower
  have h := r.lowerEarned_saleType network
  exact ⟨(h _).1, (h _).2.1, (h _).2.2.1⟩

/-- The rows of the other sales stay. -/
theorem get?_sales_of_ne {y : ℕ} {s' : Sale} (hy : sales.get? y = some s') (hne : y ≠ x) :
    (r.sales ctx x openSession sales).get? y = some s' := by
  unfold Refund.sales
  split
  · rw [Table.get?_modify_of_ne _ _ hne]
    split
    · exact Table.get?_insert_of_some _ hy
    · exact hy
  · rw [Table.get?_modify_of_ne _ _ hne, hy]

/-- The refunded sale keeps its type and status; a pending one is lowered. -/
theorem get?_sales_self (hs : sales.get? x = some s) :
    ∃ s', (r.sales ctx x openSession sales).get? x = some s' ∧ s'.saleType = s.saleType ∧
      s'.paymentStatus = s.paymentStatus ∧ s'.total = if r.paid then s.total else r.newTotal := by
  unfold Refund.sales
  split
  · refine ⟨r.lowerEarned ctx.shop.network s, ?_, ?_⟩
    · rw [Table.get?_modify_self]
      split
      · rw [Table.get?_insert_of_some _ hs, Option.map_some]
      · rw [hs, Option.map_some]
    · have h := r.lowerEarned_saleType ctx.shop.network s
      exact ⟨h.1, h.2.2.1, h.2.1⟩
  · refine ⟨r.lower ctx.shop.network s, by rw [Table.get?_modify_self, hs, Option.map_some], ?_⟩
    have h := r.lower_saleType ctx.shop.network s
    exact ⟨h.1, h.2.2, h.2.1⟩

theorem refundOf_sale (y : ℕ) :
    (r.sale ctx x openSession).refundOf y = if y = x then r.amount else 0 := by
  simp [Sale.refundOf, Refund.sale, eq_comm]

/-- A refund of a paid sale adds its amount, if there is any, to what was refunded of that sale. -/
theorem refundsOf_sales (hs : sales.get? x = some s) (htype : s.saleType ≠ .refund) (y : ℕ) :
    refundsOf (r.sales ctx x openSession sales) y =
      refundsOf sales y + if r.paid = true ∧ y = x then max 0 r.amount else 0 := by
  have earned : ∀ s : Sale, (r.lowerEarned ctx.shop.network s).refundOf y = s.refundOf y := by
    intro s
    have h := r.lowerEarned_saleType ctx.shop.network s
    unfold Sale.refundOf
    rw [h.1, h.2.1, h.2.2.2]
  unfold Refund.sales
  cases hp : r.paid with
  | true =>
    simp only [if_true, true_and]
    rw [refundsOf_modify fun s _ => earned s]
    split
    · next hpos => rw [refundsOf_insert, refundOf_sale, max_eq_right hpos.le]
    · next hzero => simp [max_eq_left (not_lt.1 hzero)]
  | false =>
    simp only [Bool.false_eq_true, if_false, false_and, add_zero]
    refine refundsOf_modify fun a ha => ?_
    obtain rfl : s = a := Option.some.inj (hs.symm.trans ha)
    rw [refundOf_of_type htype, refundOf_of_type]
    rwa [(r.lower_saleType ctx.shop.network s).1]

theorem noted_sales (h : RefundsNoted sales) (hs : sales.get? x = some s)
    (htype : s.saleType ≠ .refund) : RefundsNoted (r.sales ctx x openSession sales) := by
  have hearned : ∀ t : Table Sale, RefundsNoted t →
      RefundsNoted (t.modify x (r.lowerEarned ctx.shop.network)) := by
    intro t ht
    refine ht.modify fun s _ htype => ?_
    have h := r.lowerEarned_saleType ctx.shop.network s
    exact ⟨h.1 ▸ htype, h.2.2.2⟩
  unfold Refund.sales
  split
  · refine hearned _ ?_
    split
    · refine h.insert fun _ i hi y hy => ?_
      obtain rfl : x = y := by
        simp only [Refund.sale, List.mem_singleton] at hi
        subst hi
        simpa using hy
      exact Table.lt_next_of_get? hs
    · exact h
  · refine h.modify fun a ha ht => ?_
    obtain rfl : s = a := Option.some.inj (hs.symm.trans ha)
    exact absurd ((r.lower_saleType ctx.shop.network s).1 ▸ ht) htype

end Refund

/-- The two rows agree on what the sale issued and what is refunded of it. -/
structure Sale.SameIssue (s s' : Sale) : Prop where
  charge : s.SameCharge s'
  type : s'.saleType = s.saleType
  status : s'.paymentStatus = s.paymentStatus
  total : s.paymentStatus = .paid → s'.total = s.total

namespace Sale.SameIssue

theorem refl (s : Sale) : s.SameIssue s := ⟨⟨rfl, rfl⟩, rfl, rfl, fun _ => rfl⟩

theorem symm {s s' : Sale} (h : s.SameIssue s') : s'.SameIssue s where
  charge := ⟨h.charge.card.symm, h.charge.applied.symm⟩
  type := h.type.symm
  status := h.status.symm
  total hp := (h.total (h.status ▸ hp)).symm

theorem trans {s s' s'' : Sale} (h : s.SameIssue s') (h' : s'.SameIssue s'') : s.SameIssue s'' where
  charge := ⟨h'.charge.card.trans h.charge.card, h'.charge.applied.trans h.charge.applied⟩
  type := h'.type.trans h.type
  status := h'.status.trans h.status
  total hp := (h'.total (h.status ▸ hp)).trans (h.total hp)

end Sale.SameIssue

theorem CardLedger.Charged.usedOf_cents {l : CardLedger} (h : l.Charged) (k : ℕ) :
    IsCents (usedOf l.sales k) := by
  refine Table.sum_induction IsCents isCents_zero (fun _ _ => IsCents.add) fun x s hx => ?_
  unfold Sale.usedOn
  split
  · next hk =>
    obtain ⟨-, n, -, ha⟩ := h.charged x s hx k hk
    exact ⟨n, by rw [ha, Option.getD_some]⟩
  · exact isCents_zero

/-- The refund of a balance `b` of a card: the total is what was charged for the card, `v` what it
was issued with, `u` what sales used of it and `p` what it gave back before. -/
theorem refund_amount {v u p b : ℚ} (hb : b = v - p - u) (hpos : 0 < b) (hlt : b < v)
    (hu : IsCents u) (hu0 : 0 ≤ u) (hp0 : 0 ≤ p) (hp : p = 0 ∨ IsCents (v - p)) :
    0 ≤ round2 (round2 v - round2 (max 0 (round2 v - b))) ∧
      round2Down p + round2 (round2 v - round2 (max 0 (round2 v - b))) = round2Down (p + b) := by
  have hcents : round2 (round2 v - round2 (max 0 (round2 v - b))) =
      round2 v - round2 (max 0 (round2 v - b)) :=
    ((isCents_round2 v).sub (isCents_round2 _)).round2_eq
  have hnonneg : round2 (max 0 (round2 v - b)) ≤ round2 v := by
    have hv : 0 ≤ round2 v := round2_nonneg (hpos.trans hlt).le
    have hle := round2_mono (max_le hv (by linarith : round2 v - b ≤ round2 v))
    rwa [round2_round2] at hle
  rw [hcents]
  refine ⟨sub_nonneg.2 hnonneg, ?_⟩
  rcases hp with rfl | hp
  · -- nothing was given back before: some whole cents of the card were used, so the sale covers it
    obtain ⟨n, rfl⟩ := hu
    have hn : (1 : ℚ) ≤ n := by
      have : (0 : ℚ) < n := by linarith
      exact_mod_cast Int.cast_pos.1 this
    have hround := lt_round2_sub v
    rw [max_eq_right (by linarith)]
    obtain ⟨m, hm⟩ := isCents_round2 v
    rw [hm, round2_sub_round2, round2Down_zero, zero_add, zero_add]
  · -- what is on the card came back from sales, in whole cents
    have hbc : IsCents b := by
      rw [hb]
      exact hp.sub hu
    have hle : b ≤ round2 v := by
      have := round2_mono hlt.le
      rwa [hbc.round2_eq] at this
    rw [max_eq_right (by linarith), ((isCents_round2 v).sub hbc).round2_eq]
    obtain ⟨n, rfl⟩ := hbc
    rw [round2Down_add_intCast_div]
    ring

/-- Refunding the remainder of a card keeps the law: of its own sale by the amount, and of the
others because their cards are not touched. -/
theorem RefundLaw.refundCard {l : CardLedger} (h : RefundLaw l) (hb : l.Balanced) {ctx : Caller}
    {x : ℕ} {existing s : Sale} {found : ℕ × GiftCard} {cards : Table GiftCard} {r : Refund}
    {openSession : Option ℕ} (hr : Barbershop.refundCard x existing found l.cards = .ok (r, cards))
    (hs : l.sales.get? x = some s) (hsame : existing.SameIssue s)
    (hinitial : initialOf l.cards found.1 = found.2.initialValue) :
    RefundLaw ⟨r.sales ctx x openSession l.sales, cards⟩ := by
  obtain ⟨hlt, hpos, rfl, hmod⟩ := refundCard_ok hr
  obtain ⟨k₀, issued⟩ := found
  obtain ⟨c, hc, hbalance, rfl⟩ := Table.tryModify_eq_some.1 hmod
  simp only at hlt hpos hc hinitial
  obtain ⟨hcx, hrest⟩ : c.saleId = some x ∧ c.remainingValue = issued.remainingValue := by
    simpa [GiftCard.sameBalance] using hbalance
  have hlaw := h.law k₀ c x s hc hcx hs
  have hb₀ : balanceOf l.cards k₀ = issued.remainingValue := hrest ▸ Table.value_of_get? _ hc
  set r : Refund := {
    existing := existing
    itemType := .giftCard
    newTotal := round2 (max 0 (existing.total - issued.remainingValue)) } with hrdef
  have htype : s.saleType ≠ .refund := by simp [hlaw.type]
  have hamount : r.paid = true → 0 ≤ r.amount ∧
      round2Down (l.returned k₀) + r.amount =
        round2Down (l.returned k₀ + issued.remainingValue) := by
    intro hp
    have hpaid : existing.paymentStatus = .paid := by simpa [Refund.paid, hrdef] using hp
    have htotal : existing.total = round2 issued.initialValue := by
      rw [← hsame.total hpaid, hlaw.total (hsame.status.trans hpaid), hinitial]
    have hcents := hlaw.cents
    rw [hinitial] at hcents
    have := refund_amount (v := issued.initialValue) (u := usedOf l.sales k₀) (p := l.returned k₀)
      (b := issued.remainingValue) ?_ hpos hlt (hb.charged.usedOf_cents k₀)
      (hb.charged.usedOf_nonneg k₀) (hb.solvent.returned k₀) hcents
    · simpa only [Refund.amount, hrdef, htotal] using this
    · unfold CardLedger.returned
      rw [hinitial, hb₀]
      ring
  have ws : CardWrites l ⟨r.sales ctx x openSession l.sales, l.cards.modify k₀ (·.cancel)⟩
      fun j => balanceOf l.cards j - balanceOf (l.cards.modify k₀ (·.cancel)) j :=
    (CardWrites.next (.giveBack k₀) (refund_sales_writes ctx r x openSession ..)).cast (add_zero _)
  have hrefunds := r.refundsOf_sales ctx x openSession hs htype
  refine ⟨r.noted_sales ctx x openSession h.noted hs htype, fun k c' y s' hk hy hs' => ?_⟩
  have hold : k < (l.cards.modify k₀ (·.cancel)).next := Table.lt_next_of_get? hk
  rcases ws.linked_back hb hk hy with ⟨hnew, -⟩ | ⟨c₁, hc₁, hcy⟩
  · exact absurd hold (Nat.not_lt.2 hnew)
  · by_cases hyx : y = x
    · subst hyx
      obtain rfl : k = k₀ := hb.linked.unique k c₁ k₀ c y hc₁ hc hcy hcx
      obtain ⟨s₁, hs₁, htype₁, hstatus, htotal⟩ := r.get?_sales_self ctx y openSession hs
      obtain rfl : s₁ = s' := Option.some.inj (hs₁.symm.trans hs')
      have hinitial' := ws.initialOf_eq (k := k) (by simp [hc])
      have hzero : balanceOf (l.cards.modify k (·.cancel)) k = 0 := Table.value_modify_self _ _ hc
      have hreturned := ws.returned hb k
      rw [hb₀, hzero, sub_zero] at hreturned
      have hpaid : r.paid = true ↔ s.paymentStatus = .paid := by
        simp [Refund.paid, hrdef, hsame.status]
      exact {
        type := htype₁.trans hlaw.type
        total_nonneg := by
          rw [htotal]
          split
          · exact hlaw.total_nonneg
          · exact round2_nonneg (le_max_left ..)
        total := fun hp => by
          rw [htotal, if_pos (hpaid.2 (hstatus ▸ hp)), hlaw.total (hstatus ▸ hp), hinitial']
        paid := fun hp => by
          have hp' := hpaid.2 (hstatus ▸ hp)
          rw [hrefunds, if_pos ⟨hp', rfl⟩, max_eq_right (hamount hp').1, hreturned,
            hlaw.paid (hstatus ▸ hp), (hamount hp').2]
        pending := fun hp => by
          have hp' : ¬(r.paid = true ∧ y = y) := fun e => hp (hstatus.trans (hpaid.1 e.1))
          rw [hrefunds, if_neg hp', hlaw.pending (hstatus ▸ hp), add_zero]
        cents := by
          right
          rw [hinitial', hreturned, ← hb₀]
          have e : initialOf l.cards k - (l.returned k + balanceOf l.cards k) =
              usedOf l.sales k := by
            unfold CardLedger.returned
            ring
          exact e ▸ hb.charged.usedOf_cents k }
    · have hkk : k ≠ k₀ := by
        rintro rfl
        obtain rfl : c₁ = c := Option.some.inj (hc₁.symm.trans hc)
        exact hyx (Option.some.inj (hcy.symm.trans hcx))
      obtain ⟨s₀, hs₀⟩ := Option.isSome_iff_exists.1 (hb.linked.issued k c₁ y hc₁ hcy)
      have hrow := r.get?_sales_of_ne ctx x openSession hs₀ hyx
      obtain rfl : s₀ = s' := Option.some.inj (hrow.symm.trans hs')
      refine h.frame hb ws hk hy hold ?_ hs₀ ?_
      · rw [balanceOf, balanceOf, Table.value_modify_of_ne _ _ _ hkk, sub_self]
      · rw [hrefunds, if_neg fun e => hyx e.2, add_zero]

/-- Refunding the remainder of a package concerns no card. -/
theorem RefundLaw.refundOther {l : CardLedger} (h : RefundLaw l) (hb : l.Balanced) {ctx : Caller}
    {x : ℕ} {s : Sale} {r : Refund} {openSession : Option ℕ} (hs : l.sales.get? x = some s)
    (htype : s.saleType = .package) :
    RefundLaw ⟨r.sales ctx x openSession l.sales, l.cards⟩ := by
  have hrefund : s.saleType ≠ .refund := by simp [htype]
  have ws := refund_sales_writes ctx r x openSession l.sales l.cards
  refine ⟨r.noted_sales ctx x openSession h.noted hs hrefund, fun k c y s' hk hy hs' => ?_⟩
  obtain ⟨s₀, hs₀⟩ := Option.isSome_iff_exists.1 (hb.linked.issued k c y hk hy)
  have hyx : y ≠ x := by
    rintro rfl
    obtain rfl : s = s₀ := Option.some.inj (hs.symm.trans hs₀)
    have := (h.law k c y s hk hy hs).type
    simp [htype] at this
  have hrow := r.get?_sales_of_ne ctx x openSession hs₀ hyx
  obtain rfl : s₀ = s' := Option.some.inj (hrow.symm.trans hs')
  refine h.frame hb ws hk hy (Table.lt_next_of_get? hk) rfl hs₀ ?_
  rw [r.refundsOf_sales ctx x openSession hs hrefund, if_neg fun e => hyx e.2, add_zero]

end Barbershop
