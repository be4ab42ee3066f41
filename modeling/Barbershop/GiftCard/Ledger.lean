import Barbershop.Service

/-!
# The balance of gift cards as an account

A card's value is on the card, in the existing sales that used it, or given back (zeroed when its
sale is deleted or its remainder refunded). `CardLedger` is the two tables the account is kept in and
`CardWrite` says what one write to them may do, with what it gives back of each card. Every request
is a chain of such writes (`CardWrites`), so what one write preserves holds after every request,
whichever earlier states it read: `CardWrites.balanced` and `CardWrites.returned`.
-/

namespace Barbershop

open Lib

/-! ## The account -/

/-- What a sale took from a card. -/
def Sale.usedOn (s : Sale) (k : ℕ) : ℚ :=
  if s.giftCardId = some k then s.giftCardAmountApplied.getD 0 else 0

/-- `giftCardAmountApplied` over the existing sales that used a card. -/
def usedOf (sales : Table Sale) (k : ℕ) : ℚ := sales.sum fun _ s => s.usedOn k

/-- The balance of a card; one that does not exist has none. -/
def balanceOf (cards : Table GiftCard) (k : ℕ) : ℚ := cards.value (·.remainingValue) k

def initialOf (cards : Table GiftCard) (k : ℕ) : ℚ := cards.value (·.initialValue) k

structure CardLedger where
  sales : Table Sale
  cards : Table GiftCard

def Db.cardLedger (db : Db) : CardLedger := ⟨db.sales, db.giftCards⟩

namespace CardLedger

variable (l : CardLedger)

/-- The part of a card's value that is neither on it nor in a sale. -/
def returned (k : ℕ) : ℚ := initialOf l.cards k - balanceOf l.cards k - usedOf l.sales k

/-- The card of a sale is known, and it gave whole cents. -/
structure Charged : Prop where
  charged : ∀ x s, l.sales.get? x = some s → ∀ k, s.giftCardId = some k →
    (l.cards.get? k).isSome ∧ ∃ n : ℤ, 0 ≤ n ∧ s.giftCardAmountApplied = some ((n : ℚ) / 100)

/-- No card is overdrawn, and none holds more than it was issued with. -/
structure Solvent : Prop where
  balance : ∀ k, 0 ≤ balanceOf l.cards k
  returned : ∀ k, 0 ≤ l.returned k

/-- A card refers to an existing sale, which issued no other card. -/
structure Linked : Prop where
  issued : ∀ k c x, l.cards.get? k = some c → c.saleId = some x → (l.sales.get? x).isSome
  unique : ∀ k c k' c' x, l.cards.get? k = some c → l.cards.get? k' = some c' →
    c.saleId = some x → c'.saleId = some x → k = k'

/-- Nothing on a card and nothing of it in a sale. -/
structure Spent (k : ℕ) : Prop where
  balance : balanceOf l.cards k = 0
  used : usedOf l.sales k = 0

structure Balanced : Prop where
  charged : l.Charged
  solvent : l.Solvent
  linked : l.Linked

variable {l}

theorem Charged.usedOn_nonneg (h : l.Charged) {x : ℕ} {s : Sale} (hx : l.sales.get? x = some s)
    (k : ℕ) : 0 ≤ s.usedOn k := by
  unfold Sale.usedOn
  split
  · next hk =>
    obtain ⟨-, n, hn, ha⟩ := h.charged x s hx k hk
    rw [ha]
    exact div_nonneg (Int.cast_nonneg hn) (by norm_num)
  · exact le_rfl

theorem Charged.usedOf_nonneg (h : l.Charged) (k : ℕ) : 0 ≤ usedOf l.sales k :=
  Table.sum_nonneg fun _ _ hx => h.usedOn_nonneg hx k

/-- No sale used a card that does not exist. -/
theorem Charged.usedOf_eq_zero (h : l.Charged) {k : ℕ} (hk : l.cards.get? k = none) :
    usedOf l.sales k = 0 := by
  refine Table.sum_eq_zero fun x s hx => ?_
  unfold Sale.usedOn
  split
  · next hs => exact absurd (h.charged x s hx k hs).1 (by simp [hk])
  · rfl

end CardLedger

/-! ## The writes -/

/-- The two rows agree on what the sale took from a card. -/
structure Sale.SameCharge (s s' : Sale) : Prop where
  card : s'.giftCardId = s.giftCardId
  applied : s'.giftCardAmountApplied = s.giftCardAmountApplied

/-- What one write does to the ledger, with what it gives back of each card. -/
inductive CardWrite (l : CardLedger) : CardLedger → (ℕ → ℚ) → Prop
  | issue (s : Sale) (c : GiftCard) (hs : s.giftCardId = none) (hpos : 0 ≤ c.initialValue)
      (hfull : c.remainingValue = c.initialValue) (hsale : c.saleId = some l.sales.next) :
      CardWrite l ⟨l.sales.insert s, l.cards.insert c⟩ 0
  | sell (s : Sale) (hs : s.giftCardId = none) : CardWrite l ⟨l.sales.insert s, l.cards⟩ 0
  | redeem (s : Sale) (k : ℕ) (c : GiftCard) (n : ℤ) (hs : s.giftCardId = some k)
      (happlied : s.giftCardAmountApplied = some ((n : ℚ) / 100)) (hn : 0 ≤ n)
      (hk : l.cards.get? k = some c) (hle : (n : ℚ) / 100 ≤ c.remainingValue) :
      CardWrite l ⟨l.sales.insert s, l.cards.modify k (·.debit (n / 100))⟩ 0
  | edit (x : ℕ) (f : Sale → Sale) (hf : ∀ s : Sale, s.SameCharge (f s)) :
      CardWrite l ⟨l.sales.modify x f, l.cards⟩ 0
  | setActive (k : ℕ) (b : Bool) :
      CardWrite l ⟨l.sales, l.cards.modify k (·.setActive b)⟩ 0
  | giveBack (k : ℕ) :
      CardWrite l ⟨l.sales, l.cards.modify k (·.cancel)⟩
        fun j => balanceOf l.cards j - balanceOf (l.cards.modify k (·.cancel)) j
  | erase (x : ℕ) (s : Sale) (hx : l.sales.get? x = some s) :
      CardWrite l ⟨l.sales.erase x, unlinkCards x (restoreCard s l.cards)⟩ 0

/-! ### What a write does to the columns -/

section Columns

variable {sales : Table Sale} {cards : Table GiftCard}

theorem usedOf_insert (s : Sale) (k : ℕ) :
    usedOf (sales.insert s) k = usedOf sales k + s.usedOn k :=
  Table.sum_insert ..

theorem usedOn_of_none {s : Sale} (hs : s.giftCardId = none) (k : ℕ) : s.usedOn k = 0 := by
  simp [Sale.usedOn, hs]

theorem Sale.SameCharge.usedOn {s s' : Sale} (h : s.SameCharge s') (k : ℕ) :
    s'.usedOn k = s.usedOn k := by
  unfold Sale.usedOn
  rw [h.card, h.applied]

theorem usedOf_modify {x : ℕ} {f : Sale → Sale} (hf : ∀ s : Sale, s.SameCharge (f s)) (k : ℕ) :
    usedOf (sales.modify x f) k = usedOf sales k :=
  Table.sum_modify_eq _ _ fun s _ => (hf s).usedOn k

theorem usedOf_erase {x : ℕ} {s : Sale} (hx : sales.get? x = some s) (k : ℕ) :
    usedOf (sales.erase x) k = usedOf sales k - s.usedOn k :=
  eq_sub_of_add_eq (Table.sum_erase _ hx)

theorem get?_unlinkCards (x k : ℕ) :
    (unlinkCards x cards).get? k =
      (cards.get? k).map fun c => if c.saleId = some x then { c with saleId := none } else c :=
  Table.get?_modifyAll ..

theorem initialOf_modify {j : ℕ} {f : GiftCard → GiftCard}
    (hf : ∀ c, (f c).initialValue = c.initialValue) (k : ℕ) :
    initialOf (cards.modify j f) k = initialOf cards k :=
  Table.value_modify_eq _ _ _ _ hf k

theorem balanceOf_unlinkCards (x k : ℕ) : balanceOf (unlinkCards x cards) k = balanceOf cards k := by
  refine Table.value_modifyAll_eq _ _ _ (fun _ c => ?_) k
  split <;> rfl

theorem initialOf_unlinkCards (x k : ℕ) : initialOf (unlinkCards x cards) k = initialOf cards k := by
  refine Table.value_modifyAll_eq _ _ _ (fun _ c => ?_) k
  split <;> rfl

/-- A restored card keeps everything but its balance. -/
theorem get?_restoreCard (s : Sale) (cards : Table GiftCard) (k : ℕ) :
    ∃ f : GiftCard → ℚ, (restoreCard s cards).get? k =
      (cards.get? k).map fun c => { c with remainingValue := f c } := by
  unfold restoreCard
  split
  · next j v _ _ =>
    rw [Table.get?_modify]
    split
    · exact ⟨fun c => c.remainingValue + v, rfl⟩
    · exact ⟨(·.remainingValue), by simp⟩
  · exact ⟨(·.remainingValue), by simp⟩

theorem initialOf_restoreCard (s : Sale) (k : ℕ) :
    initialOf (restoreCard s cards) k = initialOf cards k := by
  obtain ⟨f, hf⟩ := get?_restoreCard s cards k
  unfold initialOf Table.value
  rw [hf]
  cases cards.get? k <;> rfl

/-- A deleted sale gives back what it took, on the card it took it from. -/
theorem balanceOf_restoreCard {l : CardLedger} (h : l.Charged) {x : ℕ} {s : Sale}
    (hx : l.sales.get? x = some s) (k : ℕ) :
    balanceOf (restoreCard s l.cards) k = balanceOf l.cards k + s.usedOn k := by
  unfold restoreCard Sale.usedOn
  cases hcard : s.giftCardId with
  | none => simp
  | some j =>
    obtain ⟨hj, n, -, ha⟩ := h.charged x s hx j hcard
    obtain ⟨c, hc⟩ := Option.isSome_iff_exists.1 hj
    simp only [ha, Option.getD_some, Option.some.injEq]
    by_cases hk : k = j
    · subst hk
      rw [if_pos rfl]
      unfold balanceOf
      rw [Table.value_modify_self _ _ hc, Table.value_of_get? _ hc]
    · rw [if_neg (Ne.symm hk), add_zero]
      exact Table.value_modify_of_ne _ _ _ hk

end Columns

/-! ### What a write preserves -/

namespace CardWrite

variable {l l' : CardLedger} {g : ℕ → ℚ}

/-- What a write gives back joins what was given back of the card before. -/
theorem returned (w : CardWrite l l' g) (h : l.Charged) (k : ℕ) :
    l'.returned k = l.returned k + g k := by
  unfold CardLedger.returned
  cases w with
  | issue s c hs hpos hfull hsale =>
    simp only [usedOf_insert, usedOn_of_none hs, initialOf, balanceOf, Table.value_insert,
      Pi.zero_apply]
    split
    · next hk =>
      have hnone : l.cards.get? k = none := by rw [hk, Table.get?_next]
      rw [hfull, Table.value_of_none _ hnone, Table.value_of_none _ hnone]
      ring
    · ring
  | sell s hs => simp [usedOf_insert, usedOn_of_none hs]
  | redeem s j c n hs happlied hn hj hle =>
    have hused : s.usedOn k = if k = j then (n : ℚ) / 100 else 0 := by
      simp [Sale.usedOn, hs, happlied, eq_comm]
    rw [initialOf_modify (f := GiftCard.debit _) (fun _ => rfl), usedOf_insert, hused,
      Pi.zero_apply]
    split
    · next hk =>
      subst hk
      unfold balanceOf
      rw [Table.value_modify_self _ _ hj, Table.value_of_get? _ hj]
      simp only [GiftCard.debit]
      ring
    · next hk =>
      unfold balanceOf
      rw [Table.value_modify_of_ne _ _ _ hk]
      ring
  | edit x f hf => simp [usedOf_modify hf]
  | setActive j b =>
    have hbalance : balanceOf (l.cards.modify j (·.setActive b)) k = balanceOf l.cards k :=
      Table.value_modify_eq l.cards j (GiftCard.setActive b) _ (fun _ => rfl) k
    rw [initialOf_modify (f := GiftCard.setActive b) (fun _ => rfl), hbalance, Pi.zero_apply,
      add_zero]
  | giveBack j =>
    rw [initialOf_modify (f := GiftCard.cancel) (fun _ => rfl)]
    ring
  | erase x s hx =>
    simp only [initialOf_unlinkCards, balanceOf_unlinkCards, initialOf_restoreCard,
      balanceOf_restoreCard h hx, usedOf_erase hx, Pi.zero_apply]
    ring

/-- No card disappears. -/
theorem isSome_cards (w : CardWrite l l' g) {k : ℕ} (hk : (l.cards.get? k).isSome) :
    (l'.cards.get? k).isSome := by
  obtain ⟨c, hc⟩ := Option.isSome_iff_exists.1 hk
  cases w with
  | issue s c' => rw [Table.get?_insert_of_some _ hc]; rfl
  | sell | edit => exact hk
  | redeem | setActive | giveBack => rw [Table.get?_modify]; split <;> simp [hc]
  | erase x s hx =>
    obtain ⟨f, hf⟩ := get?_restoreCard s l.cards k
    simp [get?_unlinkCards, hf, hc]

theorem charged (w : CardWrite l l' g) (h : l.Charged) : l'.Charged := by
  have known : ∀ {s : Sale} {k : ℕ}, ((l.cards.get? k).isSome ∧
      ∃ n : ℤ, 0 ≤ n ∧ s.giftCardAmountApplied = some ((n : ℚ) / 100)) →
      (l'.cards.get? k).isSome ∧
        ∃ n : ℤ, 0 ≤ n ∧ s.giftCardAmountApplied = some ((n : ℚ) / 100) :=
    fun hk => ⟨w.isSome_cards hk.1, hk.2⟩
  have inserted : ∀ {s : Sale} {sales : Table Sale},
      (∀ x s, sales.get? x = some s → l.sales.get? x = some s) →
      ∀ x s', (sales.insert s).get? x = some s' → s' = s ∨ l.sales.get? x = some s' := by
    intro s sales hsales x s' hx
    rw [Table.get?_insert] at hx
    split at hx
    · exact .inl (Option.some.inj hx).symm
    · exact .inr (hsales x s' hx)
  constructor
  intro x s' hx k hk
  cases w with
  | issue s c hs =>
    rcases inserted (fun _ _ => id) x s' hx with rfl | hx
    · simp [hs] at hk
    · exact known (h.charged x s' hx k hk)
  | sell s hs =>
    rcases inserted (fun _ _ => id) x s' hx with rfl | hx
    · simp [hs] at hk
    · exact known (h.charged x s' hx k hk)
  | redeem s j c n hs happlied hn hj =>
    rcases inserted (fun _ _ => id) x s' hx with rfl | hx
    · obtain rfl : j = k := Option.some.inj (hs.symm.trans hk)
      exact known ⟨by simp [hj], n, hn, happlied⟩
    · exact known (h.charged x s' hx k hk)
  | edit y f hf =>
    rw [Table.get?_modify] at hx
    split at hx
    · obtain ⟨s, hs, rfl⟩ := Option.map_eq_some_iff.1 hx
      rw [(hf s).applied]
      exact known (h.charged x s hs k ((hf s).card ▸ hk))
    · exact known (h.charged x s' hx k hk)
  | setActive | giveBack => exact known (h.charged x s' hx k hk)
  | erase y s hy =>
    rw [Table.get?_erase] at hx
    split at hx
    · cases hx
    · exact known (h.charged x s' hx k hk)

theorem balanceOf_cancel_le {cards : Table GiftCard} (h : ∀ k, 0 ≤ balanceOf cards k) (j k : ℕ) :
    0 ≤ balanceOf (cards.modify j (·.cancel)) k ∧
      balanceOf (cards.modify j (·.cancel)) k ≤ balanceOf cards k := by
  by_cases hk : k = j
  · subst hk
    have hzero : balanceOf (cards.modify k (·.cancel)) k = 0 := by
      unfold balanceOf Table.value
      rw [Table.get?_modify_self]
      cases cards.get? k <;> rfl
    rw [hzero]
    exact ⟨le_rfl, h k⟩
  · rw [balanceOf, Table.value_modify_of_ne _ _ _ hk]
    exact ⟨h k, le_rfl⟩

/-- Nothing is given back that was not on the card. -/
theorem nonneg (w : CardWrite l l' g) (h : l.Solvent) (k : ℕ) : 0 ≤ g k := by
  cases w with
  | giveBack j => exact sub_nonneg.2 (balanceOf_cancel_le h.balance j k).2
  | issue | sell | redeem | edit | setActive | erase => exact le_rfl

theorem solvent (w : CardWrite l l' g) (hc : l.Charged) (h : l.Solvent) : l'.Solvent where
  returned k := by
    rw [w.returned hc k]
    exact add_nonneg (h.returned k) (w.nonneg h k)
  balance k := by
    cases w with
    | issue s c hs hpos hfull =>
      rw [balanceOf, Table.value_insert]
      split
      · exact hfull ▸ hpos
      · exact h.balance k
    | sell | edit => exact h.balance k
    | redeem s j c n hs happlied hn hj hle =>
      by_cases hk : k = j
      · subst hk
        rw [balanceOf, Table.value_modify_self _ _ hj]
        exact sub_nonneg.2 hle
      · rw [balanceOf, Table.value_modify_of_ne _ _ _ hk]
        exact h.balance k
    | setActive j b =>
      rw [balanceOf, Table.value_modify_eq _ j (GiftCard.setActive b) _ (fun _ => rfl)]
      exact h.balance k
    | giveBack j => exact (balanceOf_cancel_le h.balance j k).1
    | erase x s hx =>
      rw [balanceOf_unlinkCards, balanceOf_restoreCard hc hx]
      exact add_nonneg (h.balance k) (hc.usedOn_nonneg hx k)

/-- A card that is linked after a write was issued by it, or was linked before to a sale that is
still there. -/
theorem linked_back (w : CardWrite l l' g) (h : l.Linked) {k x : ℕ} {c' : GiftCard}
    (hk : l'.cards.get? k = some c') (hx : c'.saleId = some x) :
    (k = l.cards.next ∧ x = l.sales.next ∧ (l'.sales.get? x).isSome) ∨
      ∃ c, l.cards.get? k = some c ∧ c.saleId = some x ∧ (l'.sales.get? x).isSome := by
  have kept : ∀ {c}, l.cards.get? k = some c → c.saleId = some x →
      ((l.sales.get? x).isSome → (l'.sales.get? x).isSome) →
      ∃ c, l.cards.get? k = some c ∧ c.saleId = some x ∧ (l'.sales.get? x).isSome :=
    fun {c} hc hcx hsale => ⟨c, hc, hcx, hsale (h.issued k c x hc hcx)⟩
  have inserted : ∀ s : Sale, (l.sales.get? x).isSome → ((l.sales.insert s).get? x).isSome := by
    intro s hs
    obtain ⟨a, ha⟩ := Option.isSome_iff_exists.1 hs
    rw [Table.get?_insert_of_some _ ha]
    rfl
  have modified : ∀ {j : ℕ} {f : GiftCard → GiftCard}, (∀ c, (f c).saleId = c.saleId) →
      (l.cards.modify j f).get? k = some c' → ∃ c, l.cards.get? k = some c ∧ c.saleId = some x := by
    intro j f hf hk
    rw [Table.get?_modify] at hk
    split at hk
    · obtain ⟨c, hc, rfl⟩ := Option.map_eq_some_iff.1 hk
      exact ⟨c, hc, hf c ▸ hx⟩
    · exact ⟨c', hk, hx⟩
  cases w with
  | issue s c hs hpos hfull hsale =>
    rw [Table.get?_insert] at hk
    split at hk
    · next hnext =>
      obtain rfl := Option.some.inj hk
      obtain rfl : l.sales.next = x := Option.some.inj (hsale.symm.trans hx)
      exact .inl ⟨hnext, rfl, by simp⟩
    · exact .inr (kept hk hx (inserted s))
  | sell s => exact .inr (kept hk hx (inserted s))
  | redeem s j c n =>
    obtain ⟨a, ha, hax⟩ := modified (f := GiftCard.debit _) (fun _ => rfl) hk
    exact .inr (kept ha hax (inserted s))
  | edit y f =>
    refine .inr (kept hk hx fun hs => ?_)
    dsimp only
    rw [Table.get?_modify]
    split <;> simp [hs]
  | setActive j b =>
    obtain ⟨a, ha, hax⟩ := modified (f := GiftCard.setActive b) (fun _ => rfl) hk
    exact .inr (kept ha hax id)
  | giveBack j =>
    obtain ⟨a, ha, hax⟩ := modified (f := GiftCard.cancel) (fun _ => rfl) hk
    exact .inr (kept ha hax id)
  | erase y s =>
    obtain ⟨f, hf⟩ := get?_restoreCard s l.cards k
    simp only [get?_unlinkCards, hf, Option.map_eq_some_iff] at hk
    obtain ⟨_, ⟨a, ha, rfl⟩, rfl⟩ := hk
    split at hx
    · cases hx
    · next hne =>
      refine .inr (kept ha hx fun hs => ?_)
      have hxy : x ≠ y := fun e => hne (e ▸ hx)
      simpa [Table.get?_erase, hxy] using hs

theorem linked (w : CardWrite l l' g) (h : l.Linked) : l'.Linked where
  issued k c x hk hx := by
    rcases w.linked_back h hk hx with ⟨-, -, hs⟩ | ⟨_, -, -, hs⟩ <;> exact hs
  unique k c k' c' x hk hk' hx hx' := by
    have fresh : ∀ j a, l.cards.get? j = some a → a.saleId ≠ some l.sales.next := by
      intro j a hj ha
      simpa using h.issued j a _ hj ha
    rcases w.linked_back h hk hx with ⟨rfl, hnext, -⟩ | ⟨a, ha, hax, -⟩ <;>
      rcases w.linked_back h hk' hx' with ⟨rfl, hnext', -⟩ | ⟨b, hb, hbx, -⟩
    · rfl
    · exact absurd (hnext ▸ hbx) (fresh k' b hb)
    · exact absurd (hnext' ▸ hax) (fresh k a ha)
    · exact h.unique k a k' b x ha hb hax hbx

theorem balanced (w : CardWrite l l' g) (h : l.Balanced) : l'.Balanced where
  charged := w.charged h.charged
  solvent := w.solvent h.charged h.solvent
  linked := w.linked h.linked

/-- What a card was issued with never changes. -/
theorem initialOf_eq (w : CardWrite l l' g) {k : ℕ} (hk : (l.cards.get? k).isSome) :
    initialOf l'.cards k = initialOf l.cards k := by
  obtain ⟨c, hc⟩ := Option.isSome_iff_exists.1 hk
  cases w with
  | issue s c' =>
    rw [initialOf, Table.value_insert, if_neg (Nat.ne_of_lt (Table.lt_next_of_get? hc)), initialOf]
  | sell | edit => rfl
  | redeem => exact initialOf_modify (f := GiftCard.debit _) (fun _ => rfl) k
  | setActive j b => exact initialOf_modify (f := GiftCard.setActive b) (fun _ => rfl) k
  | giveBack => exact initialOf_modify (f := GiftCard.cancel) (fun _ => rfl) k
  | erase x s => rw [initialOf_unlinkCards, initialOf_restoreCard]

/-- A card with nothing on it and nothing in a sale stays so: nothing can be taken from it, and no
deleted sale puts anything back. -/
theorem spent (w : CardWrite l l' g) (hb : l.Balanced) {k : ℕ} (hk : (l.cards.get? k).isSome)
    (h : l.Spent k) : l'.Spent k := by
  have hw := w.returned hb.charged k
  have hinitial : initialOf l'.cards k = initialOf l.cards k := w.initialOf_eq hk
  have hb' := w.balanced hb
  have hused := hb'.charged.usedOf_nonneg k
  have hbalance := hb'.solvent.balance k
  have hg := w.nonneg hb.solvent k
  unfold CardLedger.returned at hw
  rw [hinitial, h.balance, h.used] at hw
  constructor <;> linarith

theorem next_sales (w : CardWrite l l' g) : l.sales.next ≤ l'.sales.next := by
  cases w with
  | issue | sell | redeem => exact Nat.le_succ _
  | edit | setActive | giveBack | erase => exact le_rfl

theorem next_cards (w : CardWrite l l' g) : l.cards.next ≤ l'.cards.next := by
  cases w with
  | issue => exact Nat.le_succ _
  | sell | edit | redeem | setActive | giveBack => exact le_rfl
  | erase x s =>
    unfold restoreCard
    dsimp only
    split <;> exact le_rfl

/-- A sale that is gone does not come back. -/
theorem gone (w : CardWrite l l' g) {x : ℕ} (hx : x < l.sales.next) (h : l.sales.get? x = none) :
    l'.sales.get? x = none := by
  cases w with
  | issue s | sell s | redeem s => rw [Table.get?_insert, if_neg (Nat.ne_of_lt hx), h]
  | edit y f => rw [Table.get?_modify]; split <;> simp [h]
  | setActive | giveBack => exact h
  | erase y s => rw [Table.get?_erase]; split <;> simp [h]

/-- A card stays linked to the sale that issued it while the sale exists. -/
theorem link_kept (w : CardWrite l l' g) {k x : ℕ} {c : GiftCard} (hk : l.cards.get? k = some c)
    (hx : c.saleId = some x) :
    (∃ c', l'.cards.get? k = some c' ∧ c'.saleId = some x) ∨ l'.sales.get? x = none := by
  have modified : ∀ {j : ℕ} {f : GiftCard → GiftCard}, (∀ c, (f c).saleId = c.saleId) →
      ∃ c', (l.cards.modify j f).get? k = some c' ∧ c'.saleId = some x := by
    intro j f hf
    rw [Table.get?_modify]
    split
    · exact ⟨f c, by rw [hk, Option.map_some], (hf c).trans hx⟩
    · exact ⟨c, hk, hx⟩
  cases w with
  | issue s c' => exact .inl ⟨c, Table.get?_insert_of_some _ hk, hx⟩
  | sell | edit => exact .inl ⟨c, hk, hx⟩
  | redeem => exact .inl (modified (f := GiftCard.debit _) fun _ => rfl)
  | setActive j b => exact .inl (modified (f := GiftCard.setActive b) fun _ => rfl)
  | giveBack => exact .inl (modified (f := GiftCard.cancel) fun _ => rfl)
  | erase y s =>
    by_cases hxy : x = y
    · exact .inr (by simp [Table.get?_erase, hxy])
    · obtain ⟨f, hf⟩ := get?_restoreCard s l.cards k
      refine .inl ⟨{ c with remainingValue := f c }, ?_, hx⟩
      have hne : ¬c.saleId = some y := fun e => hxy (Option.some.inj (hx.symm.trans e))
      simp [get?_unlinkCards, hf, hk, hne]

end CardWrite

/-! ## Chains of writes -/

/-- A chain of writes, with what it gives back of each card. -/
inductive CardWrites : CardLedger → CardLedger → (ℕ → ℚ) → Prop
  | done (l : CardLedger) : CardWrites l l 0
  | next {l m n : CardLedger} {g g' : ℕ → ℚ} (w : CardWrite l m g) (ws : CardWrites m n g') :
      CardWrites l n (g + g')

namespace CardWrites

variable {l l' : CardLedger} {g : ℕ → ℚ}

theorem single (w : CardWrite l l' g) : CardWrites l l' g := by
  simpa using CardWrites.next w (.done l')

theorem cast {g' : ℕ → ℚ} (ws : CardWrites l l' g) (e : g = g') : CardWrites l l' g' := e ▸ ws

theorem trans {n : CardLedger} {g' : ℕ → ℚ} (ws : CardWrites l l' g) (ws' : CardWrites l' n g') :
    CardWrites l n (g + g') := by
  induction ws with
  | done => exact ws'.cast (zero_add _).symm
  | next w _ ih => exact (CardWrites.next w (ih ws')).cast (add_assoc ..).symm

theorem balanced (ws : CardWrites l l' g) (h : l.Balanced) : l'.Balanced := by
  induction ws with
  | done => exact h
  | next w _ ih => exact ih (w.balanced h)

theorem returned (ws : CardWrites l l' g) (h : l.Balanced) (k : ℕ) :
    l'.returned k = l.returned k + g k := by
  induction ws with
  | done => exact (add_zero _).symm
  | next w _ ih => rw [ih (w.balanced h), w.returned h.charged, Pi.add_apply, add_assoc]

theorem isSome_cards (ws : CardWrites l l' g) {k : ℕ} (hk : (l.cards.get? k).isSome) :
    (l'.cards.get? k).isSome := by
  induction ws with
  | done => exact hk
  | next w _ ih => exact ih (w.isSome_cards hk)

theorem spent (ws : CardWrites l l' g) (hb : l.Balanced) {k : ℕ} (hk : (l.cards.get? k).isSome)
    (h : l.Spent k) : l'.Spent k := by
  induction ws with
  | done => exact h
  | next w _ ih => exact ih (w.balanced hb) (w.isSome_cards hk) (w.spent hb hk h)

/-- What a card was issued with stays, through any chain. -/
theorem initialOf_eq (ws : CardWrites l l' g) {k : ℕ} (hk : (l.cards.get? k).isSome) :
    initialOf l'.cards k = initialOf l.cards k := by
  induction ws with
  | done => rfl
  | next w _ ih => rw [ih (w.isSome_cards hk), w.initialOf_eq hk]

/-- A card linked at the end of a chain was linked to the same sale before, unless both are new. -/
theorem linked_back (ws : CardWrites l l' g) (hb : l.Balanced) {k x : ℕ} {c' : GiftCard}
    (hk : l'.cards.get? k = some c') (hx : c'.saleId = some x) :
    (l.cards.next ≤ k ∧ l.sales.next ≤ x) ∨ ∃ c, l.cards.get? k = some c ∧ c.saleId = some x := by
  induction ws with
  | done => exact .inr ⟨c', hk, hx⟩
  | next w ws ih =>
    rcases ih (w.balanced hb) hk with ⟨hk', hx'⟩ | ⟨c, hc, hcx⟩
    · exact .inl ⟨w.next_cards.trans hk', w.next_sales.trans hx'⟩
    · rcases w.linked_back hb.linked hc hcx with ⟨rfl, rfl, -⟩ | ⟨a, ha, hax, -⟩
      · exact .inl ⟨le_rfl, le_rfl⟩
      · exact .inr ⟨a, ha, hax⟩

theorem gone (ws : CardWrites l l' g) {x : ℕ} (hx : x < l.sales.next)
    (h : l.sales.get? x = none) : l'.sales.get? x = none := by
  induction ws with
  | done => exact h
  | next w _ ih => exact ih (hx.trans_le w.next_sales) (w.gone hx h)

theorem link_kept (ws : CardWrites l l' g) (hb : l.Balanced) {k x : ℕ} {c : GiftCard}
    (hk : l.cards.get? k = some c) (hx : c.saleId = some x) :
    (∃ c', l'.cards.get? k = some c' ∧ c'.saleId = some x) ∨ l'.sales.get? x = none := by
  induction ws generalizing c with
  | done => exact .inl ⟨c, hk, hx⟩
  | next w ws ih =>
    rcases w.link_kept hk hx with ⟨c', hk', hx'⟩ | hgone
    · exact ih (w.balanced hb) hk' hx'
    · obtain ⟨s, hs⟩ := Option.isSome_iff_exists.1 (hb.linked.issued k c x hk hx)
      exact .inr (ws.gone ((Table.lt_next_of_get? hs).trans_le w.next_sales) hgone)

end CardWrites

end Barbershop
