import Barbershop.Payment.Bill
import Barbershop.Service

/-!
# The parts of a sale

A total is covered by what was paid before, by a gift card, by points and by what is charged now. In
whole cents the parts add up to the total. The points that are taken are the fewest that are worth the
discount when they cover what is left, and otherwise as far as the cent goes: a discount is rounded to
the cent, the value of a point need not be.
-/

namespace Barbershop

open Lib

/-! ## What covers a total -/

namespace SaleInput

variable (data : SaleInput) (reads : SaleRead → Db)

/-- The appointment that the sale bills. -/
def billed : Option Appointment := data.appointmentId.bind (reads .appointment).appointments.get?

def depositPaid : ℚ := (data.billed reads).elim 0 (·.deposit)

def prepaid : ℚ := (data.billed reads).elim 0 (·.prepaid)

/-- The card of the sale, when its code is valid. -/
def card (ctx : Caller) : Option (ℕ × GiftCard) :=
  data.giftCardCode.bind fun code => (validateGiftCard ctx code (reads .giftCard)).toOption

def cardBalance (ctx : Caller) : Option ℚ := (data.card reads ctx).map (·.2.remainingValue)

/-- What is left of a total after a deposit and a prepayment. -/
def unpaid : ℚ := max 0 data.total - data.depositPaid reads - data.prepaid reads

/-- What is left for points to cover. -/
def leftForPoints (ctx : Caller) : ℚ :=
  data.unpaid reads - min ((data.cardBalance reads ctx).getD 0) (data.unpaid reads)

/-- The amounts that the sale starts from. -/
structure WholeCents : Prop where
  total : IsCents data.total
  billed : ∀ a ∈ data.billed reads,
    (IsCents a.deposit ∧ 0 ≤ a.deposit) ∧ IsCents a.prepaid ∧ 0 ≤ a.prepaid
  cards : ∀ k c, (reads .giftCard).giftCards.get? k = some c → IsCents c.remainingValue

end SaleInput

/-- The points are the fewest whose value covers the discount. -/
def FewestPoints (pointValue discount : ℚ) (points : ℤ) : Prop :=
  IsLeast {n : ℤ | 0 ≤ n ∧ discount ≤ n * pointValue} points

/-- The parts of a sale cover its total, each within what it comes from. -/
structure Sale.Covers (s : Sale) (total deposit prepaid : ℚ) (balance : Option ℚ) (requested : ℤ)
    (pointValue : ℚ) : Prop where
  sum : s.total + s.depositApplied.getD 0 + s.prepaidApplied.getD 0 +
    s.giftCardAmountApplied.getD 0 + s.loyaltyDiscountAmount.getD 0 = max 0 total
  total_nonneg : 0 ≤ s.total
  deposit_nonneg : 0 ≤ s.depositApplied.getD 0
  prepaid_nonneg : 0 ≤ s.prepaidApplied.getD 0
  card_nonneg : 0 ≤ s.giftCardAmountApplied.getD 0
  discount_nonneg : 0 ≤ s.loyaltyDiscountAmount.getD 0
  card_le : s.giftCardAmountApplied.getD 0 ≤ balance.getD 0
  points_le : s.loyaltyPointsRedeemed.getD 0 ≤ requested
  deposit : s.depositApplied.getD 0 = deposit
  prepaid : s.prepaidApplied.getD 0 = prepaid
  fewest : FewestPoints pointValue (s.loyaltyDiscountAmount.getD 0)
    (s.loyaltyPointsRedeemed.getD 0)

/-- The points that are asked for cover what is left, or are worth at least what their value rounds to
and no fewer are. -/
def PointsRound (requested : ℤ) (pointValue left : ℚ) : Prop :=
  requested ≤ 0 ∨ pointValue ≤ 0 ∨ left ≤ requested * pointValue ∨
    (round2 (requested * pointValue) ≤ requested * pointValue ∧
      (requested - 1) * pointValue < round2 (requested * pointValue))

instance (requested : ℤ) (pointValue left : ℚ) : Decidable (PointsRound requested pointValue left) :=
  inferInstanceAs (Decidable (_ ∨ _))

/-! ## Points -/

section Points

variable {requested : ℤ} {pointValue left : ℚ}

/-- The points that fit cover what is left when those that are asked for do. -/
theorem pointsThatFit_of_le (hvalue : 0 < pointValue) (h : left ≤ requested * pointValue) :
    pointsThatFit requested pointValue left = ⌈left / pointValue⌉ := by
  rw [pointsThatFit, if_pos hvalue]
  exact min_eq_right (Int.ceil_le.2 ((div_le_iff₀ hvalue).2 h))

theorem pointsThatFit_of_lt (hvalue : 0 < pointValue) (h : requested * pointValue < left) :
    pointsThatFit requested pointValue left = requested := by
  rw [pointsThatFit, if_pos hvalue]
  exact min_eq_left (Int.lt_ceil.2 ((lt_div_iff₀ hvalue).2 h)).le

theorem le_ceil_div_mul (hvalue : 0 < pointValue) : left ≤ ⌈left / pointValue⌉ * pointValue :=
  (div_le_iff₀ hvalue).1 (Int.le_ceil _)

theorem fewestPoints_zero (pointValue : ℚ) : FewestPoints pointValue 0 0 :=
  ⟨⟨le_rfl, by simp⟩, fun _ hn => hn.1⟩

/-- As many points as it takes to cover an amount. -/
theorem fewestPoints_ceil (hvalue : 0 < pointValue) (hleft : 0 ≤ left) :
    FewestPoints pointValue left ⌈left / pointValue⌉ := by
  refine ⟨⟨Int.ceil_nonneg (div_nonneg hleft hvalue.le), le_ceil_div_mul hvalue⟩, ?_⟩
  rintro n ⟨-, hn⟩
  exact Int.ceil_le.2 ((div_le_iff₀ hvalue).2 hn)

/-- All the points that are asked for are the fewest that cover an amount when they do and one fewer
does not. -/
theorem fewestPoints_iff {discount : ℚ} (hvalue : 0 < pointValue) (hpos : 0 < requested) :
    FewestPoints pointValue discount requested ↔
      discount ≤ requested * pointValue ∧ (requested - 1) * pointValue < discount := by
  constructor
  · rintro ⟨⟨-, hcovers⟩, hleast⟩
    refine ⟨hcovers, ?_⟩
    by_contra hfewer
    have hle : requested ≤ requested - 1 :=
      hleast ⟨by omega, by push_cast; linarith⟩
    omega
  · rintro ⟨hcovers, hfewer⟩
    refine ⟨⟨hpos.le, hcovers⟩, ?_⟩
    rintro n ⟨-, hn⟩
    have hlt : ((requested - 1 : ℤ) : ℚ) < n := by
      push_cast
      exact lt_of_mul_lt_mul_right (hfewer.trans_le hn) hvalue.le
    have hlt' : requested - 1 < n := by exact_mod_cast hlt
    omega

theorem pointsThatFit_le (hpos : 0 < requested) : pointsThatFit requested pointValue left ≤ requested := by
  unfold pointsThatFit
  split
  · exact min_le_left _ _
  · exact hpos.le

/-- What points take off a charge is within what is left. -/
theorem discount_bounds (hpos : 0 < requested) (hleft : 0 ≤ left) (hcents : IsCents left) :
    0 ≤ round2 (min (pointsThatFit requested pointValue left * pointValue) left) ∧
      round2 (min (pointsThatFit requested pointValue left * pointValue) left) ≤ left := by
  have hworth : 0 ≤ pointsThatFit requested pointValue left * pointValue := by
    rcases le_or_gt pointValue 0 with hvalue | hvalue
    · have hzero : pointsThatFit requested pointValue left = 0 := if_neg (not_lt.2 hvalue)
      simp [hzero]
    · have hpoints : (0 : ℚ) ≤ pointsThatFit requested pointValue left := by
        exact_mod_cast pointsThatFit_nonneg hpos hleft
      exact mul_nonneg hpoints hvalue.le
  refine ⟨round2_nonneg (le_min hworth hleft), ?_⟩
  have hle := round2_mono (min_le_right (pointsThatFit requested pointValue left * pointValue) left)
  rwa [hcents.round2_eq] at hle

/-- The points of a charge, and what they take off it. -/
theorem points_fewest_iff (hpos : 0 < requested) (hleft : 0 ≤ left) (hcents : IsCents left) :
    FewestPoints pointValue
        (round2 (min (pointsThatFit requested pointValue left * pointValue) left))
        (pointsThatFit requested pointValue left) ↔
      PointsRound requested pointValue left := by
  unfold PointsRound
  rcases le_or_gt pointValue 0 with hvalue | hvalue
  · have hzero : pointsThatFit requested pointValue left = 0 := if_neg (not_lt.2 hvalue)
    have hdiscount : round2 (min (((0 : ℤ) : ℚ) * pointValue) left) = 0 := by simp [hleft]
    rw [hzero, hdiscount]
    exact iff_of_true (fewestPoints_zero pointValue) (.inr (.inl hvalue))
  rcases le_or_gt left (requested * pointValue) with hcovers | hshort
  · rw [pointsThatFit_of_le hvalue hcovers, min_eq_right (le_ceil_div_mul hvalue), hcents.round2_eq]
    exact iff_of_true (fewestPoints_ceil hvalue hleft) (.inr (.inr (.inl hcovers)))
  · rw [pointsThatFit_of_lt hvalue hshort, min_eq_left hshort.le, fewestPoints_iff hvalue hpos]
    constructor
    · intro h
      exact .inr (.inr (.inr h))
    · rintro (h | h | h | h)
      · omega
      · exact absurd hvalue (not_lt.2 h)
      · exact absurd hshort (not_lt.2 h)
      · exact h

end Points

/-! ## The charge -/

section Charge

variable {network : Network} {total deposit prepaid : ℚ} {balance : Option ℚ} {requested : ℤ}

/-- In whole cents nothing is rounded but the discount. -/
theorem chargeSale_cents {c : Charge}
    (h : chargeSale network total deposit prepaid balance requested = .ok c) (htotal : IsCents total)
    (hdeposit : IsCents deposit) (hprepaid : IsCents prepaid) (hprepaid₀ : 0 ≤ prepaid)
    (hbalance : ∀ b ∈ balance, IsCents b ∧ 0 ≤ b) :
    let unpaid := max 0 total - deposit - prepaid
    let left := unpaid - min (balance.getD 0) unpaid
    let points :=
      if 0 < requested then pointsThatFit requested (network.loyaltyPointValue.getD 0) left else 0
    let discount := if 0 < requested then
      round2 (min (points * network.loyaltyPointValue.getD 0) left) else 0
    0 ≤ unpaid ∧ IsCents left ∧ c = {
      depositApplied := deposit
      prepaidApplied := prepaid
      giftCardAmountApplied := min (balance.getD 0) unpaid
      loyaltyPointsRedeemed := points
      loyaltyDiscountAmount := discount
      finalTotal := left - discount } := by
  simp only [chargeSale, bind_eq_ok, exists_punit, refuseIf_eq_ok, pure_eq_ok] at h
  obtain ⟨hguard, rfl⟩ := h
  have hmax : IsCents (max 0 total) := by
    rcases max_choice 0 total with hzero | hself
    · rw [hzero]
      exact isCents_zero
    · rw [hself]
      exact htotal
  have hunpaid : 0 ≤ max 0 total - deposit - prepaid := by
    refine ((hmax.sub hdeposit).sub hprepaid).nonneg_of_lt ?_
    rw [(hdeposit.add hprepaid).round2_eq] at hguard
    linarith
  set unpaid := max 0 total - deposit - prepaid with hdef
  have hunpaidCents : IsCents unpaid := (hmax.sub hdeposit).sub hprepaid
  have hminDeposit : min deposit (max 0 total) = deposit := min_eq_left (by linarith)
  have hminPrepaid : min prepaid (max 0 total - deposit) = prepaid := min_eq_left (by linarith)
  have hgift : (balance.elim 0 fun b => round2 (min b unpaid)) = min (balance.getD 0) unpaid := by
    cases balance with
    | none => simp [hunpaid]
    | some b =>
      refine IsCents.round2_eq ?_
      rcases min_choice b unpaid with hself | hself
      · rw [hself]
        exact (hbalance b rfl).1
      · rw [hself]
        exact hunpaidCents
  have hleft : IsCents (unpaid - min (balance.getD 0) unpaid) := by
    refine hunpaidCents.sub ?_
    rw [← hgift]
    cases balance with
    | none => exact isCents_zero
    | some b => exact isCents_round2 _
  refine ⟨hunpaid, hleft, ?_⟩
  rw [hminDeposit, hminPrepaid, ← hdef, hunpaidCents.round2_eq, hgift, hleft.round2_eq]
  congr 1
  refine IsCents.round2_eq (hleft.sub ?_)
  split
  · exact isCents_round2 _
  · exact isCents_zero

end Charge

/-! ## The sale -/

section Sale

variable {cat : Catalog} {ctx : Caller} {data : SaleInput} {reads : SaleRead → Db}

/-- The plan of a sale charges what was paid before, the card and the points that are asked for. -/
theorem prepareSale_charge {plan : SalePlan} (h : prepareSale cat ctx data reads = .ok plan) :
    chargeSale ctx.shop.network data.total (data.depositPaid reads) (data.prepaid reads)
        (data.cardBalance reads ctx) (data.loyaltyPointsRedeemed.getD 0) = .ok plan.charge ∧
      plan.giftCardId = (data.card reads ctx).map (·.1) ∧
      0 ≤ data.loyaltyPointsRedeemed.getD 0 := by
  simp only [prepareSale, bind_eq_ok, exists_punit, pure_eq_ok] at h
  obtain ⟨_, hamounts, _, _, _, _, _, _, appt, happt, _, _, _, _, club, _, package, _, _, card, hcard,
    _, charge, hcharge, rfl⟩ := h
  have hrequested : 0 ≤ data.loyaltyPointsRedeemed.getD 0 := by
    simp only [checkSaleAmounts, bind_eq_ok, exists_punit, refuseIf_eq_ok] at hamounts
    obtain ⟨-, -, -, -, hpoints, -⟩ := hamounts
    cases hp : data.loyaltyPointsRedeemed with
    | none => exact le_rfl
    | some p => exact not_lt.1 fun hneg => hpoints ⟨p, hp, hneg⟩
  have hbilled : data.billed reads = appt := by
    rcases ifGiven_eq_ok.1 happt with ⟨hnone, rfl⟩ | ⟨id, a, hid, ha, rfl⟩
    · simp [SaleInput.billed, hnone]
    · simp [SaleInput.billed, hid, (billAppointment_ok ha).1]
  have hvalid : data.card reads ctx = card := by
    rcases ifGiven_eq_ok.1 hcard with ⟨hnone, rfl⟩ | ⟨code, c, hcode, hc, rfl⟩
    · simp [SaleInput.card, hnone]
    · simp [SaleInput.card, hcode, hc, Except.toOption]
  refine ⟨?_, by rw [hvalid], hrequested⟩
  rw [SaleInput.depositPaid, SaleInput.prepaid, SaleInput.cardBalance, hbilled, hvalid]
  exact hcharge

theorem SaleInput.card_ok {card : ℕ × GiftCard} (h : data.card reads ctx = some card) :
    (reads .giftCard).giftCards.get? card.1 = some card.2 ∧ 0 < card.2.remainingValue := by
  obtain ⟨code, -, hcode⟩ := Option.bind_eq_some_iff.1 h
  cases hvalid : validateGiftCard ctx code (reads .giftCard) with
  | error e => simp [hvalid, Except.toOption] at hcode
  | ok found =>
    obtain rfl : found = card := by simpa [hvalid, Except.toOption] using hcode
    exact ⟨(validateGiftCard_ok hvalid).1, (validateGiftCard_ok hvalid).2.2⟩

namespace SaleInput.WholeCents

variable (h : data.WholeCents reads)
include h

theorem paid : (IsCents (data.depositPaid reads) ∧ 0 ≤ data.depositPaid reads) ∧
    IsCents (data.prepaid reads) ∧ 0 ≤ data.prepaid reads := by
  unfold depositPaid prepaid
  cases hbilled : data.billed reads with
  | none => exact ⟨⟨isCents_zero, le_rfl⟩, isCents_zero, le_rfl⟩
  | some a => exact h.billed a hbilled

theorem balance : ∀ b ∈ data.cardBalance reads ctx, IsCents b ∧ 0 ≤ b := by
  intro b hb
  obtain ⟨card, hcard, rfl⟩ := Option.map_eq_some_iff.1 hb
  obtain ⟨hget, hpos⟩ := card_ok hcard
  exact ⟨h.cards _ _ hget, hpos.le⟩

end SaleInput.WholeCents

/-- What a column holds that stores only amounts above zero. -/
theorem getD_of_nonneg {v : ℚ} (h : 0 ≤ v) : (if 0 < v then some v else none).getD 0 = v := by
  split
  · rfl
  · next hnot => exact (le_antisymm (not_lt.1 hnot) h).symm

theorem getD_of_nonzero (n : ℤ) : (if n = 0 then none else some n).getD 0 = n := by
  split
  · next hzero => exact hzero.symm
  · rfl

theorem debitCard_ok {plan : SalePlan} {cards cards' : Table GiftCard}
    (h : plan.debitCard cards = .ok cards') {k : ℕ} (hk : plan.giftCardId = some k) :
    ∃ c, cards.get? k = some c ∧ plan.charge.giftCardAmountApplied ≤ c.remainingValue := by
  simp only [SalePlan.debitCard, hk, debitGiftCard, orRefuse_eq_ok] at h
  obtain ⟨c, hget, hbalance, -⟩ := Table.tryModify_eq_some.1 h
  exact ⟨c, hget, of_decide_eq_true hbalance⟩

theorem createSale_covers_iff {db db' : Db} (hcents : data.WholeCents reads)
    (h : createSale cat ctx data reads db = .ok db') :
    ∃ s, db'.sales.get? db.sales.next = some s ∧
      (∀ k, s.giftCardId = some k → ∃ c, db.giftCards.get? k = some c ∧
        s.giftCardAmountApplied.getD 0 ≤ c.remainingValue) ∧
      (s.Covers data.total (data.depositPaid reads) (data.prepaid reads)
          (data.cardBalance reads ctx) (data.loyaltyPointsRedeemed.getD 0)
          (ctx.shop.network.loyaltyPointValue.getD 0) ↔
        PointsRound (data.loyaltyPointsRedeemed.getD 0)
          (ctx.shop.network.loyaltyPointValue.getD 0) (data.leftForPoints reads ctx)) := by
  simp only [createSale, bind_eq_ok] at h
  obtain ⟨plan, hplan, hcommit⟩ := h
  obtain ⟨hcharge, hcard, hrequested⟩ := prepareSale_charge hplan
  obtain ⟨giftCards, club, packages, customers, hdebit, -, -, -, rfl⟩ := commitSale_ok hcommit
  refine ⟨plan.sale ctx, Table.get?_insert_self _ _, ?_, ?_⟩
  · intro k hk
    obtain ⟨c, hget, hle⟩ := debitCard_ok hdebit hk
    have happlied : (plan.sale ctx).giftCardAmountApplied = some plan.charge.giftCardAmountApplied := by
      change (plan.giftCardId.map fun _ => plan.charge.giftCardAmountApplied) = _
      rw [show plan.giftCardId = some k from hk, Option.map_some]
    exact ⟨c, hget, by rw [happlied]; exact hle⟩
  obtain ⟨⟨hdeposit, hdeposit₀⟩, hprepaid, hprepaid₀⟩ := hcents.paid
  obtain ⟨hunpaid, hleft, hc⟩ := chargeSale_cents hcharge hcents.total hdeposit hprepaid hprepaid₀
    hcents.balance
  change 0 ≤ data.unpaid reads at hunpaid
  change IsCents (data.leftForPoints reads ctx) at hleft
  have hleft₀ : 0 ≤ data.leftForPoints reads ctx := sub_nonneg.2 (min_le_right _ _)
  have hbalance₀ : 0 ≤ (data.cardBalance reads ctx).getD 0 := by
    cases hb : data.cardBalance reads ctx with
    | none => exact le_rfl
    | some b => exact (hcents.balance b hb).2
  set requested := data.loyaltyPointsRedeemed.getD 0
  set pointValue := ctx.shop.network.loyaltyPointValue.getD 0
  set left := data.leftForPoints reads ctx with hdef
  have hgift : (plan.sale ctx).giftCardAmountApplied.getD 0 =
      min ((data.cardBalance reads ctx).getD 0) (data.unpaid reads) := by
    have hamount : plan.charge.giftCardAmountApplied =
        min ((data.cardBalance reads ctx).getD 0) (data.unpaid reads) := by
      rw [hc]
      rfl
    change (plan.giftCardId.map fun _ => plan.charge.giftCardAmountApplied).getD 0 = _
    rw [hcard, hamount, SaleInput.cardBalance]
    cases data.card reads ctx with
    | none => simp [hunpaid]
    | some card => rfl
  have hpoints : (plan.sale ctx).loyaltyPointsRedeemed.getD 0 = plan.charge.loyaltyPointsRedeemed :=
    getD_of_nonzero _
  have hdepositApplied : (plan.sale ctx).depositApplied.getD 0 = data.depositPaid reads := by
    rw [SalePlan.sale, hc]
    exact getD_of_nonneg hdeposit₀
  have hprepaidApplied : (plan.sale ctx).prepaidApplied.getD 0 = data.prepaid reads := by
    rw [SalePlan.sale, hc]
    exact getD_of_nonneg hprepaid₀
  have hbounds : 0 ≤ plan.charge.loyaltyDiscountAmount ∧ plan.charge.loyaltyDiscountAmount ≤ left ∧
      plan.charge.loyaltyPointsRedeemed ≤ requested := by
    rw [hc]
    by_cases hpos : 0 < requested
    · simp only [hpos, if_true]
      exact ⟨(discount_bounds hpos hleft₀ hleft).1, (discount_bounds hpos hleft₀ hleft).2,
        pointsThatFit_le hpos⟩
    · simp only [hpos, if_false]
      exact ⟨le_rfl, hleft₀, hrequested⟩
  obtain ⟨hdiscount₀, hdiscount, hasked⟩ := hbounds
  have hdiscountStored : (plan.sale ctx).loyaltyDiscountAmount.getD 0 =
      plan.charge.loyaltyDiscountAmount := getD_of_nonneg hdiscount₀
  have htotal : (plan.sale ctx).total = left - plan.charge.loyaltyDiscountAmount := by
    change plan.charge.finalTotal = _
    rw [hc]
    rfl
  have hcovers : (plan.sale ctx).Covers data.total (data.depositPaid reads) (data.prepaid reads)
      (data.cardBalance reads ctx) requested pointValue ↔
      FewestPoints pointValue plan.charge.loyaltyDiscountAmount plan.charge.loyaltyPointsRedeemed := by
    rw [← hdiscountStored, ← hpoints]
    refine ⟨Sale.Covers.fewest, fun hfewest => ?_⟩
    exact {
      sum := by
        rw [htotal, hdepositApplied, hprepaidApplied, hgift, hdiscountStored, hdef,
          SaleInput.leftForPoints, SaleInput.unpaid]
        ring
      total_nonneg := by
        rw [htotal]
        exact sub_nonneg.2 hdiscount
      deposit_nonneg := hdepositApplied ▸ hdeposit₀
      prepaid_nonneg := hprepaidApplied ▸ hprepaid₀
      card_nonneg := hgift ▸ le_min hbalance₀ hunpaid
      discount_nonneg := hdiscountStored ▸ hdiscount₀
      card_le := hgift ▸ min_le_left _ _
      points_le := hpoints ▸ hasked
      deposit := hdepositApplied
      prepaid := hprepaidApplied
      fewest := hfewest }
  rw [hcovers, hc]
  by_cases hpos : 0 < requested
  · simp only [hpos, if_true]
    exact points_fewest_iff hpos hleft₀ hleft
  · simp only [hpos, if_false]
    exact iff_of_true (fewestPoints_zero pointValue) (.inl (not_lt.1 hpos))

end Sale

/-! ## Runs -/

/-- An appointment of the customer, with a deposit of ten and five paid by app. -/
def paidVisit : Appointment where
  barbershopId := 1
  customerId := 1
  barberId := 1
  resourceId := none
  startAt := 0
  endAt := 1800000
  status := .confirmed
  source := .online
  holdExpiresAt := none
  depositAmount := some 10
  depositPaid := true
  depositPaidAt := none
  depositRefundedAt := none
  depositManualMethod := none
  depositReceivedAt := none
  depositReceivedByUserId := none
  depositCashSessionId := none
  depositPaymentIntentId := none
  prepaidPaymentIntentId := some "pi"
  prepaidAt := some 0
  prepaidAmount := some 8
  prepaidRefundedAt := none
  prepaidRefundedAmount := some 3
  linkVersion := 0

/-- A customer with fifty points, the appointment and a card of twelve. -/
def paidInParts : Db :=
  { oneCustomer 50 with
    appointments := Table.empty.insert paidVisit
    giftCards := Table.empty.insert ⟨1, "CARD", 20, 12, true, none, none, none⟩ }

/-- The bill of the appointment, with the card and up to twenty points. -/
def billInParts : SaleInput :=
  { haircutSale (some 1) 40 with
    appointmentId := some 1
    giftCardCode := some "CARD"
    loyaltyPointsRedeemed := some 20 }

theorem billInParts_covers : ∃ db' s,
    createSale oneProduct (owner 0) billInParts (fun _ => paidInParts) paidInParts = .ok db' ∧
    db'.sales.get? 1 = some s ∧ s.loyaltyPointsRedeemed = some 13 ∧
    s.Covers 40 10 5 (some 12) 20 1 := by
  have hcents : billInParts.WholeCents fun _ => paidInParts := by
    refine ⟨by decide +kernel, ?_, ?_⟩
    · intro a ha
      obtain rfl : paidVisit = a := Option.some.inj ha
      decide +kernel
    · intro k c hc
      rcases Table.get?_insert_cases hc with ⟨-, rfl⟩ | hold
      · decide +kernel
      · cases hold
  have hok : (createSale oneProduct (owner 0) billInParts (fun _ => paidInParts)
      paidInParts).toOption.any (fun db' => (db'.sales.get? 1).any
        (·.loyaltyPointsRedeemed == some 13)) = true := by
    decide +kernel
  cases hsale : createSale oneProduct (owner 0) billInParts (fun _ => paidInParts) paidInParts with
  | error e => simp [hsale, Except.toOption] at hok
  | ok db' =>
    simp only [hsale, Except.toOption, Option.any_some, Option.any_eq_true, beq_iff_eq] at hok
    obtain ⟨s, hs, hpoints⟩ := hok
    obtain ⟨s', hs', -, hiff⟩ := createSale_covers_iff hcents hsale
    obtain rfl : s = s' := Option.some.inj (hs.symm.trans hs')
    have hdeposit : billInParts.depositPaid (fun _ => paidInParts) = 10 := by decide +kernel
    have hprepaid : billInParts.prepaid (fun _ => paidInParts) = 5 := by decide +kernel
    have hbalance : billInParts.cardBalance (fun _ => paidInParts) (owner 0) = some 12 := by
      decide +kernel
    have hcovers := hiff.2 (by decide +kernel)
    rw [hdeposit, hprepaid, hbalance] at hcovers
    exact ⟨db', s, rfl, hs, hpoints, hcovers⟩

/-- A unit where a point is worth so much. -/
def ownerWith (pointValue : ℚ) : Caller :=
  { owner 0 with shop := { corner with
    network := { corner.network with loyaltyPointValue := some pointValue } } }

/-- A haircut is sold with one point taken, and the discount is not what a point is worth. -/
def PointLost (pointValue : ℚ) : Prop :=
  ∃ db' s, createSale oneProduct (ownerWith pointValue)
      { haircutSale (some 1) 40 with loyaltyPointsRedeemed := some 1 } (fun _ => oneCustomer 50)
      (oneCustomer 50) = .ok db' ∧
    db'.sales.get? 1 = some s ∧ s.loyaltyPointsRedeemed = some 1 ∧
    ¬FewestPoints pointValue (s.loyaltyDiscountAmount.getD 0) 1 ∧
    ¬s.Covers 40 0 0 none 1 pointValue

theorem pointLost_of_mem : ∀ v ∈ [(4 / 1000 : ℚ), 15 / 1000], PointLost v := by
  have hall : ∀ v ∈ [(4 / 1000 : ℚ), 15 / 1000], (createSale oneProduct (ownerWith v)
      { haircutSale (some 1) 40 with loyaltyPointsRedeemed := some 1 } (fun _ => oneCustomer 50)
      (oneCustomer 50)).toOption.any (fun db' => (db'.sales.get? 1).any fun s =>
        s.loyaltyPointsRedeemed == some 1 &&
          (s.loyaltyDiscountAmount == none || decide (v < s.loyaltyDiscountAmount.getD 0))) = true := by
    decide +kernel
  intro v hv
  have hok := hall v hv
  cases hsale : createSale oneProduct (ownerWith v)
      { haircutSale (some 1) 40 with loyaltyPointsRedeemed := some 1 } (fun _ => oneCustomer 50)
      (oneCustomer 50) with
  | error e => simp [hsale, Except.toOption] at hok
  | ok db' =>
    simp only [hsale, Except.toOption, Option.any_some, Option.any_eq_true, Bool.and_eq_true,
      Bool.or_eq_true, beq_iff_eq, decide_eq_true_eq] at hok
    obtain ⟨s, hs, hpoints, hdiscount⟩ := hok
    have hnot : ¬FewestPoints v (s.loyaltyDiscountAmount.getD 0) 1 := by
      rintro ⟨⟨-, hcovers⟩, hleast⟩
      rcases hdiscount with hnone | hmore
      · have hle : (1 : ℤ) ≤ 0 := hleast ⟨le_rfl, by simp [hnone]⟩
        omega
      · push_cast at hcovers
        linarith
    refine ⟨db', s, hsale, hs, hpoints, hnot, fun hcovers => ?_⟩
    have hfewest := hcovers.fewest
    rw [hpoints] at hfewest
    exact hnot hfewest

/-- One point that is worth less than half a cent is taken for nothing, and one that is worth a cent
and a half takes off two. -/
theorem createSale_point_lost : PointLost (4 / 1000) ∧ PointLost (15 / 1000) :=
  ⟨pointLost_of_mem _ (by simp), pointLost_of_mem _ (by simp)⟩

end Barbershop
