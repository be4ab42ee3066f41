import Barbershop.Loyalty.Points

/-!
# The loyalty ledger

Over any run of the service, the points of a customer are what the existing sales gave, less what
they redeemed, plus the referral bonuses currently awarded, plus what the customer started with, plus
what the floor at zero has forgiven on the way. The last term is the only source of points that no
sale or referral accounts for: a sale that stops counting takes its points back from a customer who
has spent them, and the part it cannot take is given again in full when the sale counts again.
-/

namespace Barbershop

open Lib

/-! ## What the sales account for -/

/-- The points the existing sales of a customer have given. -/
def earnedOf (sales : Table Sale) (c : ℕ) : ℤ :=
  sales.sum fun _ s => if s.customerId = some c then s.loyaltyPointsEarned.getD 0 else 0

/-- The points redeemed on the existing sales of a customer. -/
def redeemedOf (sales : Table Sale) (c : ℕ) : ℤ :=
  sales.sum fun _ s => if s.customerId = some c then s.loyaltyPointsRedeemed.getD 0 else 0

/-- The points a sale accounts for in the balance of `c`. -/
def Sale.pointsFor (c : ℕ) (s : Sale) : ℤ :=
  if s.customerId = some c then s.loyaltyPointsEarned.getD 0 - s.loyaltyPointsRedeemed.getD 0 else 0

def accountedOf (sales : Table Sale) (c : ℕ) : ℤ := sales.sum fun _ s => s.pointsFor c

theorem accountedOf_eq (sales : Table Sale) (c : ℕ) :
    accountedOf sales c = earnedOf sales c - redeemedOf sales c := by
  unfold accountedOf earnedOf redeemedOf
  rw [← Table.sum_sub]
  refine Table.sum_congr fun _ s _ => ?_
  unfold Sale.pointsFor
  split <;> simp

/-- No sale has redeemed a negative number of points. -/
def RedeemedNonneg (sales : Table Sale) : Prop :=
  ∀ k s, sales.get? k = some s → 0 ≤ s.loyaltyPointsRedeemed.getD 0

theorem redeemedNonneg_insert {sales : Table Sale} (h : RedeemedNonneg sales) {s : Sale}
    (hs : 0 ≤ s.loyaltyPointsRedeemed.getD 0) : RedeemedNonneg (sales.insert s) := by
  intro k a ha
  rw [Table.get?_insert] at ha
  split at ha
  · obtain rfl := Option.some.inj ha
    exact hs
  · exact h k a ha

theorem redeemedNonneg_modify {sales : Table Sale} (h : RedeemedNonneg sales) (k : ℕ)
    {f : Sale → Sale} (hf : ∀ s, (f s).loyaltyPointsRedeemed = s.loyaltyPointsRedeemed) :
    RedeemedNonneg (sales.modify k f) := by
  intro j a ha
  rw [Table.get?_modify] at ha
  split at ha
  · obtain ⟨s, hs, rfl⟩ := Option.map_eq_some_iff.1 ha
    rw [hf s]
    exact h j s hs
  · exact h j a ha

/-! ## What the floor forgives -/

/-- What the floor forgives customer `c` when the points of an edited sale move. -/
def SaleEdit.forgiven (e : SaleEdit) (network : Network) (customers : Table Customer) (c : ℕ) : ℤ :=
  let taken := match e.existing.customerId with
    | none => 0
    | some a => if e.customerChanged then forgivenTo customers a (-e.prevEarned) c else 0
  let customers := match e.existing.customerId with
    | none => customers
    | some a => if e.customerChanged then addLoyaltyPoints customers a (-e.prevEarned) else customers
  taken + match e.nextCustomerId with
  | none => 0
  | some b => forgivenTo customers b
      (if e.customerChanged then e.nextEarned network else e.nextEarned network - e.prevEarned) c

/-- What the floor forgives when an edited sale opens the referral it had completed. -/
def SaleEdit.referralForgiven (e : SaleEdit) (saleId : ℕ) (referrals : Table CustomerReferral)
    (customers : Table Customer) (c : ℕ) : ℤ :=
  if e.existing.paymentStatus = .paid ∧ (e.nextStatus ≠ .paid ∨ e.customerChanged) then
    Barbershop.referralForgiven saleId referrals customers c
  else 0

/-- What the floor forgives when a deleted sale gives back what it took and takes what it gave. -/
def Sale.restoreForgiven (existing : Sale) (customers : Table Customer) (c : ℕ) : ℤ :=
  match existing.customerId with
  | none => 0
  | some id => forgivenTo customers id
      (existing.loyaltyPointsRedeemed.getD 0 - existing.loyaltyPointsEarned.getD 0) c

/-- What the floor at zero forgives customer `c` in one request: points that were to be taken back
and that the balance did not cover. -/
def Request.forgiven (c : ℕ) (db : Db) : Request → ℤ
  | .updateSale ctx saleId data =>
    (db.sales.get? saleId).elim 0 fun existing =>
      let e : SaleEdit := ⟨data, existing, db.openSession ctx.shop.id⟩
      e.forgiven ctx.shop.network db.customers c +
        e.referralForgiven saleId db.referrals (e.movePoints ctx.shop.network db.customers) c
  | .deleteSale _ saleId =>
    (db.sales.get? saleId).elim 0 fun existing =>
      referralForgiven saleId db.referrals db.customers c +
        existing.restoreForgiven (revertReferralOfSale saleId db.referrals db.customers).2 c
  | _ => 0

/-! ## Creating -/

theorem moved_redeemPoints {plan : SalePlan} {t t' : Table Customer}
    (h : plan.redeemPoints t = .ok t') (c : ℕ) :
    Moved c t t' (if plan.customerId = some c then -plan.charge.loyaltyPointsRedeemed else 0) := by
  unfold SalePlan.redeemPoints at h
  cases hc : plan.customerId with
  | none =>
    simp only [hc, pure_eq_ok] at h
    subst h
    exact (Moved.refl c t).cast (by simp)
  | some id =>
    simp only [hc] at h
    split at h
    · next hzero =>
      obtain rfl := pure_eq_ok.1 h
      exact (Moved.refl c t).cast (by simp [hzero])
    · obtain ⟨a, -, -, rfl⟩ := Table.tryModify_eq_some.1 (orRefuse_eq_ok.1 h)
      refine (moved_modify c id t _ (-plan.charge.loyaltyPointsRedeemed) ?_).cast (by simp)
      intro a _ _
      exact sub_eq_add_neg ..

theorem balanced_grantPoints (plan : SalePlan) (ctx : Caller) (saleId c : ℕ)
    {r : Table CustomerReferral} (hr : OpenUnawarded r) (t : Table Customer) :
    Balanced c r t (plan.grantPoints ctx saleId r t)
      (if plan.customerId = some c then max 0 (plan.pointsEarned ctx.shop.network) else 0) := by
  unfold SalePlan.grantPoints
  generalize plan.pointsEarned ctx.shop.network = earned
  have hm : Moved c t
      (match plan.customerId with
        | none => t
        | some id => if 0 < earned then incrementPoints t id earned else t)
      (if plan.customerId = some c then max 0 earned else 0) := by
    cases hc : plan.customerId with
    | none => exact (Moved.refl c t).cast (by simp)
    | some id =>
      dsimp only
      split
      · next hpos => exact (moved_incrementPoints c id t earned).cast (by simp [max_eq_right hpos.le])
      · next hneg => exact (Moved.refl c t).cast (by simp [max_eq_left (not_lt.1 hneg)])
  dsimp only
  split
  · exact (Balanced.after hm (balanced_completeReferralIfPaid c _ _ _ _ _ hr _)).cast (add_zero _)
  · exact (Balanced.after hm (Balanced.refl c hr _)).cast (add_zero _)

theorem pointsFor_sale (plan : SalePlan) (ctx : Caller) (c : ℕ) :
    (plan.sale ctx).pointsFor c = if plan.customerId = some c then
      max 0 (plan.pointsEarned ctx.shop.network) - plan.charge.loyaltyPointsRedeemed else 0 := by
  unfold Sale.pointsFor SalePlan.sale
  generalize plan.pointsEarned ctx.shop.network = earned
  dsimp only
  split
  · have he : (if 0 < earned then some earned else none).getD 0 = max 0 earned := by
      split <;> simp <;> omega
    have hp : (if plan.charge.loyaltyPointsRedeemed = 0 then none
        else some plan.charge.loyaltyPointsRedeemed).getD 0 = plan.charge.loyaltyPointsRedeemed := by
      split <;> simp_all
    rw [he, hp]
  · rfl

/-! ## Editing -/

theorem moved_movePoints (e : SaleEdit) (network : Network) (t : Table Customer) (c : ℕ) :
    Moved c t (e.movePoints network t)
      ((if e.nextCustomerId = some c then e.nextEarned network else 0) -
        (if e.existing.customerId = some c then e.prevEarned else 0) +
        e.forgiven network t c) := by
  unfold SaleEdit.movePoints SaleEdit.forgiven
  by_cases hchanged : e.customerChanged
  · simp only [hchanged, if_true]
    cases hold : e.existing.customerId with
    | none =>
      cases hnext : e.nextCustomerId with
      | none => exact (Moved.refl c t).cast (by simp)
      | some b => exact (moved_addLoyaltyPoints c b t _).cast (by simp)
    | some a =>
      have hm := moved_addLoyaltyPoints c a t (-e.prevEarned)
      cases hnext : e.nextCustomerId with
      | none =>
        refine hm.cast ?_
        by_cases hac : a = c <;> simp [hac]
      | some b =>
        refine (hm.trans (moved_addLoyaltyPoints c b _ (e.nextEarned network))).cast ?_
        by_cases hac : a = c <;> by_cases hbc : b = c <;> simp [hac, hbc] <;> ring
  · have hsame : e.nextCustomerId = e.existing.customerId := not_not.1 hchanged
    simp only [hchanged, if_false, hsame]
    cases hold : e.existing.customerId with
    | none => exact (Moved.refl c t).cast (by simp)
    | some b =>
      refine (moved_addLoyaltyPoints c b t (e.nextEarned network - e.prevEarned)).cast ?_
      by_cases hbc : b = c <;> simp [hbc]

theorem balanced_moveReferral (e : SaleEdit) (ctx : Caller) (saleId c : ℕ)
    {r : Table CustomerReferral} (hr : OpenUnawarded r) (t : Table Customer) :
    Balanced c r t (e.moveReferral ctx saleId r t) (e.referralForgiven saleId r t c) := by
  unfold SaleEdit.moveReferral SaleEdit.referralForgiven
  have hrev : Balanced c r t
      (if e.existing.paymentStatus = .paid ∧ (e.nextStatus ≠ .paid ∨ e.customerChanged) then
        revertReferralOfSale saleId r t else (r, t))
      (if e.existing.paymentStatus = .paid ∧ (e.nextStatus ≠ .paid ∨ e.customerChanged) then
        referralForgiven saleId r t c else 0) := by
    split
    · exact balanced_revertReferralOfSale c saleId hr t
    · exact Balanced.refl c hr t
  dsimp only
  split
  · exact (hrev.trans (balanced_completeReferralIfPaid c _ _ _ _ _ hrev.unawarded _)).cast
      (add_zero _)
  · exact hrev

/-- The edited row accounts for the points the sale gives now. -/
theorem pointsFor_row {e : SaleEdit} {ctx : Caller} {c : ℕ}
    (hlock : e.customerChanged → e.existing.loyaltyPointsRedeemed.getD 0 = 0) :
    (e.row ctx e.existing).pointsFor c = e.existing.pointsFor c +
      ((if e.nextCustomerId = some c then e.nextEarned ctx.shop.network else 0) -
        (if e.existing.customerId = some c then e.prevEarned else 0)) := by
  have hearned : (if e.nextEarned ctx.shop.network = 0 then none
      else some (e.nextEarned ctx.shop.network)).getD 0 = e.nextEarned ctx.shop.network := by
    split <;> simp_all
  have hrow : (e.row ctx e.existing).pointsFor c = if e.nextCustomerId = some c then
      e.nextEarned ctx.shop.network - e.existing.loyaltyPointsRedeemed.getD 0 else 0 := by
    unfold Sale.pointsFor SaleEdit.row
    dsimp only
    rw [hearned]
    rfl
  rw [hrow]
  unfold Sale.pointsFor SaleEdit.prevEarned
  by_cases hchanged : e.customerChanged
  · rw [hlock hchanged]
    split <;> split <;> omega
  · rw [not_not.1 hchanged]
    split <;> omega

/-! ## Deleting -/

theorem moved_restorePoints (existing : Sale) (t : Table Customer) (c : ℕ) :
    Moved c t (restorePoints existing t)
      (-existing.pointsFor c + existing.restoreForgiven t c) := by
  unfold restorePoints Sale.restoreForgiven Sale.pointsFor
  cases existing.customerId with
  | none => exact (Moved.refl c t).cast (by simp)
  | some id =>
    refine (moved_addLoyaltyPoints c id t _).cast ?_
    by_cases hid : id = c <;> simp [hid]

/-! ## Refunding -/

theorem pointsFor_lowerEarned (r : Refund) (network : Network) (s : Sale) (c : ℕ)
    (hs : s.loyaltyPointsEarned.getD 0 = r.prevEarned) :
    (r.lowerEarned network s).pointsFor c = s.pointsFor c +
      if s.customerId = some c ∧ 0 < r.prevEarned then r.nextEarned network - r.prevEarned
      else 0 := by
  have hearned : (if r.nextEarned network = 0 then none else some (r.nextEarned network)).getD 0 =
      r.nextEarned network := by
    split <;> simp_all
  unfold Refund.lowerEarned
  split
  · next hpos =>
    unfold Sale.pointsFor
    dsimp only
    rw [hearned, hs]
    by_cases hc : s.customerId = some c
    · simp only [hc, hpos, if_true, and_self]
      ring
    · simp [hc]
  · next hneg => simp [hneg]

/-- Rewriting the amounts of a pending sale accounts for the same points. -/
theorem pointsFor_lower (r : Refund) (network : Network) (s : Sale) (c : ℕ)
    (hs : s.loyaltyPointsEarned.getD 0 = r.prevEarned) :
    (r.lower network s).pointsFor c = s.pointsFor c +
      if s.customerId = some c ∧ 0 < r.prevEarned then r.nextEarned network - r.prevEarned
      else 0 :=
  pointsFor_lowerEarned r network _ c hs

theorem moved_refund (r : Refund) (network : Network) (t : Table Customer) (c : ℕ) :
    Moved c t (r.movePoints network t)
      (if r.existing.customerId = some c ∧ 0 < r.prevEarned then
        r.nextEarned network - r.prevEarned else 0) := by
  unfold Refund.movePoints
  cases r.existing.customerId with
  | none => exact (Moved.refl c t).cast (by simp)
  | some id =>
    dsimp only
    split
    · next hpos => exact (moved_incrementPoints c id t _).cast (by simp [hpos])
    · next hneg => exact (Moved.refl c t).cast (by simp [hneg])

theorem accountedOf_refund {r : Refund} {ctx : Caller} {saleId : ℕ} {openSession : Option ℕ}
    {sales : Table Sale} (hs : sales.get? saleId = some r.existing) (c : ℕ) :
    accountedOf (r.sales ctx saleId openSession sales) c = accountedOf sales c +
      if r.existing.customerId = some c ∧ 0 < r.prevEarned then
        r.nextEarned ctx.shop.network - r.prevEarned else 0 := by
  unfold accountedOf Refund.sales
  split
  · have hnew : (r.sale ctx saleId openSession).pointsFor c = 0 := by
      simp [Refund.sale, Sale.pointsFor]
    have hget : (if 0 < r.amount then sales.insert (r.sale ctx saleId openSession)
        else sales).get? saleId = some r.existing := by
      split
      · exact Table.get?_insert_of_some _ hs
      · exact hs
    have hsum : (if 0 < r.amount then sales.insert (r.sale ctx saleId openSession)
        else sales).sum (fun _ s => s.pointsFor c) = sales.sum fun _ s => s.pointsFor c := by
      split
      · rw [Table.sum_insert, hnew, add_zero]
      · rfl
    have h := Table.sum_modify (r.lowerEarned ctx.shop.network)
      (fun _ s => s.pointsFor c) hget
    rw [pointsFor_lowerEarned r ctx.shop.network r.existing c rfl, hsum] at h
    dsimp only
    omega
  · have h := Table.sum_modify (r.lower ctx.shop.network) (fun _ s => s.pointsFor c) hs
    rw [pointsFor_lower r ctx.shop.network r.existing c rfl] at h
    omega

/-! ## One request -/

/-- What the account of customer `c` rests on. -/
structure LedgerInv (c : ℕ) (db : Db) : Prop where
  known : (db.customers.get? c).isSome
  unawarded : OpenUnawarded db.referrals
  redeemed : RedeemedNonneg db.sales

/-- The points of `c` that neither the sales nor the referrals account for. -/
def unaccounted (c : ℕ) (db : Db) : ℤ :=
  pointsOf db.customers c - bonusesOf db.referrals c - accountedOf db.sales c

/-- A write to the sales that accounts for the points it moves changes the rest by what the floor
forgave. -/
theorem ledger_of_balanced {c : ℕ} {db db' : Db} {d f : ℤ} (hI : LedgerInv c db)
    (hb : Balanced c db.referrals db.customers (db'.referrals, db'.customers) (d + f))
    (hs : RedeemedNonneg db'.sales) (ha : accountedOf db'.sales c = accountedOf db.sales c + d) :
    LedgerInv c db' ∧ unaccounted c db' = unaccounted c db + f := by
  refine ⟨⟨hb.known.trans hI.known, hb.unawarded, hs⟩, ?_⟩
  have := hb.points hI.known
  unfold unaccounted
  simp only at this
  omega

theorem ledger_of_plain {c : ℕ} {r : Request} {db db' : Db} (hI : LedgerInv c db)
    (h : PlainFrame r db db') :
    LedgerInv c db' ∧ unaccounted c db' = unaccounted c db + 0 := by
  refine ledger_of_balanced (d := 0) hI ?_ ?_ ?_
  · rw [h.customers, h.referrals]
    exact Balanced.refl c hI.unawarded _
  · rcases h.sales with hs | ⟨s, hs, hinsert⟩
    · exact hs ▸ hI.redeemed
    · rw [hinsert]
      exact redeemedNonneg_insert hI.redeemed (by simp [hs.redeemed])
  · rcases h.sales with hs | ⟨s, hs, hinsert⟩
    · rw [hs, add_zero]
    · unfold accountedOf
      rw [hinsert, Table.sum_insert]
      simp [Sale.pointsFor, hs.earned, hs.redeemed]

theorem ledger_createSale {cat : Catalog} {ctx : Caller} {data : SaleInput} {db db' : Db} {c : ℕ}
    (hI : LedgerInv c db) (h : createSale cat ctx data (fun _ => db) db = .ok db') :
    LedgerInv c db' ∧ unaccounted c db' = unaccounted c db + 0 := by
  obtain ⟨plan, hplan, hcommit⟩ := createSale_ok h
  obtain ⟨cards, club, packages, customers, -, -, -, hredeem, rfl⟩ := commitSale_ok hcommit
  have hb := Balanced.after (moved_redeemPoints hredeem c)
    (balanced_grantPoints plan ctx db.sales.next c hI.unawarded customers)
  have he : (if plan.customerId = some c then -plan.charge.loyaltyPointsRedeemed else 0) +
      (if plan.customerId = some c then max 0 (plan.pointsEarned ctx.shop.network) else 0) =
      (plan.sale ctx).pointsFor c + 0 := by
    rw [pointsFor_sale]
    split <;> omega
  refine ledger_of_balanced hI (hb.cast he) ?_ ?_
  · refine redeemedNonneg_insert hI.redeemed ?_
    have := hplan.points_nonneg
    simp only [SalePlan.sale]
    split <;> simp_all
  · exact Table.sum_insert ..

theorem ledger_updateSale {cat : Catalog} {ctx : Caller} {saleId : ℕ} {data : SalePatch}
    {db db' : Db} {c : ℕ} (hI : LedgerInv c db)
    (h : updateSale cat ctx saleId data (fun _ => db) db = .ok db') :
    LedgerInv c db' ∧ unaccounted c db' =
      unaccounted c db + (Request.updateSale ctx saleId data).forgiven c db := by
  obtain ⟨e, rfl, he, hcommit⟩ := updateSale_ok h
  obtain ⟨s, hs, rfl⟩ := commitEdit_ok hcommit
  obtain rfl : s = e.existing := Option.some.inj (hs.symm.trans he.existing)
  have hlock : e.customerChanged → e.existing.loyaltyPointsRedeemed.getD 0 = 0 := fun hc =>
    le_antisymm (checkEdit_customer he.edit hc).1 (hI.redeemed _ _ hs)
  have hforgiven : (Request.updateSale ctx saleId e.data).forgiven c db =
      e.forgiven ctx.shop.network db.customers c +
        e.referralForgiven saleId db.referrals (e.movePoints ctx.shop.network db.customers) c := by
    have hopen : (⟨e.data, e.existing, db.openSession ctx.shop.id⟩ : SaleEdit) = e := by
      rw [← he.openSession]
    simp only [Request.forgiven, hs, Option.elim_some, hopen]
  rw [hforgiven]
  have hb := Balanced.after (moved_movePoints e ctx.shop.network db.customers c)
    (balanced_moveReferral e ctx saleId c hI.unawarded _)
  refine ledger_of_balanced hI (hb.cast (add_assoc ..)) ?_ ?_
  · exact redeemedNonneg_modify hI.redeemed saleId fun _ => rfl
  · have := Table.sum_modify (e.row ctx) (fun _ s => s.pointsFor c) hs
    rw [pointsFor_row hlock] at this
    unfold accountedOf
    dsimp only
    omega

theorem ledger_deleteSale {ctx : Caller} {saleId : ℕ} {db db' : Db} {c : ℕ} (hI : LedgerInv c db)
    (h : deleteSale ctx saleId (fun _ => db) db = .ok db') :
    LedgerInv c db' ∧ unaccounted c db' =
      unaccounted c db + (Request.deleteSale ctx saleId).forgiven c db := by
  obtain ⟨existing, packages, cards, s, hcheck, -, -, hs, rfl⟩ := deleteSale_ok h
  obtain ⟨hexisting, -, -, -⟩ := checkDelete_ok hcheck
  obtain rfl : s = existing := Option.some.inj (hs.symm.trans hexisting)
  have hb := (balanced_revertReferralOfSale c saleId hI.unawarded db.customers).before
    (moved_restorePoints s _ c)
  simp only [Request.forgiven, hs, Option.elim_some]
  refine ledger_of_balanced hI (hb.cast (add_left_comm ..)) ?_ ?_
  · intro k a ha
    rw [Table.get?_erase] at ha
    split at ha
    · cases ha
    · exact hI.redeemed k a ha
  · have := Table.sum_erase (fun _ s => s.pointsFor c) hs
    unfold accountedOf
    dsimp only
    omega

theorem ledger_refund {ctx : Caller} {saleId : ℕ} {db db' : Db} {c : ℕ} (hI : LedgerInv c db)
    (h : refundIssuedRemainder ctx saleId (fun _ => db) db = .ok db') :
    LedgerInv c db' ∧ unaccounted c db' = unaccounted c db + 0 := by
  obtain ⟨existing, s, hexisting, -, -, hs, r, packages, cards, rfl, -, rfl⟩ :=
    refundIssuedRemainder_ok h
  have hm := moved_refund r ctx.shop.network db.customers c
  have hb := Balanced.after hm (Balanced.refl c hI.unawarded _)
  refine ledger_of_balanced hI hb ?_ (accountedOf_refund hexisting c)
  have hlower : ∀ s, (r.lowerEarned ctx.shop.network s).loyaltyPointsRedeemed =
      s.loyaltyPointsRedeemed := by
    intro s
    unfold Refund.lowerEarned
    split <;> rfl
  dsimp only
  unfold Refund.sales
  split
  · refine redeemedNonneg_modify ?_ saleId hlower
    split
    · exact redeemedNonneg_insert hI.redeemed le_rfl
    · exact hI.redeemed
  · exact redeemedNonneg_modify hI.redeemed saleId fun s => hlower _

theorem forgiven_of_plain {r : Request} (hr : r.plain = true) (c : ℕ) (db : Db) :
    r.forgiven c db = 0 := by
  cases r <;> first | rfl | cases hr

/-- Every request moves the rest by what the floor forgives in it. -/
theorem ledger_step {cat : Catalog} {r : Request} {db db' : Db} {c : ℕ} (hI : LedgerInv c db)
    (h : (service cat).step db r = some db') :
    LedgerInv c db' ∧ unaccounted c db' = unaccounted c db + r.forgiven c db := by
  rw [service_step] at h
  cases hr : r.plain with
  | true =>
    rw [forgiven_of_plain hr]
    exact ledger_of_plain hI (plain_frame hr h)
  | false =>
    cases r with
    | createSale ctx data => exact ledger_createSale hI h
    | updateSale ctx saleId data => exact ledger_updateSale hI h
    | deleteSale ctx saleId => exact ledger_deleteSale hI h
    | refundIssuedRemainder ctx saleId => exact ledger_refund hI h
    | adjustInventory ctx data =>
      obtain ⟨u, -, rfl⟩ := map_eq_ok.1 h
      obtain ⟨st, hst⟩ := adjustInventory_frame cat ctx data db
      rw [hst]
      exact ⟨⟨hI.known, hI.unawarded, hI.redeemed⟩, (add_zero _).symm⟩
    | _ => cases hr

/-! ## Runs -/

/-- A customer with `balance` points, no sale, and no referral that has paid a bonus. -/
structure NewCustomer (c : ℕ) (balance : ℤ) (db : Db) : Prop where
  customer : ∃ a, db.customers.get? c = some a ∧ a.loyaltyPoints = balance
  noSale : ∀ k s, db.sales.get? k = some s → s.customerId ≠ some c
  noBonus : ∀ k r, db.referrals.get? k = some r → r.referrerId = c → r.pointsAwarded = none
  unawarded : OpenUnawarded db.referrals
  redeemed : RedeemedNonneg db.sales

theorem NewCustomer.ledger {c : ℕ} {balance : ℤ} {db : Db} (h : NewCustomer c balance db) :
    LedgerInv c db ∧ unaccounted c db = balance := by
  obtain ⟨a, ha, rfl⟩ := h.customer
  refine ⟨⟨by simp [ha], h.unawarded, h.redeemed⟩, ?_⟩
  have hsales : accountedOf db.sales c = 0 :=
    Table.sum_eq_zero fun k s hs => by simp [Sale.pointsFor, h.noSale k s hs]
  have hbonus : bonusesOf db.referrals c = 0 := by
    refine Table.sum_eq_zero fun k r hr => ?_
    split
    · next hc => simp [h.noBonus k r hr hc]
    · rfl
  unfold unaccounted
  rw [hsales, hbonus]
  simp [pointsOf, ha]

/-- Over a run, the points of a customer are what the existing sales gave and redeemed, the bonuses
awarded and the starting balance account for, plus what the floor at zero forgave. In particular a
stretch of the run that leaves what is accounted for as it was (a sale made pending and paid again)
adds what the floor forgave in it, and nothing else. -/
theorem points_eq_accounted_add_forgiven (cat : Catalog) {c : ℕ} {balance : ℤ} {db db' : Db}
    {rs : List Request} (hstart : NewCustomer c balance db)
    (h : (service cat).run db rs = some db') :
    pointsOf db'.customers c = balance + earnedOf db'.sales c - redeemedOf db'.sales c +
        bonusesOf db'.referrals c +
        (service cat).total (Request.forgiven c) db rs ∧
      ∀ rs' db'', (service cat).run db' rs' = some db'' →
        earnedOf db''.sales c = earnedOf db'.sales c →
        redeemedOf db''.sales c = redeemedOf db'.sales c →
        bonusesOf db''.referrals c = bonusesOf db'.referrals c →
        pointsOf db''.customers c = pointsOf db'.customers c +
          (service cat).total (Request.forgiven c) db' rs' := by
  obtain ⟨hI, hq⟩ := hstart.ledger
  obtain ⟨hI', hq'⟩ := (service cat).run_total (q := unaccounted c) ledger_step hI h
  refine ⟨?_, fun rs' db'' h' he hr hb => ?_⟩
  · rw [hq] at hq'
    unfold unaccounted at hq'
    rw [accountedOf_eq] at hq'
    omega
  · obtain ⟨-, hq''⟩ := (service cat).run_total (q := unaccounted c) ledger_step hI' h'
    unfold unaccounted at hq''
    rw [accountedOf_eq, accountedOf_eq] at hq''
    omega

/-- Ten points earned, spent on a second sale, and given again when the first is made pending and
paid. -/
def mintingRun : List Request :=
  [.createSale (owner 0) (haircutSale (some 1) 10),
   .createSale (owner 0) { haircutSale (some 1) 10 with loyaltyPointsRedeemed := some 10 },
   .updateSale (owner 0) 1 { SalePatch.none with paymentStatus := some .pending },
   .updateSale (owner 0) 1 { SalePatch.none with paymentStatus := some .paid }]

theorem oneCustomer_new (points : ℤ) : NewCustomer 1 points (oneCustomer points) where
  customer := ⟨_, rfl, rfl⟩
  noSale := by simp [oneCustomer, Db.empty]
  noBonus := by simp [oneCustomer, Db.empty]
  unawarded := fun k r h => by simp [oneCustomer, Db.empty] at h
  redeemed := fun k s h => by simp [oneCustomer, Db.empty] at h

theorem mintingRun_accounted : ∃ db, (service oneProduct).run (oneCustomer 0) mintingRun = some db ∧
    pointsOf db.customers 1 = 0 + earnedOf db.sales 1 - redeemedOf db.sales 1 +
      bonusesOf db.referrals 1 +
      (service oneProduct).total (Request.forgiven 1) (oneCustomer 0) mintingRun := by
  have h : ((service oneProduct).run (oneCustomer 0) mintingRun).isSome := by decide +kernel
  obtain ⟨db, hdb⟩ := Option.isSome_iff_exists.1 h
  exact ⟨db, hdb, (points_eq_accounted_add_forgiven oneProduct (oneCustomer_new 0) hdb).1⟩

/-- The floor makes points: the run ends with ten that nothing accounts for, and making the sale
pending and paid again is what gave them. -/
theorem minting_run : NewCustomer 1 0 (oneCustomer 0) ∧
    ∃ before db, (service oneProduct).run (oneCustomer 0) (mintingRun.take 2) = some before ∧
      (service oneProduct).run before (mintingRun.drop 2) = some db ∧
      0 + earnedOf db.sales 1 - redeemedOf db.sales 1 + bonusesOf db.referrals 1 <
        pointsOf db.customers 1 ∧
      pointsOf before.customers 1 < pointsOf db.customers 1 := by
  refine ⟨oneCustomer_new 0, ?_⟩
  have h : ((service oneProduct).run (oneCustomer 0) (mintingRun.take 2)).any fun before =>
      ((service oneProduct).run before (mintingRun.drop 2)).any fun db =>
        decide (0 + earnedOf db.sales 1 - redeemedOf db.sales 1 + bonusesOf db.referrals 1 <
          pointsOf db.customers 1 ∧ pointsOf before.customers 1 < pointsOf db.customers 1) := by
    decide +kernel
  simp only [Option.any_eq_true, decide_eq_true_eq] at h
  obtain ⟨before, hbefore, db, hdb, hlt⟩ := h
  exact ⟨before, db, hbefore, hdb, hlt⟩

end Barbershop
