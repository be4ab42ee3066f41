import Barbershop.Cash.Drawer
import Barbershop.Service

/-!
# Closed sessions under edits

A closed session is reconciled when its stored expected balance is the opening balance plus what is
attached to it now. One request at a time, every request keeps the records of the closed sessions
except an edit that sends another total: the lock of `updateSale` compares the status, the method,
the items, the discount and the tax, and not the total, which is written again whenever it is sent.
For a sale without items the total is free, and for any sale it is free up to the tolerance.
-/

namespace Barbershop

open Lib

/-! ## Deletions and refunds -/

theorem deleteSale_drawersKept {ctx : Caller} {saleId : ℕ} {reads : DeleteRead → Db} {db db' : Db}
    (hread : reads .existing = db) (h : deleteSale ctx saleId reads db = .ok db') :
    DrawersKept db db' := by
  obtain ⟨existing, _, _, s, hcheck, -, -, hs, rfl⟩ := deleteSale_ok h
  obtain ⟨hexisting, -, -, hclosed⟩ := checkDelete_ok hcheck
  rw [hread] at hexisting hclosed
  obtain rfl : s = existing := Option.some.inj (hs.symm.trans hexisting)
  refine .of_sums rfl fun id hid => cashSums_of_sales rfl rfl rfl rfl ?_
  refine cashSales_erase (k := saleId) rfl hs (Sale.inCash_eq_zero (Sale.inDrawer_of_ne ?_))
  intro hin
  rw [Db.cashClosed_iff.2 ⟨id, hin, hid⟩] at hclosed
  cases hclosed

theorem Refund.lowerEarned_counted (r : Refund) (network : Network) (s : Sale) :
    (r.lowerEarned network s).counted = s.counted := by
  unfold Refund.lowerEarned
  split <;> rfl

/-- A refund adds a sale to the open session, or lowers a sale that no closed session counts. -/
theorem refundIssuedRemainder_drawersKept {ctx : Caller} {saleId : ℕ} {db db' : Db}
    (h : refundIssuedRemainder ctx saleId (fun _ => db) db = .ok db') : DrawersKept db db' := by
  obtain ⟨existing, s, hexisting, -, hclosed, hs, r, _, _, rfl, -, rfl⟩ :=
    refundIssuedRemainder_ok h
  obtain rfl : s = r.existing := Option.some.inj (hs.symm.trans hexisting)
  refine .of_sums rfl fun id hid => cashSums_of_sales rfl rfl rfl rfl ?_
  by_cases hpaid : r.paid = true
  · have hlow : ∀ t : Table Sale, (t.modify saleId (r.lowerEarned ctx.shop.network)).sum
        (fun _ s => s.inCash id) = t.sum fun _ s => s.inCash id := fun t =>
      Table.sum_modify_eq _ _ fun s _ => Sale.inCash_congr (r.lowerEarned_counted _ s) id
    have hout : (r.sale ctx saleId (db.openSession ctx.shop.id)).inCash id = 0 := by
      refine Sale.inCash_eq_zero (Sale.inDrawer_of_ne fun hin => ?_)
      have hopen : db.openSession ctx.shop.id = some id := hin
      have := stillOpen_self db ctx.shop.id id hopen
      simp [this] at hid
    change (r.sales ctx saleId (db.openSession ctx.shop.id) db.sales).sum (fun _ s => s.inCash id) =
      db.sales.sum fun _ s => s.inCash id
    simp only [Refund.sales, hpaid, if_true, hlow]
    split
    · rw [Table.sum_insert, hout, add_zero]
    · rfl
  · refine cashSales_modify (k := saleId) (f := r.lower ctx.shop.network)
      (by simp [Refund.sales, hpaid]) fun s' hs' => ?_
    obtain rfl : r.existing = s' := Option.some.inj (hs.symm.trans hs')
    -- a sale that is not paid is refunded only when its session is not closed
    have hstatus : r.existing.paymentStatus ≠ .paid := by simpa [Refund.paid] using hpaid
    have hout : r.existing.cashSessionId ≠ some id := fun hin => by
      have := hclosed hstatus
      rw [Db.cashClosed_iff.2 ⟨id, hin, hid⟩] at this
      cases this
    have hlow : (r.lower ctx.shop.network r.existing).cashSessionId ≠ some id := by
      unfold Refund.lower Refund.lowerEarned
      split <;> exact hout
    rw [Sale.inCash_eq_zero (Sale.inDrawer_of_ne hlow),
      Sale.inCash_eq_zero (Sale.inDrawer_of_ne hout)]

/-! ## Requests that run alone -/

/-- A sale of its own enters the session that is open. -/
theorem standaloneSale_inDrawer {ctx : Caller} {db : Db} {customerId : Option ℕ}
    {saleType : SaleType} {itemType : ItemType} {amount : ℚ} {notes : String}
    {method : Option PaymentMethod} {id : ℕ}
    (h : (standaloneSale ctx (db.openSession ctx.shop.id) customerId saleType itemType amount notes
      method).inDrawer id = true) : db.sessionClosed id = false := by
  have hsession := (Sale.inDrawer_iff.1 h).1
  dsimp only [standaloneSale] at hsession
  split at hsession
  · exact stillOpen_self db ctx.shop.id id hsession
  · cases hsession

/-- A deposit is unmarked only while the session it entered is open. -/
theorem depositPaid_drawersKept {ctx : Caller} {appointmentId : ℕ} {depositPaid : Bool}
    {method : Option PaymentMethod} {db db' : Db}
    (h : setAppointmentDepositPaid ctx appointmentId depositPaid method (fun _ => db) db =
      .ok db') : DrawersKept db db' := by
  refine setAppointmentDepositPaid_drawersKept h (fun _ _ => stillOpen_self _ _)
    fun hne a ha id hin => ?_
  have hne : a.depositPaid ≠ depositPaid := by simpa [ha] using hne
  obtain ⟨hsession, hpaid, -⟩ := Appointment.inDrawer_iff.1 hin
  rcases setAppointmentDepositPaid_ok h with
    ⟨-, a', ha', heq⟩ | ⟨a', receipt, ha', hunpaid, -⟩ | ⟨a', ha', -, -, hopen, -⟩
  · obtain rfl : a = a' := Option.some.inj (ha.symm.trans ha')
    exact absurd heq hne
  · obtain rfl : a = a' := Option.some.inj (ha.symm.trans ha')
    rw [hunpaid] at hpaid
    cases hpaid
  · obtain rfl : a = a' := Option.some.inj (ha.symm.trans ha')
    obtain ⟨c, hc, hopened⟩ := Option.map_eq_some_iff.1 (hopen id hsession)
    simp [Db.sessionClosed, hc, hopened]

/-- What an edit has to meet: of a sale in a closed session it keeps the total. -/
def Request.KeepsClosed (db : Db) : Request → Prop
  | .updateSale _ saleId data =>
    ∀ s ∈ db.sales.get? saleId, db.cashClosed s = true → data.KeepsTotal s
  | _ => True

instance (db : Db) (r : Request) : Decidable (r.KeepsClosed db) := by
  unfold Request.KeepsClosed
  split <;> infer_instance

/-- A request closes a session or keeps them all. -/
theorem exec_drawersKept {cat : Catalog} {r : Request} {db db' : Db} (hr : r.KeepsClosed db)
    (h : r.exec cat db = .ok db') :
    DrawersKept db db' ∨ ∃ ctx counted, r = .closeCashSession ctx counted := by
  cases r with
  | createSale ctx data =>
    change Barbershop.createSale cat ctx data (fun _ => db) db = .ok db' at h
    exact .inl (createSale_drawersKept h fun _ _ => stillOpen_self _ _)
  | updateSale ctx saleId data =>
    change Barbershop.updateSale cat ctx saleId data (fun _ => db) db = .ok db' at h
    exact .inl (updateSale_drawersKept h (fun _ _ _ => stillOpen_self _ _)
      fun s hs _ hclosed => ⟨s, hs, rfl, hclosed, hr s hs hclosed⟩)
  | deleteSale ctx saleId =>
    change Barbershop.deleteSale ctx saleId (fun _ => db) db = .ok db' at h
    exact .inl (deleteSale_drawersKept rfl h)
  | refundIssuedRemainder ctx saleId => exact .inl (refundIssuedRemainder_drawersKept h)
  | createGiftCard ctx data =>
    obtain ⟨-, rfl⟩ := createGiftCard_ok h
    exact .inl (.insertSale rfl rfl rfl rfl (fun _ => rfl) rfl fun _ => standaloneSale_inDrawer)
  | setGiftCardActive networkId giftCardId isActive =>
    obtain rfl := setGiftCardActive_ok h
    exact .inl (.of_sums rfl fun _ _ => rfl)
  | purchaseClientPackage ctx customerId pkg method =>
    obtain rfl := purchaseClientPackage_ok h
    exact .inl (.insertSale rfl rfl rfl rfl (fun _ => rfl) rfl fun _ => standaloneSale_inDrawer)
  | debitClientPackageSession ctx id =>
    obtain ⟨_, h₁, rfl⟩ := map_eq_ok.1 h
    obtain ⟨_, -, rfl⟩ := startDebit_ok h₁
    exact .inl (.of_sums rfl fun _ _ => rfl)
  | undoClientPackageUse ctx useId =>
    obtain ⟨_, h₁, rfl⟩ := map_eq_ok.1 h
    obtain ⟨_, _, -, -, rfl⟩ := startUndo_ok h₁
    exact .inl (.of_sums rfl fun _ _ => rfl)
  | adjustInventory ctx data =>
    obtain ⟨_, -, rfl⟩ := map_eq_ok.1 h
    obtain ⟨_, hframe⟩ := adjustInventory_frame cat ctx data db
    rw [hframe]
    exact .inl (.of_sums rfl fun _ _ => rfl)
  | openCashSession ctx openingBalance => exact .inl (openCashSession_drawersKept h)
  | closeCashSession ctx counted => exact .inr ⟨ctx, counted, rfl⟩
  | createExpense ctx today data =>
    exact .inl (createExpense_drawersKept h fun _ _ => stillOpen_self _ _)
  | setAppointmentDepositPaid ctx id paid method => exact .inl (depositPaid_drawersKept h)
  | markNoShowFeeCollected ctx feeId method =>
    obtain ⟨fee, _, _, -, rfl⟩ := markNoShowFeeCollected_ok h
    refine .inl (.insertSale rfl rfl rfl rfl (fun _ => rfl) rfl fun id hin => ?_)
    exact stillOpen_self db ctx.shop.id id (Sale.inDrawer_iff.1 hin).1

/-! ## Reconciliation -/

/-- Every closed session stores the balance that its drawer gives now. -/
def CashReconciled (db : Db) : Prop :=
  ∀ id c, db.cashSessions.get? id = some c → c.status = .closed →
    c.expectedBalance = some ((db.cashSums id).expected c.openingBalance)

theorem reconciled_empty : CashReconciled .empty := by
  intro id c hc
  cases hc

/-- What was closed before keeps its record; what was closed now is the caller's to judge. -/
theorem CashReconciled.of_closedKept {db db' : Db} (hI : CashReconciled db) (h : ClosedKept db db')
    (hnew : ∀ id c, db'.cashSessions.get? id = some c → c.status = .closed →
      db.sessionClosed id = false →
      c.expectedBalance = some ((db'.cashSums id).expected c.openingBalance)) :
    CashReconciled db' := by
  intro id c hc hclosed
  cases hid : db.sessionClosed id with
  | false => exact hnew id c hc hclosed hid
  | true =>
    obtain ⟨c₀, hc₀, hclosed₀⟩ := Db.sessionClosed_iff.1 hid
    obtain rfl : c₀ = c := Option.some.inj ((h.row hc₀ hclosed₀).symm.trans hc)
    rw [h.sums hid]
    exact hI id c₀ hc₀ hclosed₀

theorem CashReconciled.of_drawersKept {db db' : Db} (hI : CashReconciled db) (h : DrawersKept db db') :
    CashReconciled db' := by
  refine hI.of_closedKept h.toClosedKept fun id c hc hclosed hid => ?_
  rw [h.none_closed (Db.sessionClosed_iff.2 ⟨c, hc, hclosed⟩)] at hid
  cases hid

/-- The session a close finds is closed with the sums of the moment when no sum it read has
changed. -/
theorem closeCashSession_reconciled {ctx : Caller} {countedBalance : ℚ} {reads : CloseRead → Db}
    {db db' : Db} (hI : CashReconciled db)
    (h : closeCashSession ctx countedBalance reads db = .ok db')
    (hsums : ∀ id c, (reads .session).cashSessions.get? id = some c → c.status = .opened →
      c.barbershopId = ctx.shop.id → readSums reads id = db.cashSums id ∧
        ∀ c', db.cashSessions.get? id = some c' → c'.openingBalance = c.openingBalance) :
    CashReconciled db' := by
  refine hI.of_closedKept (closeCashSession_closedKept h) fun j c hc hclosed hj => ?_
  obtain ⟨id, session, now, hread, hshop, hopened, hnow, hopen, rfl⟩ := closeCashSession_ok h
  obtain ⟨hread_sums, hopening⟩ := hsums id session hread hopened hshop
  by_cases hid : j = id
  · subst hid
    rw [Table.get?_modify_self, hnow] at hc
    obtain rfl := Option.some.inj hc
    change some ((readSums reads j).expected session.openingBalance) =
      some ((db.cashSums j).expected now.openingBalance)
    rw [hread_sums, hopening now hnow]
  · rw [Table.get?_modify_of_ne _ _ hid] at hc
    rw [Db.sessionClosed_iff.2 ⟨c, hc, hclosed⟩] at hj
    cases hj

theorem exec_reconciled {cat : Catalog} {r : Request} {db db' : Db} (hr : r.KeepsClosed db)
    (h : r.exec cat db = .ok db') : ClosedKept db db' ∧ (CashReconciled db → CashReconciled db') := by
  rcases exec_drawersKept hr h with hkept | ⟨ctx, counted, rfl⟩
  · exact ⟨hkept.toClosedKept, fun hI => hI.of_drawersKept hkept⟩
  · change Barbershop.closeCashSession ctx counted (fun _ => db) db = .ok db' at h
    refine ⟨closeCashSession_closedKept h, fun hI => ?_⟩
    refine closeCashSession_reconciled hI h fun id c hc _ _ => ⟨rfl, fun c' hc' => ?_⟩
    rw [Option.some.inj (hc.symm.trans hc')]

/-- An edit of a sale of a closed session that is accepted leaves what the count took from the sale
exactly when it keeps the total; and in every run whose edits of such sales do, the closed sessions
keep their records and every closed session stays reconciled. -/
theorem closedSessions_reconciled (cat : Catalog) :
    (∀ (ctx : Caller) (saleId : ℕ) (data : SalePatch) (db db' : Db) (s : Sale),
      db.sales.get? saleId = some s → db.cashClosed s = true →
      updateSale cat ctx saleId data (fun _ => db) db = .ok db' →
        ((db'.sales.get? saleId).map Sale.counted = some s.counted ↔ data.KeepsTotal s)) ∧
    ∀ (db db' : Db) (rs : List Request), CashReconciled db →
      (service cat).Meets (fun db r => r.KeepsClosed db) db rs →
      (service cat).run db rs = some db' → ClosedKept db db' ∧ CashReconciled db' := by
  constructor
  · intro ctx saleId data db db' s hs hclosed h
    obtain ⟨e, rfl, hchecked, hcommit⟩ := @updateSale_ok cat ctx saleId data (fun _ => db) db db' h
    obtain ⟨s', hs', rfl⟩ := commitEdit_ok hcommit
    obtain rfl : s' = e.existing := Option.some.inj (hs'.symm.trans hchecked.existing)
    obtain rfl : s = e.existing := Option.some.inj (hs.symm.trans hs')
    have hedit := hchecked.edit
    rw [hclosed] at hedit
    rw [← SaleEdit.counted_row_iff ctx (checkEdit_closed hedit) rfl]
    simp [hs]
  · intro db db' rs hI hC h
    refine (service cat).run_inv_of_meets (I := fun x => ClosedKept db x ∧ CashReconciled x)
      ?_ ⟨.refl db, hI⟩ hC h
    intro x r x' hx hr hstep
    obtain ⟨hkept, hrec⟩ := exec_reconciled hr (service_step.1 hstep)
    exact ⟨hx.1.trans hkept, hrec hx.2⟩

/-- A haircut of forty, paid in cash between the opening and the close. -/
def paidHaircut : List Request :=
  [.openCashSession (owner 0) 100, .createSale (owner 1) (haircutSale none 40),
    .closeCashSession (owner 2) 140]

/-- An edit that sends a subtotal and a total only. -/
def retotal (amount : ℚ) : SalePatch :=
  { SalePatch.none with subtotal := some amount, total := some amount }

theorem paidHaircut_reconciled : ∃ (db db' : Db) (s : Sale),
    (service oneProduct).run .empty paidHaircut = some db ∧
    updateSale oneProduct (owner 3) 1 (retotal 40) (fun _ => db) db = .ok db' ∧
    (db'.sales.get? 1).map Sale.counted = some s.counted ∧ CashReconciled db' := by
  have hrun : (((service oneProduct).run .empty paidHaircut).any fun db =>
      decide ((service oneProduct).Meets (fun db r => r.KeepsClosed db) .empty
        (paidHaircut ++ [.updateSale (owner 3) 1 (retotal 40)])) &&
        ((db.sales.get? 1).any fun s => db.cashClosed s && decide ((retotal 40).KeepsTotal s)) &&
        ((service oneProduct).step db (.updateSale (owner 3) 1 (retotal 40))).isSome) = true := by
    decide +kernel
  obtain ⟨db, hdb, hedit⟩ := (Option.any_eq_true _ _).1 hrun
  simp only [Bool.and_eq_true, Option.any_eq_true, decide_eq_true_eq, Option.isSome_iff_exists]
    at hedit
  obtain ⟨⟨hmeets, s, hs, hclosed, hkeeps⟩, db', hstep⟩ := hedit
  have hrun' : (service oneProduct).run .empty
      (paidHaircut ++ [.updateSale (owner 3) 1 (retotal 40)]) = some db' :=
    (service oneProduct).run_append.2
      ⟨db, hdb, (service oneProduct).run_cons.2 ⟨db', hstep, rfl⟩⟩
  have hupdate : updateSale oneProduct (owner 3) 1 (retotal 40) (fun _ => db) db = .ok db' :=
    service_step.1 hstep
  exact ⟨db, db', s, hdb, hupdate,
    ((closedSessions_reconciled oneProduct).1 _ _ _ db db' s hs hclosed hupdate).2 hkeeps,
    ((closedSessions_reconciled oneProduct).2 _ db' _ reconciled_empty hmeets hrun').2⟩

/-- A pending no-show fee of fifty. -/
def pendingFee : Db :=
  { oneCustomer 0 with noShowFees := Table.empty.insert {
      barbershopId := 1, customerId := 1, amount := 50, status := .pending, collectedAt := none,
      saleId := none } }

/-- The fee is collected in cash between the opening and the close. -/
def feeCollected : List Request :=
  [.openCashSession (owner 0) 100, .markNoShowFeeCollected (owner 1) 1 (some .cash),
    .closeCashSession (owner 2) 150]

/-- The sale of a fee has no items, so an edit may send a total of zero: the closed session stores
150, and its drawer gives 100. -/
theorem closedFee_retotalled : ∃ (db db' : Db) (s : Sale),
    (service oneProduct).run pendingFee feeCollected = some db ∧
    updateSale oneProduct (owner 3) 1 (retotal 0) (fun _ => db) db = .ok db' ∧
    db.sales.get? 1 = some s ∧ db.cashClosed s = true ∧
    (db'.sales.get? 1).map Sale.counted ≠ some s.counted ∧
    ∃ c, db'.cashSessions.get? 1 = some c ∧ c.status = .closed ∧ c.expectedBalance = some 150 ∧
      (db.cashSums 1).expected c.openingBalance = 150 ∧
      (db'.cashSums 1).expected c.openingBalance = 100 := by
  have hrun : (((service oneProduct).run pendingFee feeCollected).any fun db =>
      ((service oneProduct).step db (.updateSale (owner 3) 1 (retotal 0))).any fun db' =>
        ((db.sales.get? 1).any fun s => db.cashClosed s &&
          decide ((db'.sales.get? 1).map Sale.counted ≠ some s.counted)) &&
        ((db'.cashSessions.get? 1).any fun c => decide (c.status = .closed ∧
          c.expectedBalance = some 150 ∧ (db.cashSums 1).expected c.openingBalance = 150 ∧
          (db'.cashSums 1).expected c.openingBalance = 100))) = true := by
    decide +kernel
  obtain ⟨db, hdb, hedit⟩ := (Option.any_eq_true _ _).1 hrun
  simp only [Bool.and_eq_true, Option.any_eq_true, decide_eq_true_eq] at hedit
  obtain ⟨db', hstep, ⟨s, hs, hclosed, hcounted⟩, c, hc, hsession⟩ := hedit
  exact ⟨db, db', s, hdb, service_step.1 hstep, hs, hclosed, hcounted, c, hc, hsession⟩

end Barbershop
