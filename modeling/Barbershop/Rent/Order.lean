import Barbershop.Rent.Payment

/-!
# The order of invoice events

Events of the invoices of one subscription, delivered one after the other. What is left of them goes
by the deliveries that brought news: the first event of an invoice and its first paid one. Each of
them writes the link from its own invoice, so the link is what the last news made of it, while the
row of an invoice is the same in every order.
-/

namespace Barbershop

open Lib

structure RentDelivery where
  invoice : RentInvoice
  paid : Bool
  now : ℤ

/-- Deliveries, the latest first, of invoices that have one content each. -/
def RentInvoice.Fixed (history : List RentDelivery) : Prop :=
  ∀ d ∈ history, ∀ e ∈ history, d.invoice.id = e.invoice.id → d.invoice = e.invoice

instance (history : List RentDelivery) : Decidable (RentInvoice.Fixed history) :=
  inferInstanceAs (Decidable (∀ d ∈ history, ∀ e ∈ history, _))

namespace RentDelivery

/-- The state after a history, from `s`. -/
def deliver (s : RentDb) : List RentDelivery → RentDb
  | [] => s
  | d :: before => (deliver s before).handleInvoice d.invoice d.paid d.now

/-- Some event of an invoice was delivered. -/
def seen (history : List RentDelivery) (id : ℕ) : Bool := history.any fun d => d.invoice.id == id

def paidIn (history : List RentDelivery) (id : ℕ) : Bool :=
  history.any fun d => d.invoice.id == id && d.paid

/-- The first event of an invoice, or its first paid one. -/
def isNews (before : List RentDelivery) (d : RentDelivery) : Bool :=
  if d.paid then !paidIn before d.invoice.id else !seen before d.invoice.id

/-- The deliveries that brought news, the latest first. -/
def news : List RentDelivery → List RentDelivery
  | [] => []
  | d :: before => if isNews before d then d :: news before else news before

/-- The end of the period that a delivery says is paid. -/
def paidEnd (d : RentDelivery) : Option ℤ := if d.paid then d.invoice.periodEnd else none

/-- What the row of an invoice has to say after a history. -/
def expected (history : List RentDelivery) (link : RentLink) (id : ℕ) :
    Option (RentPaymentStatus × ℚ) :=
  (history.find? fun d => d.invoice.id == id).map fun d =>
    (if paidIn history id then .succeeded else .failed, d.invoice.amountFor (paidIn history id) link)

/-- A delivery of an invoice than which none is newer. -/
def Newest (history : List RentDelivery) (d : RentDelivery) : Prop :=
  ∀ e ∈ history, e.invoice.created ≤ d.invoice.created

instance (history : List RentDelivery) (d : RentDelivery) : Decidable (Newest history d) :=
  inferInstanceAs (Decidable (∀ e ∈ history, _))

/-- The last payment that was announced, of those announced for the first time, is of the latest
period; and the last news is a payment just when the newest invoice is paid. -/
structure InOrder (history : List RentDelivery) : Prop where
  ends : ∀ latest ∈ ((news history).filterMap paidEnd).head?, ∀ d ∈ history, ∀ e ∈ paidEnd d,
    e ≤ latest
  status : ∀ d ∈ history, Newest history d → ∀ n ∈ (news history).head?, n.paid = paidIn history d.invoice.id

end RentDelivery

namespace RentDb

/-- The status and the amount of an invoice's row. -/
def invoiceRow (s : RentDb) (id : ℕ) : Option (RentPaymentStatus × ℚ) :=
  (s.invoicePayment id).map fun r => (r.2.status, r.2.amount)

/-- No invoice of the subscription has been announced. -/
structure NoInvoice (s : RentDb) : Prop where
  paidUntil : s.link.rentPaidUntil = none
  payments : ∀ id, s.invoicePayment id = none

/-- What the invoices of a history have to leave, whatever the order. -/
structure Settled (history : List RentDelivery) (s : RentDb) : Prop where
  rows : ∀ id, s.invoiceRow id = RentDelivery.expected history s.link id
  paidUntil : s.link.rentPaidUntil = (history.filterMap RentDelivery.paidEnd).max?
  status : ∀ d ∈ history, RentDelivery.Newest history d →
    (s.link.rentStatus = .pastDue ↔ RentDelivery.paidIn history d.invoice.id = false)

/-! ## One delivery -/

variable {s s' : RentDb} {i : RentInvoice} {paid : Bool} {now : ℤ}

theorem invoiceRow_linkExpense (k e id : ℕ) :
    (s.linkExpense k e).invoiceRow id = s.invoiceRow id := by
  unfold invoiceRow invoicePayment linkExpense Table.modify
  rw [Table.find?_modifyAll]
  · rw [Option.map_map]
    refine congrArg (fun f => Option.map f _) (funext fun r => ?_)
    by_cases hk : r.1 = k <;> simp [hk]
  · intro j p
    by_cases hj : j = k <;> simp [hj]

theorem createMemberExpense_frame {amount : ℚ} {method : PaymentMethod} {r : ℕ × RentDb}
    (h : s.createMemberExpense amount method = some r) :
    r.2.payments = s.payments ∧ r.2.link = s.link := by
  obtain ⟨-, heq⟩ := Option.ite_none_left_eq_some.1 h
  obtain rfl := Option.some.inj heq
  exact ⟨rfl, rfl⟩

/-- The expense that follows leaves the rows of invoices and the link alone. -/
theorem handleInvoice_eq (s : RentDb) (i : RentInvoice) (paid : Bool) (now : ℤ) :
    ((s.handleInvoice i paid now).link = ((s.recordInvoice i paid now).elim s (·.2)).link) ∧
      ∀ id, (s.handleInvoice i paid now).invoiceRow id =
        ((s.recordInvoice i paid now).elim s (·.2)).invoiceRow id := by
  unfold handleInvoice
  cases s.recordInvoice i paid now with
  | none => exact ⟨rfl, fun _ => rfl⟩
  | some r =>
    obtain ⟨k, s₁⟩ := r
    dsimp only [Option.elim_some]
    cases paid with
    | false => exact ⟨rfl, fun _ => rfl⟩
    | true =>
      rw [if_pos rfl]
      cases hcreate : s₁.createMemberExpense (i.amountFor true s₁.link) .card with
      | none => exact ⟨rfl, fun _ => rfl⟩
      | some r =>
        obtain ⟨hpayments, hlink⟩ := createMemberExpense_frame hcreate
        refine ⟨hlink, fun id => ?_⟩
        rw [Option.elim_some, invoiceRow_linkExpense]
        simp only [invoiceRow, invoicePayment, hpayments]

theorem invoicePayment_some {id : ℕ} {r : ℕ × RentPayment} (h : s.invoicePayment id = some r) :
    r.2.stripeInvoiceId = some id := by
  have hfind := (Table.find?_some (k := r.1) (a := r.2) h).2
  exact beq_iff_eq.1 hfind

/-- An event that brings no news writes nothing. -/
theorem recordInvoice_none (h : s.recordInvoice i paid now = none) :
    ∃ status amount, s.invoiceRow i.id = some (status, amount) ∧
      (status = .succeeded ∨ paid = false) := by
  unfold recordInvoice at h
  cases hfind : s.invoicePayment i.id with
  | none => simp [hfind] at h
  | some r =>
    simp only [hfind] at h
    split at h
    · next hstale => exact ⟨r.2.status, r.2.amount, by simp [invoiceRow, hfind], hstale⟩
    · cases h

/-- One that does writes the row of its own invoice, and the link. -/
theorem recordInvoice_some {k : ℕ} (h : s.recordInvoice i paid now = some (k, s')) :
    (∀ status amount, s.invoiceRow i.id = some (status, amount) →
      status ≠ .succeeded ∧ paid = true) ∧
    s'.link = i.linkAfter paid s.link ∧
    ∀ id, s'.invoiceRow id = if id = i.id then
      some (if paid then .succeeded else .failed, i.amountFor paid s.link) else s.invoiceRow id := by
  unfold recordInvoice at h
  cases hfind : s.invoicePayment i.id with
  | none =>
    simp only [hfind, Option.some.injEq, Prod.mk.injEq] at h
    obtain ⟨rfl, rfl⟩ := h
    refine ⟨by simp [invoiceRow, hfind], rfl, fun id => ?_⟩
    simp only [invoiceRow, invoicePayment, Table.find?_insert, RentInvoice.payment]
    by_cases hid : id = i.id
    · subst hid
      have hnone : s.payments.find? (fun _ p => p.stripeInvoiceId == some i.id) = none := hfind
      simp [hnone]
    · simp [hid, Ne.symm hid]
  | some r =>
    simp only [hfind] at h
    split at h
    · cases h
    · next hnews =>
      obtain ⟨rfl, rfl⟩ := Prod.mk.inj (Option.some.inj h)
      rw [not_or, Bool.not_eq_false] at hnews
      refine ⟨fun status amount hrow => ?_, rfl, fun id => ?_⟩
      · simp only [invoiceRow, hfind, Option.map_some, Option.some.injEq, Prod.mk.injEq] at hrow
        exact ⟨hrow.1 ▸ hnews.1, hnews.2⟩
      · have hmap : (s.payments.modify r.1 (i.update paid s.link now)).find?
            (fun _ p => p.stripeInvoiceId == some id) = (s.invoicePayment id).map fun q =>
              (q.1, if q.1 = r.1 then i.update paid s.link now q.2 else q.2) := by
          refine Table.find?_modifyAll _ fun j p => ?_
          by_cases hj : j = r.1 <;> simp [hj, RentInvoice.update]
        rw [invoiceRow, invoicePayment, hmap]
        by_cases hid : id = i.id
        · subst hid
          simp [hfind, RentInvoice.update]
        · rw [if_neg hid, Option.map_map, invoiceRow]
          cases hother : s.invoicePayment id with
          | none => rfl
          | some q =>
            have hne : q.1 ≠ r.1 := by
              intro heq
              have hq := (Table.find?_some (k := q.1) (a := q.2) hother).1
              have hr := (Table.find?_some (k := r.1) (a := r.2) hfind).1
              rw [heq, hr] at hq
              have hsame := invoicePayment_some hother
              rw [← Option.some.inj hq, invoicePayment_some hfind] at hsame
              exact hid (Option.some.inj hsame).symm
            simp only [Option.map_some, Function.comp_apply, hne, if_false]

end RentDb

/-! ## A whole history -/

namespace RentDelivery

variable {history before : List RentDelivery} {d : RentDelivery} {s₀ s : RentDb}

theorem amountFor_congr {i : RentInvoice} {paid : Bool} {link link' : RentLink}
    (h : link'.rentCurrency = link.rentCurrency) : i.amountFor paid link' = i.amountFor paid link := by
  unfold RentInvoice.amountFor RentInvoice.currencyFor
  rw [h]

theorem seen_of_paidIn {id : ℕ} (h : paidIn history id = true) : seen history id = true := by
  obtain ⟨e, he, hpaid⟩ := List.any_eq_true.1 h
  exact List.any_eq_true.2 ⟨e, he, (Bool.and_eq_true _ _ ▸ hpaid).1⟩

theorem expected_isSome (link : RentLink) {id : ℕ} :
    (expected history link id).isSome = seen history id := by
  unfold expected seen
  rw [Option.isSome_map, Bool.eq_iff_iff, List.find?_isSome, List.any_eq_true]

/-- The row says that the invoice is paid just when it is. -/
theorem paidIn_of_expected {link : RentLink} {id : ℕ} {status : RentPaymentStatus} {amount : ℚ}
    (h : expected history link id = some (status, amount)) :
    status = .succeeded ↔ paidIn history id = true := by
  obtain ⟨e, -, heq⟩ := Option.map_eq_some_iff.1 h
  rw [← (Prod.mk.inj heq).1]
  split <;> simp [*]

theorem expected_cons_of_ne {link : RentLink} {id : ℕ} (h : d.invoice.id ≠ id) :
    expected (d :: before) link id = expected before link id := by
  have hne : (d.invoice.id == id) = false := beq_false_of_ne h
  simp [expected, paidIn, hne]

theorem expected_cons_self {link : RentLink} :
    expected (d :: before) link d.invoice.id =
      some (if d.paid || paidIn before d.invoice.id then .succeeded else .failed,
        d.invoice.amountFor (d.paid || paidIn before d.invoice.id) link) := by
  simp [expected, paidIn]

/-- A delivery that brings no news is expected to change nothing. -/
theorem expected_cons_stale {link : RentLink} (hfixed : RentInvoice.Fixed (d :: before))
    (hnews : isNews before d = false) (id : ℕ) :
    expected (d :: before) link id = expected before link id := by
  by_cases hid : d.invoice.id = id
  · subst hid
    have hseen : seen before d.invoice.id = true := by
      unfold isNews at hnews
      split at hnews
      · exact seen_of_paidIn (by simpa using hnews)
      · simpa using hnews
    have hpaid : (d.paid || paidIn before d.invoice.id) = paidIn before d.invoice.id := by
      unfold isNews at hnews
      split at hnews
      · next hd =>
        rw [Bool.not_eq_false'] at hnews
        rw [hnews, Bool.or_true]
      · next hd => simp [hd]
    rw [expected_cons_self, hpaid]
    obtain ⟨e, hfind⟩ := Option.isSome_iff_exists.1 (expected_isSome link ▸ hseen)
    obtain ⟨f, hf, heq⟩ := Option.map_eq_some_iff.1 hfind
    have hmem := List.mem_of_find?_eq_some hf
    have hid : (f.invoice.id == d.invoice.id) = true :=
      List.find?_some (p := fun e : RentDelivery => e.invoice.id == d.invoice.id) hf
    have hsame : f.invoice = d.invoice :=
      hfixed f (List.mem_cons_of_mem _ hmem) d List.mem_cons_self (beq_iff_eq.1 hid)
    rw [expected, hf, Option.map_some, hsame]
  · exact expected_cons_of_ne hid

theorem expected_cons_news {link : RentLink} (hnews : isNews before d = true) (id : ℕ) :
    expected (d :: before) link id = if id = d.invoice.id then
      some (if d.paid then .succeeded else .failed, d.invoice.amountFor d.paid link)
      else expected before link id := by
  by_cases hid : id = d.invoice.id
  · subst hid
    have hpaid : (d.paid || paidIn before d.invoice.id) = d.paid := by
      cases hd : d.paid with
      | true => rfl
      | false =>
        have hunseen : seen before d.invoice.id = false := by simpa [isNews, hd] using hnews
        cases hin : paidIn before d.invoice.id with
        | false => rfl
        | true => rw [seen_of_paidIn hin] at hunseen; cases hunseen
    rw [expected_cons_self, hpaid, if_pos rfl]
  · rw [if_neg hid, expected_cons_of_ne (Ne.symm hid)]

/-- What a history leaves. -/
structure Leaves (s₀ : RentDb) (history : List RentDelivery) (s : RentDb) : Prop where
  rows : ∀ id, s.invoiceRow id = expected history s₀.link id
  currency : s.link.rentCurrency = s₀.link.rentCurrency
  paidUntil : s.link.rentPaidUntil =
    ((news history).filterMap paidEnd).head?.or s₀.link.rentPaidUntil
  status : s.link.rentStatus = (news history).head?.elim s₀.link.rentStatus fun n =>
    if n.paid then .active else .pastDue

theorem Leaves.handle (h : Leaves s₀ before s) (hfixed : RentInvoice.Fixed (d :: before)) :
    Leaves s₀ (d :: before) (s.handleInvoice d.invoice d.paid d.now) := by
  obtain ⟨hlink, hrows⟩ := s.handleInvoice_eq d.invoice d.paid d.now
  cases hrecord : s.recordInvoice d.invoice d.paid d.now with
  | none =>
    rw [hrecord, Option.elim_none] at hlink
    simp only [hrecord, Option.elim_none] at hrows
    have hstale : isNews before d = false := by
      obtain ⟨status, amount, hrow, hwhy⟩ := RentDb.recordInvoice_none hrecord
      rw [h.rows] at hrow
      have hseen : seen before d.invoice.id = true := by
        rw [← expected_isSome s₀.link, hrow]
        rfl
      unfold isNews
      rcases hwhy with hsucceeded | hunpaid
      · rw [(paidIn_of_expected hrow).1 hsucceeded, hseen]
        simp
      · simp [hunpaid, hseen]
    exact {
      rows := fun id => by rw [hrows, h.rows, expected_cons_stale hfixed hstale]
      currency := hlink ▸ h.currency
      paidUntil := by rw [hlink, h.paidUntil, news, hstale]; rfl
      status := by rw [hlink, h.status, news, hstale]; rfl }
  | some r =>
    obtain ⟨k, s'⟩ := r
    obtain ⟨hfirst, hlink', hrows'⟩ := RentDb.recordInvoice_some hrecord
    rw [hrecord, Option.elim_some] at hlink
    simp only [hrecord, Option.elim_some] at hrows
    have hnews : isNews before d = true := by
      cases hrow : s.invoiceRow d.invoice.id with
      | none =>
        have hunseen : seen before d.invoice.id = false := by
          rw [← expected_isSome s₀.link, ← h.rows, hrow]
          rfl
        have hunpaid : paidIn before d.invoice.id = false := by
          cases hin : paidIn before d.invoice.id with
          | false => rfl
          | true => rw [seen_of_paidIn hin] at hunseen; cases hunseen
        simp [isNews, hunseen, hunpaid]
      | some row =>
        obtain ⟨hstatus, hpaid⟩ := hfirst row.1 row.2 hrow
        rw [h.rows] at hrow
        have hunpaid : ¬ paidIn before d.invoice.id = true :=
          fun hin => hstatus ((paidIn_of_expected hrow).2 hin)
        simpa [isNews, hpaid] using hunpaid
    have hend : ((d.invoice.linkAfter d.paid s.link).rentPaidUntil) =
        (paidEnd d).or s.link.rentPaidUntil := by
      unfold RentInvoice.linkAfter paidEnd
      cases d.paid with
      | false => rfl
      | true => cases d.invoice.periodEnd <;> rfl
    refine {
      rows := fun id => ?_
      currency := ?_
      paidUntil := ?_
      status := ?_ }
    · rw [hrows, hrows', expected_cons_news hnews, h.rows, amountFor_congr h.currency]
    · rw [hlink, hlink', ← h.currency]
      unfold RentInvoice.linkAfter
      split <;> rfl
    · rw [hlink, hlink', hend, h.paidUntil, news, hnews, if_pos rfl, List.filterMap_cons]
      cases paidEnd d <;> rfl
    · rw [hlink, hlink', news, hnews, if_pos rfl, List.head?_cons, Option.elim_some]
      unfold RentInvoice.linkAfter
      split <;> rfl

theorem leaves_deliver (h₀ : s₀.NoInvoice) :
    ∀ {history : List RentDelivery}, RentInvoice.Fixed history →
      Leaves s₀ history (deliver s₀ history)
  | [], _ => {
      rows := fun id => by rw [deliver, RentDb.invoiceRow, h₀.payments]; rfl
      currency := rfl
      paidUntil := rfl
      status := rfl }
  | _ :: _, hfixed => (leaves_deliver h₀ fun e he f hf =>
      hfixed e (List.mem_cons_of_mem _ he) f (List.mem_cons_of_mem _ hf)).handle hfixed

/-- The periods that are paid are those of the payments that brought news. -/
theorem mem_paidEnds (hfixed : RentInvoice.Fixed history) {e : ℤ} :
    e ∈ (news history).filterMap paidEnd ↔ e ∈ history.filterMap paidEnd := by
  induction history with
  | nil => rfl
  | cons d before ih =>
    have hbefore := ih fun a ha b hb =>
      hfixed a (List.mem_cons_of_mem _ ha) b (List.mem_cons_of_mem _ hb)
    rw [news]
    split
    · simp only [List.filterMap_cons]
      cases paidEnd d with
      | none => exact hbefore
      | some end' => simp only [List.mem_cons, hbefore]
    · next hstale =>
      rw [hbefore, List.mem_filterMap, List.mem_filterMap]
      constructor
      · rintro ⟨a, ha, hend⟩
        exact ⟨a, List.mem_cons_of_mem _ ha, hend⟩
      · rintro ⟨a, ha, hend⟩
        rcases List.mem_cons.1 ha with rfl | ha
        · -- a payment without news repeats an earlier one of the same invoice
          unfold paidEnd at hend
          split at hend
          · next hpaid =>
            have hin : paidIn before a.invoice.id = true := by
              simpa [isNews, hpaid] using hstale
            obtain ⟨b, hb, heq⟩ := List.any_eq_true.1 hin
            rw [Bool.and_eq_true, beq_iff_eq] at heq
            have hsame := hfixed b (List.mem_cons_of_mem _ hb) a List.mem_cons_self heq.1
            exact ⟨b, hb, by rw [paidEnd, if_pos heq.2, hsame, hend]⟩
          · cases hend
        · exact ⟨a, ha, hend⟩

theorem news_ne_nil (h : history ≠ []) : news history ≠ [] := by
  induction history with
  | nil => exact absurd rfl h
  | cons d before ih =>
    rw [news]
    cases before with
    | nil => cases hd : d.paid <;> simp [isNews, paidIn, seen, hd]
    | cons e rest =>
      split
      · exact List.cons_ne_nil _ _
      · exact ih (List.cons_ne_nil _ _)

/-- Whatever is delivered: the rows of the invoices, the day that is paid and the state of the rent
are those of the invoices, whatever their order, if and only if the history is in order. -/
theorem rent_settled_iff (h₀ : s₀.NoInvoice) (hfixed : RentInvoice.Fixed history) :
    RentDb.Settled history (deliver s₀ history) ↔ InOrder history := by
  have hleaves := leaves_deliver h₀ hfixed
  generalize deliver s₀ history = s at hleaves ⊢
  have hpaidUntil : s.link.rentPaidUntil = ((news history).filterMap paidEnd).head? := by
    rw [hleaves.paidUntil, h₀.paidUntil, Option.or_none]
  have hstatus : ∀ n ∈ (news history).head?, (s.link.rentStatus = .pastDue ↔ n.paid = false) := by
    intro n hn
    rw [hleaves.status, Option.mem_def.1 hn, Option.elim_some]
    cases n.paid <;> simp
  constructor
  · intro h
    refine ⟨fun latest hlatest d hd e he => ?_, fun d hmem hd n hn => ?_⟩
    · have hmax := h.paidUntil
      rw [hpaidUntil, Option.mem_def.1 hlatest] at hmax
      exact (List.max?_eq_some_iff.1 hmax.symm).2 e (List.mem_filterMap.2 ⟨d, hd, he⟩)
    · have hiff := (hstatus n hn).symm.trans (h.status d hmem hd)
      cases hp : n.paid with
      | false => exact (hiff.1 hp).symm
      | true =>
        cases hin : paidIn history d.invoice.id with
        | true => rfl
        | false => rw [hiff.2 hin] at hp; cases hp
  · intro h
    refine {
      rows := fun id => ?_
      paidUntil := ?_
      status := fun d hmem hd => ?_ }
    · rw [hleaves.rows]
      unfold expected
      refine congrArg (fun f => Option.map f _) (funext fun d => ?_)
      rw [amountFor_congr hleaves.currency]
    · rw [hpaidUntil]
      cases hhead : ((news history).filterMap paidEnd).head? with
      | none =>
        have hnone : history.filterMap paidEnd = [] := by
          rw [List.eq_nil_iff_forall_not_mem]
          intro e he
          rw [← mem_paidEnds hfixed, List.head?_eq_none_iff.1 hhead] at he
          cases he
        rw [hnone]
        rfl
      | some latest =>
        refine (List.max?_eq_some_iff.2 ⟨?_, fun e he => ?_⟩).symm
        · exact (mem_paidEnds hfixed).1 (List.mem_of_mem_head? hhead)
        · obtain ⟨d, hd, hend⟩ := List.mem_filterMap.1 he
          exact h.ends latest hhead d hd e hend
    · obtain ⟨n, hn⟩ := Option.isSome_iff_exists.1
        (List.isSome_head?.2 (news_ne_nil (List.ne_nil_of_mem hmem)))
      rw [hstatus n hn, h.status d hmem hd n hn]

end RentDelivery

/-! ## Two months -/

/-- A link whose first invoices are on their way. -/
def rentedChair : RentDb where
  link := {
    hostBarbershopId := 1
    memberBarbershopId := 2
    memberOwnerUserId := some 7
    rentPayerUserId := some 7
    rentCurrency := some "BRL"
    rentStatus := .incomplete
    rentPaidUntil := none }
  payments := .empty
  expenses := .empty
  cashSessions := .empty

theorem rentedChair_noInvoice : rentedChair.NoInvoice where
  paidUntil := rfl
  payments _ := rfl

/-- The rent of a month, 500. -/
def rentOf (month : ℕ) : RentInvoice where
  id := month
  created := month * 100
  currency := "brl"
  amountPaid := 50000
  amountDue := 50000
  periodStart := some (month * 100)
  periodEnd := some (month * 100 + 100)

/-- The first month fails and is then paid, twice announced; the second is paid. -/
def monthsInOrder : List RentDelivery :=
  [⟨rentOf 2, true, 4⟩, ⟨rentOf 1, true, 3⟩, ⟨rentOf 1, true, 2⟩, ⟨rentOf 1, false, 1⟩]

/-- The payment of the first month is announced after that of the second. -/
def monthsSwapped : List RentDelivery := [⟨rentOf 1, true, 2⟩, ⟨rentOf 2, true, 1⟩]

theorem monthsInOrder_settled :
    RentDb.Settled monthsInOrder (RentDelivery.deliver rentedChair monthsInOrder) := by
  refine (RentDelivery.rent_settled_iff rentedChair_noInvoice (by decide)).2 {
    ends := ?_
    status := ?_ }
  · decide
  · decide

theorem monthsSwapped_not_settled : RentInvoice.Fixed monthsSwapped ∧
    (RentDelivery.deliver rentedChair monthsSwapped).link.rentPaidUntil = some 200 ∧
      ¬ RentDb.Settled monthsSwapped (RentDelivery.deliver rentedChair monthsSwapped) := by
  have hpaidUntil : (RentDelivery.deliver rentedChair monthsSwapped).link.rentPaidUntil =
      some 200 := by
    decide +kernel
  refine ⟨by decide, hpaidUntil, fun h => ?_⟩
  have hmax := h.paidUntil
  rw [hpaidUntil] at hmax
  exact absurd hmax (by decide)

end Barbershop
