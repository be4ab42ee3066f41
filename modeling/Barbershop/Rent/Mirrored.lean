import Barbershop.Rent.Expenses
import Barbershop.Rent.Order

/-!
# Expenses mirror payments, over runs

Each step of a request keeps the books and what the other requests know.
-/

namespace Barbershop

open Lib

/-! ## The steps -/

section Steps

variable {s s' : RentDb} {now : ℤ} {m : RentWork}

/-- What a step leaves, as a move of the system. -/
def RentCall.left (x : RentDb × RentCall.Goes) : RentDb × Option RentCall := (x.1, x.2.running)

/-- A move that writes neither payments nor expenses, of a call that owes nothing. -/
theorem rent_look {c c' : Option RentCall} (h : RentBooks s (rentInv.weigh c + m))
    (hc : ∀ a ∈ c, a.owes = false) (hpayments : s'.payments = s.payments)
    (hexpenses : s'.expenses = s.expenses) (hc' : ∀ a ∈ c', a.owes = false ∧ a.Knows s) :
    rentInv.Kept s c m s' c' := by
  have hweigh : ∀ {c : Option RentCall}, (∀ a ∈ c, a.owes = false) → rentInv.weigh c = 0 := by
    intro c hc
    cases c with
    | none => rfl
    | some a => exact RentCall.work_of_not_owes (hc a rfl)
  refine {
    whole := ?_
    mine := fun a ha => (hc' a ha).2.congr hpayments hexpenses
    others := fun d hd _ => RentCall.Knows.congr hd hpayments hexpenses
    apart := fun d _ _ a ha => RentCall.apart_of_not_owes (hc' a ha).1 }
  rw [hweigh hc] at h
  rw [hweigh fun a ha => (hc' a ha).1]
  exact RentBooks.congr h hpayments hexpenses

/-- The same, where the call goes on unless a check threw. -/
theorem rent_goOn {α : Type} {c : RentCall} {x : Result α} {f : α → RentCall}
    (h : RentBooks s (rentInv.weigh (some c) + m)) (hc : c.owes = false)
    (hf : ∀ a, x = .ok a → (f a).owes = false ∧ (f a).Knows s) :
    rentInv.Kept s (some c) m s (RentCall.goOn x f).running := by
  refine rent_look h (fun a ha => Option.some.inj ha ▸ hc) rfl rfl fun a ha => ?_
  cases x with
  | error e => cases ha
  | ok b =>
    obtain rfl := Option.some.inj ha
    exact hf b rfl

theorem RentPayment.not_unspent {q : RentPayment} {e : ℕ} (he : q.memberExpenseId = some e) :
    ¬q.Unspent := by
  intro hunspent
  rw [hunspent.expense] at he
  cases he

theorem RentBooks.not_making {w : RentWork} (h : RentBooks s w) {k : ℕ} {q : RentPayment}
    (hk : s.payments.get? k = some q) (hq : ¬q.Unspent) : k ∉ w.1 := by
  intro hmem
  obtain ⟨p, hp, hunspent⟩ := h.made hmem
  obtain rfl := Option.some.inj (hk.symm.trans hp)
  exact hq hunspent

/-- A payment that is not paid has no expense and no call that works on it. -/
theorem RentBooks.untouched (h : RentBooks s m) {k : ℕ} {q : RentPayment}
    (hk : s.payments.get? k = some q) (hq : q.status ≠ .succeeded) :
    q.memberExpenseId = none ∧ q.refundedAmount = none ∧ k ∉ m.1 ∧ k ∉ m.2.1 := by
  have hmade := h.not_making hk fun hunspent => hq hunspent.succeeded
  have hlowered : k ∉ m.2.1 := by
    intro hmem
    obtain ⟨p, hp, hsucceeded, -⟩ := h.lowered hmem
    obtain rfl := Option.some.inj (hk.symm.trans hp)
    exact hq hsucceeded
  refine ⟨?_, ?_, hmade, hlowered⟩
  · have hsettled := h.settled hk hmade hlowered
    rwa [RentPayment.SettledIn, if_neg (by simp [RentPayment.hasExpense, hq])] at hsettled
  · by_contra hsome
    exact hq ((h.ok hk).refunded (Option.isSome_iff_ne_none.2 hsome)).2

/-- A payment that was not paid is paid, and its expense is yet to be made. -/
theorem RentBooks.make (h : RentBooks s m) {k : ℕ} {q : RentPayment}
    (hk : s.payments.get? k = some q) (hq : q.status ≠ .succeeded) {f : RentPayment → RentPayment}
    (hstatus : (f q).status = .succeeded) (hexpense : (f q).memberExpenseId = q.memberExpenseId)
    (hrefunded : (f q).refundedAmount = q.refundedAmount) (hok : (f q).Ok) :
    RentBooks { s with payments := s.payments.modify k f } (({k}, 0, 0) + m) ∧ (f q).Unspent := by
  obtain ⟨hnone, hno, hmade, hlowered⟩ := h.untouched hk hq
  have hunspent : (f q).Unspent := ⟨hstatus, hexpense.trans hnone, hrefunded.trans hno⟩
  refine ⟨?_, hunspent⟩
  refine h.write hk s.expenses hok ?_ ?_ ?_ ?_ ?_ ?_ ?_ ?_ ?_
  · intro hmem
    simp at hmem
  · simpa [Multiset.nodup_cons] using ⟨hmade, h.nodup⟩
  · exact fun _ => hunspent
  · intro hmem
    exact absurd (by simpa using hmem) hlowered
  · intro j hj
    simp [hj]
  · simp
  · intro e he
    rw [hunspent.expense] at he
    cases he
  · exact fun _ _ _ => rfl
  · intro e x hx hw
    exact .inr ⟨by simp [hnone], ⟨x, hx⟩, by simpa using hw⟩

theorem RentCall.Knows.makes_ne {d : RentCall} (h : d.Knows s) {k : ℕ} {q : RentPayment}
    (hk : s.payments.get? k = some q) (hq : ¬q.Unspent) : d.makes ≠ some k := by
  intro hmakes
  obtain ⟨p, hp, hfacts⟩ := h.makes hmakes
  obtain rfl := Option.some.inj (hk.symm.trans hp)
  exact hq hfacts

/-- What a call that makes no expense for a row knows of it, once the row is written. -/
theorem RentCall.row_write {d : RentCall} {k : ℕ} {P : RentPayment → Prop} {q q' : RentPayment}
    (hd : d.row = some (k, P)) (hP : P q) (hmakes : d.makes ≠ some k)
    (hdesk : q.stripeInvoiceId = none → q'.stripeInvoiceId = none ∧ q'.amount = q.amount)
    (hof : ∀ r : RentRefund, r.Of q → r.Of q')
    (hlower : ∀ r e, d = .lowering r e → r.id = k → r.Recorded e q → r.Recorded e q') : P q' := by
  cases d with
  | findingSession ctx id p method =>
    obtain ⟨rfl, rfl⟩ := Prod.mk.inj (Option.some.inj hd)
    exact ⟨(hdesk hP.1).1, (hdesk hP.1).2.trans hP.2⟩
  | recording ctx id p method cash =>
    obtain ⟨rfl, rfl⟩ := Prod.mk.inj (Option.some.inj hd)
    exact ⟨(hdesk hP.1).1, (hdesk hP.1).2.trans hP.2⟩
  | spending id amount method =>
    obtain ⟨rfl, -⟩ := Prod.mk.inj (Option.some.inj hd)
    exact absurd rfl hmakes
  | linking id e =>
    obtain ⟨rfl, -⟩ := Prod.mk.inj (Option.some.inj hd)
    exact absurd rfl hmakes
  | claiming r =>
    obtain ⟨-, rfl⟩ := Prod.mk.inj (Option.some.inj hd)
    exact hof r hP
  | lowering r e =>
    obtain ⟨hid, rfl⟩ := Prod.mk.inj (Option.some.inj hd)
    exact hlower r e rfl hid hP
  | _ => cases hd

/-- What the others know when a payment that was not paid is paid. -/
theorem RentCall.Knows.make {d : RentCall} (h : d.Knows s) {k : ℕ} {q : RentPayment}
    (hk : s.payments.get? k = some q) (hq : q.status ≠ .succeeded) {f : RentPayment → RentPayment}
    (hexpense : (f q).memberExpenseId = q.memberExpenseId)
    (hdesk : q.stripeInvoiceId = none →
      (f q).stripeInvoiceId = none ∧ (f q).amount = q.amount) :
    d.Knows { s with payments := s.payments.modify k f } ∧ d.makes ≠ some k := by
  have hmakes := h.makes_ne hk fun hunspent => hq hunspent.succeeded
  refine ⟨h.write hk s.expenses ?_ ?_ ?_ ?_ le_rfl, hmakes⟩
  · intro P hd hP
    refine RentCall.row_write hd hP hmakes hdesk ?_ ?_
    · exact fun r hof => absurd hof.succeeded hq
    · exact fun r e _ _ hrecorded => absurd hrecorded.succeeded hq
  · exact fun he => .inl (hexpense ▸ he)
  · exact fun hmk => absurd hmk hmakes
  · exact fun _ hx => hx

/-- What a call that holds no expense knows. -/
theorem RentCall.knows_of_row {c : RentCall} (hholds : c.holds = none)
    (hrow : ∀ {k P}, c.row = some (k, P) → ∃ q, s.payments.get? k = some q ∧ P q) (hmore : c.more s) :
    c.Knows s where
  row := hrow
  unlinked he := by
    rw [hholds] at he
    cases he
  below he := by
    rw [hholds] at he
    cases he
  more := hmore

theorem spending_knows {k : ℕ} {q : RentPayment} {amount : ℚ} {method : PaymentMethod}
    (hk : s.payments.get? k = some q) (hunspent : q.Unspent) (hamount : q.amount = amount) :
    RentCall.Knows s (.spending k amount method) := by
  refine RentCall.knows_of_row rfl (fun hd => ?_) trivial
  obtain ⟨rfl, rfl⟩ := Prod.mk.inj (Option.some.inj hd)
  exact ⟨q, hk, hunspent, hamount⟩

theorem spending_apart {k : ℕ} {amount : ℚ} {method : PaymentMethod} {d : RentCall}
    (h : d.makes ≠ some k) : (RentCall.spending k amount method).Apart d where
  makes _ hm := Option.some.inj hm ▸ h
  holds _ he := by cases he
  values _ _ _ _ hc := by cases hc

theorem recording_keeps {ctx : Caller} {id : ℕ} {p : RentPayment} {method : PaymentMethod}
    {cashSessionId : Option ℕ} : rentInv.Keeps s (some (.recording ctx id p method cashSessionId))
      (RentCall.left ((RentCall.recording ctx id p method cashSessionId).run now s)) := by
  intro m h hmine
  have hknows : RentCall.Knows s (.recording ctx id p method cashSessionId) := hmine _ rfl
  simp only [RentCall.left, RentCall.run]
  cases htry : s.payments.tryModify id (·.status == .due)
      (·.record method now ctx.userId cashSessionId) with
  | none => exact rent_look h (fun a ha => Option.some.inj ha ▸ rfl) rfl rfl (fun a ha => by cases ha)
  | some payments =>
    obtain ⟨q, hq, hdue, rfl⟩ := Table.tryModify_eq_some.1 htry
    rw [beq_iff_eq] at hdue
    have hnot : q.status ≠ .succeeded := by simp [hdue]
    have hbooks : RentBooks s m := by simpa [rentInv, CallInv.weigh, RentCall.work] using h
    obtain ⟨q', hq', hinvoice, hamount⟩ := hknows.row rfl
    obtain rfl := Option.some.inj (hq.symm.trans hq')
    obtain ⟨hmade, hunspent⟩ := hbooks.make hq hnot
      (f := (·.record method now ctx.userId cashSessionId)) rfl rfl rfl {
        invoice := fun hsome => by simp [RentPayment.record, hinvoice] at hsome
        refunded := fun hsome => by
          have hno := (hbooks.untouched hq hnot).2.1
          simp [RentPayment.record, hno] at hsome
        units := fun hcard => absurd hcard hknows.more }
    have hothers : ∀ d : RentCall, d.Knows s → _ := fun d hd => hd.make hq hnot
      (f := (·.record method now ctx.userId cashSessionId)) rfl fun hnone => ⟨hnone, rfl⟩
    refine {
      whole := hmade
      mine := fun a ha => ?_
      others := fun d hd _ => (hothers d hd).1
      apart := fun d hd _ a ha => ?_ }
    · obtain rfl := Option.some.inj ha
      exact spending_knows (by simp [hq]) hunspent hamount
    · obtain rfl := Option.some.inj ha
      exact spending_apart (hothers d hd).2

theorem recordPayment_keeps {ctx : Caller} {id : ℕ} {method : PaymentMethod} :
    rentInv.Keeps s (some (.recordPayment ctx id method))
      (RentCall.left ((RentCall.recordPayment ctx id method).run now s)) := by
  intro m h _
  apply rent_goOn h rfl
  intro p hp
  simp only [RentDb.payable, bind_eq_ok, exists_punit, orRefuse_eq_ok, refuseIf_eq_ok, pure_eq_ok,
    Option.filter_eq_some_iff] at hp
  obtain ⟨-, hpays, q, ⟨hq, -⟩, hdue, rfl⟩ := hp
  refine ⟨rfl, RentCall.knows_of_row rfl (fun hd => ?_) ?_⟩
  · obtain ⟨rfl, rfl⟩ := Prod.mk.inj (Option.some.inj hd)
    refine ⟨q, hq, ?_, rfl⟩
    -- the row of an invoice is never due
    by_contra hsome
    exact absurd (not_not.1 hdue) ((RentBooks.ok h hq).invoice (Option.isSome_iff_ne_none.2 hsome)).2
  · intro hcard
    rw [hcard] at hpays
    exact hpays rfl

theorem findingSession_keeps {ctx : Caller} {id : ℕ} {p : RentPayment} {method : PaymentMethod} :
    rentInv.Keeps s (some (.findingSession ctx id p method))
      (RentCall.left ((RentCall.findingSession ctx id p method).run now s)) := by
  intro m h hmine
  have hknows : RentCall.Knows s (.findingSession ctx id p method) := hmine _ rfl
  refine rent_look h (fun a ha => Option.some.inj ha ▸ rfl) rfl rfl fun a ha => ?_
  obtain rfl := Option.some.inj ha
  exact ⟨rfl, RentCall.knows_of_row rfl hknows.row hknows.more⟩

theorem spending_keeps {id : ℕ} {amount : ℚ} {method : PaymentMethod}
    (hlink : s.link.createdBy.isSome = true) : rentInv.Keeps s (some (.spending id amount method))
      (RentCall.left ((RentCall.spending id amount method).run now s)) := by
  intro m h hmine
  have hbooks : RentBooks s (({id}, 0, 0) + m) := h
  have hknows : RentCall.Knows s (.spending id amount method) := hmine _ rfl
  obtain ⟨q, hq, hunspent, rfl⟩ := hknows.row rfl
  have hnone : s.link.createdBy.isNone ≠ true := by
    rw [Option.isSome_iff_ne_none] at hlink
    simp [hlink]
  simp only [RentCall.left, RentCall.run, RentDb.createMemberExpense, if_neg hnone,
    Progress.running_next]
  refine {
    whole := ?_
    mine := fun a ha => ?_
    others := fun d hd _ => RentCall.Knows.spend hd (fun _ hx => Table.get?_insert_of_some _ hx)
      (Nat.le_succ _)
    apart := fun d hd hapart a ha => ?_ }
  · change RentBooks _ (({id}, 0, {s.expenses.next}) + m)
    apply hbooks.spend ⟨by simp, by simp⟩
    · intro j p e hj hp
      obtain ⟨x, hx⟩ := hbooks.found hj hp
      rw [hx, Table.get?_insert_of_some _ hx]
    · intro e x hx hnot
      rw [Table.get?_insert] at hx
      split at hx
      · next heq => simp [heq] at hnot
      · next heq => exact ⟨⟨x, hx⟩, by simpa [heq] using hnot⟩
  · obtain rfl := Option.some.inj ha
    refine ⟨fun hd => ?_, fun {e} he => ?_, fun {e} he => ?_, ?_⟩
    · obtain ⟨rfl, rfl⟩ := Prod.mk.inj (Option.some.inj hd)
      exact ⟨q, hq, hunspent⟩
    · obtain rfl := Option.some.inj he
      intro j p hj hp
      obtain ⟨x, hx⟩ := hbooks.found hj hp
      simp at hx
    · obtain rfl := Option.some.inj he
      exact Nat.lt_succ_self _
    · refine ⟨_, Table.get?_insert_self _ _, fun hp => ?_⟩
      rw [Option.some.inj (hq.symm.trans hp)]
  · obtain rfl := Option.some.inj ha
    have hpair : (RentCall.spending id q.amount method).Apart d := hapart _ rfl
    refine {
      makes := hpair.makes
      holds := fun e he hde => ?_
      values := fun _ _ _ _ hc => by cases hc }
    obtain rfl := Option.some.inj he
    exact lt_irrefl _ (RentCall.Knows.below hd hde)

theorem linking_keeps {id e : ℕ} : rentInv.Keeps s (some (.linking id e))
    (RentCall.left ((RentCall.linking id e).run now s)) := by
  intro m h hmine
  have hbooks : RentBooks s (({id}, 0, {e}) + m) := h
  have hknows : RentCall.Knows s (.linking id e) := hmine _ rfl
  obtain ⟨q, hq, hunspent⟩ := hknows.row rfl
  obtain ⟨x, hx, hamounts⟩ := hknows.more
  have hamount := hamounts hq
  have hnodup : id ∉ m.1 ∧ m.1.Nodup := by simpa using hbooks.nodup
  refine {
    whole := ?_
    mine := fun a ha => by cases ha
    others := fun d hd hapart => ?_
    apart := fun d _ _ a ha => by cases ha }
  · change RentBooks (s.linkExpense id e) (0 + m)
    rw [zero_add]
    apply hbooks.write hq s.expenses
    · exact ⟨(hbooks.ok hq).invoice, (hbooks.ok hq).refunded, (hbooks.ok hq).units⟩
    · intro _ _
      unfold RentPayment.SettledIn
      rw [if_pos (by simp [RentPayment.hasExpense, RentPayment.fullyRefunded, hunspent.succeeded,
        hunspent.refunded])]
      exact ⟨e, x, rfl, hx, by simp [RentPayment.left, hunspent.refunded, hamount]⟩
    · exact hnodup.2
    · exact fun hmem => absurd hmem hnodup.1
    · intro hmem
      obtain ⟨p, hp, hfacts⟩ := hbooks.lowered (by simpa using hmem)
      obtain rfl := Option.some.inj (hq.symm.trans hp)
      exact hfacts
    · intro j hj
      simp [hj]
    · simp
    · intro e' he
      obtain rfl := Option.some.inj he
      exact ⟨⟨x, hx⟩, .inr (hknows.unlinked rfl)⟩
    · exact fun _ _ _ => rfl
    · intro e' y hy hnot
      by_cases heq : e' = e
      · exact .inl (by rw [heq])
      · exact .inr ⟨by simp [hunspent.expense], ⟨y, hy⟩, by simpa [heq] using hnot⟩
  · have hpair : (RentCall.linking id e).Apart d := hapart _ rfl
    have hmakes : d.makes ≠ some id := hpair.makes id rfl
    apply RentCall.Knows.write hd hq s.expenses
    · intro P hd hP
      refine RentCall.row_write hd hP hmakes (fun hnone => ⟨hnone, rfl⟩) ?_ ?_
      · exact fun r hof => ⟨hof.card, hof.succeeded, hof.amount, hof.currency, hof.units⟩
      · intro r _ _ _ hrecorded
        obtain ⟨v, hv, -⟩ := hrecorded.risen
        rw [hunspent.refunded] at hv
        cases hv
    · intro e' he
      obtain rfl := Option.some.inj he
      exact .inr (hpair.holds _ rfl)
    · exact fun _ => rfl
    · exact fun _ hx => hx
    · exact le_rfl

/-! ### Undoing -/

theorem undoPayment_keeps {ctx : Caller} {id : ℕ} : rentInv.Keeps s (some (.undoPayment ctx id))
    (RentCall.left ((RentCall.undoPayment ctx id).run now s)) := by
  intro m h _
  apply rent_goOn h rfl
  intro p hp
  simp only [RentDb.undoable, bind_eq_ok, exists_punit, orRefuse_eq_ok, refuseIf_eq_ok, pure_eq_ok,
    not_or] at hp
  obtain ⟨-, q, -, ⟨-, hcard, -⟩, rfl⟩ := hp
  exact ⟨rfl, RentCall.knows_of_row rfl (fun hd => by cases hd) hcard⟩

theorem checkingCash_keeps {id : ℕ} {p : RentPayment} : rentInv.Keeps s (some (.checkingCash id p))
    (RentCall.left ((RentCall.checkingCash id p).run now s)) := by
  intro m h hmine
  have hknows : RentCall.Knows s (.checkingCash id p) := hmine _ rfl
  apply rent_goOn h rfl
  intro _ _
  exact ⟨rfl, RentCall.knows_of_row rfl (fun hd => by cases hd) hknows.more⟩

theorem undoing_keeps {id : ℕ} {p : RentPayment} (hp : s.payments.get? id = some p)
    (hlinked : p.memberExpenseId.isSome = true) : rentInv.Keeps s (some (.undoing id p))
      (RentCall.left ((RentCall.undoing id p).run now s)) := by
  intro m h hmine
  have hbooks : RentBooks s (0 + m) := h
  have hknows : RentCall.Knows s (.undoing id p) := hmine _ rfl
  have hcard : p.method ≠ .card := hknows.more
  rw [zero_add] at hbooks
  obtain ⟨e, he⟩ := Option.isSome_iff_exists.1 hlinked
  have hspent := RentPayment.not_unspent he
  have hmade := hbooks.not_making hp hspent
  have hlowered : id ∉ m.2.1 := by
    intro hmem
    obtain ⟨q, hq, -, hq'⟩ := hbooks.lowered hmem
    obtain rfl := Option.some.inj (hp.symm.trans hq)
    exact hcard hq'
  have hkept : ∀ {j q e'}, j ≠ id → s.payments.get? j = some q → q.memberExpenseId = some e' →
      e' ≠ e := by
    rintro j q _ hj hq hq' rfl
    exact hj (hbooks.distinct hq hp hq' he)
  have hstate : s.undo id p = { s with
      expenses := s.expenses.erase e
      payments := s.payments.modify id RentPayment.reopen } := by
    simp [RentDb.undo, he]
  simp only [RentCall.left, RentCall.run, hstate, Progress.running_done]
  refine {
    whole := ?_
    mine := fun a ha => by cases ha
    others := fun d hd _ => ?_
    apart := fun d _ _ a ha => by cases ha }
  · change RentBooks _ (0 + m)
    rw [zero_add]
    apply hbooks.write hp (s.expenses.erase e)
    · exact {
        invoice := fun hsome => absurd ((hbooks.ok hp).invoice hsome).1 hcard
        refunded := fun hsome => absurd ((hbooks.ok hp).refunded hsome).1 hcard
        units := fun hother => by cases hother }
    · intro _ _
      unfold RentPayment.SettledIn
      rw [if_neg (by simp [RentPayment.hasExpense, RentPayment.reopen])]
      rfl
    · exact hbooks.nodup
    · exact fun hmem => absurd hmem hmade
    · exact fun hmem => absurd hmem hlowered
    · exact fun _ _ => Iff.rfl
    · exact fun _ _ => Iff.rfl
    · exact fun e' he' => by cases he'
    · intro j q e' hj hq hq'
      rw [Table.get?_erase, if_neg (hkept hj hq hq')]
    · intro e' x hx hnot
      rw [Table.get?_erase] at hx
      split at hx
      · cases hx
      · next hne =>
        refine .inr ⟨?_, ⟨x, hx⟩, hnot⟩
        rw [he]
        exact fun heq => hne (Option.some.inj heq).symm
  · apply RentCall.Knows.write hd hp (s.expenses.erase e)
    · intro P hrow hP
      refine RentCall.row_write hrow hP (RentCall.Knows.makes_ne hd hp hspent)
        (fun hnone => ⟨hnone, rfl⟩) ?_ ?_
      · exact fun r hof => absurd hof.card hcard
      · exact fun r _ _ _ hrecorded => absurd hrecorded.card hcard
    · exact fun he' => by cases he'
    · exact fun _ => rfl
    · intro e' x hholds hx
      rw [Table.get?_erase, if_neg, hx]
      rintro rfl
      exact RentCall.Knows.unlinked hd hholds hp he
    · exact le_rfl

/-! ### Invoices -/

/-- A paid invoice whose row is there, and is not paid. -/
theorem RentBooks.invoicePaid (h : RentBooks s m) (now : ℤ) {i : RentInvoice} {id : ℕ} {q : RentPayment}
    (hrow : s.invoicePayment i.id = some (id, q)) (hq : q.status ≠ .succeeded)
    (hcurrency : q.currency = i.currencyFor s.link) :
    RentBooks { s with
        payments := s.payments.modify id (i.update true s.link now)
        link := i.linkAfter true s.link } (({id}, 0, 0) + m) ∧
      (i.update true s.link now q).Unspent := by
  obtain ⟨hid, hinvoice⟩ := Table.find?_some hrow
  rw [beq_iff_eq] at hinvoice
  have hok := h.ok hid
  have hcard := (hok.invoice (by rw [hinvoice]; rfl)).1
  obtain ⟨hmade, hunspent⟩ := h.make hid hq (f := i.update true s.link now) rfl rfl rfl {
    invoice := fun _ => ⟨hcard, fun hdue => by cases hdue⟩
    refunded := fun hsome => ⟨(hok.refunded hsome).1, rfl⟩
    units := fun _ => by
      change IsMinor q.currency (i.amountFor true s.link)
      rw [hcurrency]
      exact isMinor_fromMinorUnits _ _ }
  exact ⟨hmade.congr rfl rfl, hunspent⟩

/-- A new row of an invoice. -/
theorem RentInvoice.payment_ok (i : RentInvoice) (paid : Bool) (link : RentLink) :
    (i.payment paid link now).Ok where
  invoice _ := ⟨rfl, by cases paid <;> exact fun hdue => by cases hdue⟩
  refunded hsome := by cases hsome
  units _ := isMinor_fromMinorUnits _ _

theorem handleInvoice_keeps {i : RentInvoice} {paid : Bool}
    (hcurrency : ∀ r ∈ s.invoicePayment i.id, r.2.currency = i.currencyFor s.link) :
    rentInv.Keeps s (some (.handleInvoice i paid))
      (RentCall.left ((RentCall.handleInvoice i paid).run now s)) := by
  intro m h _
  have hbooks : RentBooks s (0 + m) := h
  rw [zero_add] at hbooks
  simp only [RentCall.left, RentCall.run, RentDb.recordInvoice]
  cases hrow : s.invoicePayment i.id with
  | some r =>
    obtain ⟨id, q⟩ := r
    dsimp only
    by_cases hstale : q.status = .succeeded ∨ paid = false
    · rw [if_pos hstale]
      exact rent_look h (fun a ha => Option.some.inj ha ▸ rfl) rfl rfl (fun a ha => by cases ha)
    · rw [if_neg hstale]
      obtain ⟨hq, hpaid⟩ := not_or.1 hstale
      rw [Bool.not_eq_false] at hpaid
      subst hpaid
      obtain ⟨hid, hinvoice⟩ := Table.find?_some hrow
      rw [beq_iff_eq] at hinvoice
      obtain ⟨hmade, hunspent⟩ := hbooks.invoicePaid now hrow hq
        (hcurrency (id, q) (Option.mem_def.2 hrow))
      have hothers : ∀ {d : RentCall}, d.Knows s →
          d.Knows { s with payments := s.payments.modify id (i.update true s.link now) } ∧
            d.makes ≠ some id := by
        intro d hd
        refine hd.make hid hq (f := i.update true s.link now) rfl fun hnone => ?_
        rw [hinvoice] at hnone
        cases hnone
      refine {
        whole := hmade
        mine := fun a ha => ?_
        others := fun d hd _ => (hothers hd).1.congr rfl rfl
        apart := fun d hd _ a ha => ?_ }
      · obtain rfl := Option.some.inj ha
        exact spending_knows (by simp [hid]) hunspent rfl
      · obtain rfl := Option.some.inj ha
        exact spending_apart (hothers hd).2
  | none =>
    dsimp only
    have hinsert := hbooks.insert (p := i.payment paid s.link now) (i.payment_ok paid s.link) rfl
      paid (fun hpaid => by
        subst hpaid
        rw [RentPayment.SettledIn, if_neg (by simp [RentPayment.hasExpense, RentInvoice.payment])]
        rfl)
      (fun hpaid => by
        subst hpaid
        exact ⟨rfl, rfl, rfl⟩)
    cases paid with
    | false =>
      refine {
        whole := RentBooks.congr hinsert rfl rfl
        mine := fun a ha => by cases ha
        others := fun d hd _ => RentCall.Knows.congr
          (RentCall.Knows.insert hd (p := i.payment false s.link now) rfl) rfl rfl
        apart := fun d _ _ a ha => by cases ha }
    | true =>
      refine {
        whole := RentBooks.congr hinsert rfl rfl
        mine := fun a ha => ?_
        others := fun d hd _ => RentCall.Knows.congr
          (RentCall.Knows.insert hd (p := i.payment true s.link now) rfl) rfl rfl
        apart := fun d hd _ a ha => ?_ }
      · obtain rfl := Option.some.inj ha
        exact spending_knows (Table.get?_insert_self _ _) ⟨rfl, rfl, rfl⟩ rfl
      · obtain rfl := Option.some.inj ha
        refine spending_apart fun hmakes => ?_
        obtain ⟨p, hp, -⟩ := RentCall.Knows.makes hd hmakes
        simp at hp

/-! ### Refunds -/

theorem syncRefund_keeps {invoiceId : ℕ} {refunded : ℚ} {full : Bool} :
    rentInv.Keeps s (some (.syncRefund invoiceId refunded full))
      (RentCall.left ((RentCall.syncRefund invoiceId refunded full).run now s)) := by
  intro m h _
  simp only [RentCall.left, RentCall.run]
  cases hrow : s.refundable invoiceId with
  | none => exact rent_look h (fun a ha => Option.some.inj ha ▸ rfl) rfl rfl (fun a ha => by cases ha)
  | some r =>
    obtain ⟨id, p⟩ := r
    simp only [RentDb.refundable, Option.filter_eq_some_iff, Bool.and_eq_true, beq_iff_eq] at hrow
    obtain ⟨hfind, hcard, hsucceeded⟩ := hrow
    refine rent_look h (fun a ha => Option.some.inj ha ▸ rfl) rfl rfl fun a ha => ?_
    obtain rfl := Option.some.inj ha
    refine ⟨rfl, RentCall.knows_of_row rfl (fun hd => ?_) trivial⟩
    obtain ⟨rfl, rfl⟩ := Prod.mk.inj (Option.some.inj hd)
    exact ⟨p, (Table.find?_some hfind).1, {
      card := hcard
      succeeded := hsucceeded
      amount := rfl
      currency := rfl
      units := isMinor_fromMinorUnits _ _ }⟩

/-- A greater refund is not the one that was recorded. -/
theorem RentRefund.Recorded.lt {r : RentRefund} {e : ℕ} {q : RentPayment} (h : r.Recorded e q)
    {value : ℚ} (hless : q.refundsLess value = true) : r.value < value := by
  obtain ⟨v, hv, hle⟩ := h.risen
  rw [RentPayment.refundsLess, hv, Option.all_some, decide_eq_true_iff] at hless
  exact hle.trans_lt hless

theorem claiming_keeps {r : RentRefund} (hclaim : ∀ q ∈ s.payments.get? r.id,
    q.refundsLess r.value = true →
      q.memberExpenseId = r.payment.memberExpenseId ∧ q.memberExpenseId.isSome = true) :
    rentInv.Keeps s (some (.claiming r)) (RentCall.left ((RentCall.claiming r).run now s)) := by
  intro m h hmine
  have hbooks : RentBooks s (0 + m) := h
  have hknows : RentCall.Knows s (.claiming r) := hmine _ rfl
  rw [zero_add] at hbooks
  simp only [RentCall.left, RentCall.run]
  cases htry : s.payments.tryModify r.id (·.refundsLess r.value)
      (fun p => { p with refundedAmount := some r.value }) with
  | none => exact rent_look h (fun a ha => Option.some.inj ha ▸ rfl) rfl rfl (fun a ha => by cases ha)
  | some payments =>
    obtain ⟨q, hq, hless, rfl⟩ := Table.tryModify_eq_some.1 htry
    obtain ⟨hsame, hlinked⟩ := hclaim q hq hless
    obtain ⟨e, he⟩ := Option.isSome_iff_exists.1 hlinked
    obtain ⟨q', hq', hof⟩ := hknows.row rfl
    obtain rfl := Option.some.inj (hq.symm.trans hq')
    have hspent := RentPayment.not_unspent he
    have hmade := hbooks.not_making hq hspent
    dsimp only
    rw [← hsame, he, Option.elim_some]
    refine {
      whole := ?_
      mine := fun a ha => ?_
      others := fun d hd _ => ?_
      apart := fun d hd _ a ha => ?_ }
    · change RentBooks _ ((0, {r.id}, 0) + m)
      apply hbooks.write hq s.expenses
      · exact ⟨(hbooks.ok hq).invoice, fun _ => ⟨hof.card, hof.succeeded⟩, (hbooks.ok hq).units⟩
      · intro _ hnot
        simp at hnot
      · simpa using hbooks.nodup
      · intro hmem
        exact absurd (by simpa using hmem) hmade
      · exact fun _ => ⟨hof.succeeded, hof.card⟩
      · simp
      · intro j hj
        simp [hj]
      · exact fun e' he' => ⟨hbooks.found hq he', .inl he'⟩
      · exact fun _ _ _ => rfl
      · intro e' x hx hnot
        by_cases heq : q.memberExpenseId = some e'
        · exact .inl heq
        · exact .inr ⟨heq, ⟨x, hx⟩, by simpa using hnot⟩
    · obtain rfl := Option.some.inj ha
      refine RentCall.knows_of_row rfl (fun hd => ?_) trivial
      obtain ⟨rfl, rfl⟩ := Prod.mk.inj (Option.some.inj hd)
      exact ⟨{ q with refundedAmount := some r.value }, by simp [hq], {
        card := hof.card
        succeeded := hof.succeeded
        amount := hof.amount
        currency := hof.currency
        units := hof.units
        linked := fun _ => he
        risen := ⟨_, rfl, le_rfl⟩ }⟩
    · apply RentCall.Knows.write hd hq s.expenses
      · intro P hrow hP
        refine RentCall.row_write hrow hP (RentCall.Knows.makes_ne hd hq hspent)
          (fun hnone => ⟨hnone, rfl⟩) ?_ ?_
        · exact fun r' hof' => ⟨hof'.card, hof'.succeeded, hof'.amount, hof'.currency, hof'.units⟩
        · intro r' e' _ _ hrecorded
          have hlt := hrecorded.lt hless
          exact {
            card := hrecorded.card
            succeeded := hrecorded.succeeded
            amount := hrecorded.amount
            currency := hrecorded.currency
            units := hrecorded.units
            linked := fun hvalue => absurd (Option.some.inj hvalue) hlt.ne'
            risen := ⟨_, rfl, hlt.le⟩ }
      · exact fun he' => .inl he'
      · exact fun _ => rfl
      · exact fun _ hx => hx
      · exact le_rfl
    · obtain rfl := Option.some.inj ha
      refine {
        makes := fun _ hm => by cases hm
        holds := fun _ hm => by cases hm
        values := fun r₁ e₁ r' e' hc hd' hid => ?_ }
      cases hc
      subst hd'
      obtain ⟨q', hq', hrecorded⟩ := RentCall.Knows.row hd rfl
      rw [← hid] at hq'
      obtain rfl := Option.some.inj (hq.symm.trans hq')
      exact (hrecorded.lt hless).ne'

/-- The whole minor units that a refund leaves. -/
theorem RentRefund.Recorded.left {r : RentRefund} {e : ℕ} {q : RentPayment} (h : r.Recorded e q)
    (hok : q.Ok) (hvalue : q.refundedAmount = some r.value) :
    roundMoney (r.payment.amount - r.value) r.payment.currency = q.left := by
  have hunits := hok.units h.card
  rw [h.amount, h.currency] at hunits
  refine (hunits.sub h.units).trans ?_
  rw [RentPayment.left, hvalue, h.amount, Option.getD_some]

/-- An expense is lowered to what is left of its payment. -/
theorem RentBooks.lower {k e : ℕ} {q : RentPayment} (h : RentBooks s ((0, {k}, 0) + m))
    (hk : s.payments.get? k = some q) (he : q.memberExpenseId = some e)
    (hpaid : q.status = .succeeded ∧ q.method = .card) (hfully : q.fullyRefunded = false) :
    RentBooks { s with expenses := s.expenses.modify e fun x => { x with amount := q.left } } m := by
  obtain ⟨x, hx⟩ := h.found hk he
  have hmade : k ∉ m.1 := by simpa using h.not_making hk (RentPayment.not_unspent he)
  suffices hwrite : RentBooks { s with
      payments := s.payments.modify k fun p => p
      expenses := s.expenses.modify e fun x => { x with amount := q.left } } m by
    rwa [Table.modify_id] at hwrite
  apply h.write hk _ (h.ok hk)
  · intro _ _
    unfold RentPayment.SettledIn
    rw [if_pos (by simp [RentPayment.hasExpense, hpaid.1, hfully])]
    exact ⟨e, { x with amount := q.left }, he, by simp [hx], rfl⟩
  · simpa using h.nodup
  · exact fun hmem => absurd hmem hmade
  · exact fun _ => hpaid
  · simp
  · intro j hj
    simp [hj]
  · intro e' he'
    obtain rfl := Option.some.inj (he.symm.trans he')
    exact ⟨⟨{ x with amount := q.left }, by simp [hx]⟩, .inl he'⟩
  · intro j p e' hj hp hp'
    rw [Table.get?_modify_of_ne]
    rintro rfl
    exact hj (h.distinct hp hk hp' he)
  · intro e' y hy hnot
    by_cases heq : e' = e
    · exact .inl (heq ▸ he)
    · rw [Table.get?_modify_of_ne _ _ heq] at hy
      refine .inr ⟨?_, ⟨y, hy⟩, by simpa using hnot⟩
      rw [he]
      exact fun hsome => heq (Option.some.inj hsome).symm

/-- The payment of an expense that is to go lets go of it. -/
theorem RentBooks.drop {k e : ℕ} {q : RentPayment} (h : RentBooks s ((0, {k}, 0) + m))
    (hk : s.payments.get? k = some q) (he : q.memberExpenseId = some e)
    (hpaid : q.status = .succeeded ∧ q.method = .card) (hfully : q.fullyRefunded = true) :
    RentBooks { s with payments := s.payments.modify k fun p => { p with memberExpenseId := none } }
      ((0, 0, {e}) + m) := by
  have hok := h.ok hk
  have hmade : k ∉ m.1 := by simpa using h.not_making hk (RentPayment.not_unspent he)
  apply h.write hk s.expenses
  · exact ⟨hok.invoice, hok.refunded, hok.units⟩
  · intro _ _
    unfold RentPayment.SettledIn
    rw [if_neg]
    -- what was refunded stands as it was
    change ¬(q.status == .succeeded && !q.fullyRefunded) = true
    simp [hfully]
  · simpa using h.nodup
  · intro hmem
    exact absurd (by simpa using hmem) hmade
  · exact fun _ => hpaid
  · simp
  · intro j hj
    simp [hj]
  · exact fun e' he' => by cases he'
  · exact fun _ _ _ => rfl
  · intro e' y hy hnot
    have hout : e' ≠ e ∧ e' ∉ m.2.2 := by simpa using hnot
    refine .inr ⟨?_, ⟨y, hy⟩, by simpa using hout.2⟩
    rw [he]
    exact fun hsome => hout.1 (Option.some.inj hsome).symm

theorem lowering_keeps {r : RentRefund} {e : ℕ}
    (hlatest : ∃ q, s.payments.get? r.id = some q ∧ q.refundedAmount = some r.value) :
    rentInv.Keeps s (some (.lowering r e)) (RentCall.left ((RentCall.lowering r e).run now s)) := by
  intro m h hmine
  have hbooks : RentBooks s ((0, {r.id}, 0) + m) := h
  have hknows : RentCall.Knows s (.lowering r e) := hmine _ rfl
  obtain ⟨q, hq, hvalue⟩ := hlatest
  obtain ⟨q', hq', hrecorded⟩ := hknows.row rfl
  obtain rfl := Option.some.inj (hq.symm.trans hq')
  have he := hrecorded.linked hvalue
  have hpaid := And.intro hrecorded.succeeded hrecorded.card
  have hleft : q.left = q.amount - r.value := by
    rw [RentPayment.left, hvalue, Option.getD_some]
  simp only [RentCall.left, RentCall.run, hrecorded.left (hbooks.ok hq) hvalue]
  by_cases hpos : 0 < q.left
  · rw [if_pos hpos]
    have hfully : q.fullyRefunded = false := by
      simpa [RentPayment.fullyRefunded, hvalue, hleft] using hpos
    refine {
      whole := (zero_add m).symm ▸ hbooks.lower hq he hpaid hfully
      mine := fun a ha => ?_
      others := fun d hd _ => ?_
      apart := fun d _ _ a ha => ?_ }
    · obtain rfl := Option.some.inj ha
      exact RentCall.knows_of_row rfl (fun hd => by cases hd) trivial
    · refine RentCall.Knows.spend hd (fun {e' y} hholds hy => ?_) le_rfl
      rw [Table.get?_modify_of_ne, hy]
      rintro rfl
      exact RentCall.Knows.unlinked hd hholds hq he
    · obtain rfl := Option.some.inj ha
      exact RentCall.apart_of_not_owes rfl
  · rw [if_neg hpos]
    have hfully : q.fullyRefunded = true := by
      simpa [RentPayment.fullyRefunded, hvalue, hleft] using hpos
    have hspent := RentPayment.not_unspent he
    refine {
      whole := hbooks.drop hq he hpaid hfully
      mine := fun a ha => ?_
      others := fun d hd hapart => ?_
      apart := fun d hd _ a ha => ?_ }
    · obtain rfl := Option.some.inj ha
      refine {
        row := fun hd => by cases hd
        unlinked := fun hholds => ?_
        below := fun hholds => ?_
        more := trivial }
      · obtain rfl := Option.some.inj hholds
        intro j p hj hp
        rw [Table.get?_modify] at hj
        split at hj
        · next heq =>
          subst heq
          rw [hq] at hj
          obtain rfl := Option.some.inj hj
          cases hp
        · next hne => exact hne (hbooks.distinct hj hq hp he)
      · obtain rfl := Option.some.inj hholds
        obtain ⟨x, hx⟩ := hbooks.found hq he
        exact Table.lt_next_of_get? hx
    · have hpair : (RentCall.lowering r e).Apart d := hapart _ rfl
      apply RentCall.Knows.write hd hq s.expenses
      · intro P hrow hP
        refine RentCall.row_write hrow hP (RentCall.Knows.makes_ne hd hq hspent)
          (fun hnone => ⟨hnone, rfl⟩) ?_ ?_
        · exact fun r' hof => ⟨hof.card, hof.succeeded, hof.amount, hof.currency, hof.units⟩
        · rintro r' e' rfl hid hother
          exact {
            card := hother.card
            succeeded := hother.succeeded
            amount := hother.amount
            currency := hother.currency
            units := hother.units
            linked := fun hsame => absurd (Option.some.inj (hvalue.symm.trans hsame))
              (hpair.values r e r' e' rfl rfl hid.symm)
            risen := hother.risen }
      · exact fun he' => by cases he'
      · exact fun _ => rfl
      · exact fun _ hx => hx
      · exact le_rfl
    · obtain rfl := Option.some.inj ha
      refine {
        makes := fun _ hm => by cases hm
        holds := fun e' he' hde => ?_
        values := fun _ _ _ _ hc => by cases hc }
      obtain rfl := Option.some.inj he'
      exact RentCall.Knows.unlinked hd hde hq he

theorem dropping_keeps {r : RentRefund} {e : ℕ} : rentInv.Keeps s (some (.dropping r e))
    (RentCall.left ((RentCall.dropping r e).run now s)) := by
  intro m h hmine
  have hbooks : RentBooks s ((0, 0, {e}) + m) := h
  have hknows : RentCall.Knows s (.dropping r e) := hmine _ rfl
  refine {
    whole := ?_
    mine := fun a ha => ?_
    others := fun d hd hapart => ?_
    apart := fun d _ _ a ha => ?_ }
  · change RentBooks _ (0 + m)
    rw [zero_add]
    apply hbooks.spend ⟨by simp, by simp⟩
    · intro j p e' hj hp
      rw [Table.get?_erase, if_neg]
      rintro rfl
      exact hknows.unlinked rfl hj hp
    · intro e' x hx hnot
      rw [Table.get?_erase] at hx
      split at hx
      · cases hx
      · next hne => exact ⟨⟨x, hx⟩, by simpa [hne] using hnot⟩
  · obtain rfl := Option.some.inj ha
    exact RentCall.knows_of_row rfl (fun hd => by cases hd) trivial
  · have hpair : (RentCall.dropping r e).Apart d := hapart _ rfl
    refine RentCall.Knows.spend hd (fun {e' x} hholds hx => ?_) le_rfl
    rw [Table.get?_erase, if_neg, hx]
    rintro rfl
    exact hpair.holds _ rfl hholds
  · obtain rfl := Option.some.inj ha
    exact RentCall.apart_of_not_owes rfl

theorem rewinding_keeps {r : RentRefund} : rentInv.Keeps s (some (.rewinding r))
    (RentCall.left ((RentCall.rewinding r).run now s)) := by
  intro m h _
  simp only [RentCall.left, RentCall.run]
  split
  · exact rent_look h (fun a ha => Option.some.inj ha ▸ rfl) rfl rfl (fun a ha => by cases ha)
  · exact rent_look h (fun a ha => Option.some.inj ha ▸ rfl) rfl rfl (fun a ha => by cases ha)

/-! ### All steps -/

/-- A step that meets the condition keeps the invariant. -/
theorem rent_step {k : RentChance} {c : RentCall} (hcond : c.keepsMirror k s = true) :
    rentInv.Keeps s (some c) (RentCall.left (c.step k s)) := by
  unfold RentCall.step
  unfold RentCall.keepsMirror at hcond
  split
  · next hstops =>
    rw [if_pos hstops, Bool.not_eq_true'] at hcond
    intro m h _
    exact rent_look h (fun a ha => Option.some.inj ha ▸ hcond) rfl rfl (fun a ha => by cases ha)
  · next hgoes =>
    rw [if_neg hgoes] at hcond
    cases c with
    | recordPayment => exact recordPayment_keeps
    | findingSession => exact findingSession_keeps
    | recording => exact recording_keeps
    | spending => exact spending_keeps hcond
    | linking => exact linking_keeps
    | undoPayment => exact undoPayment_keeps
    | checkingCash => exact checkingCash_keeps
    | undoing id p =>
      rw [Bool.and_eq_true, beq_iff_eq] at hcond
      exact undoing_keeps hcond.2 hcond.1
    | handleInvoice i paid =>
      refine handleInvoice_keeps fun r hr => ?_
      dsimp only at hcond
      rw [Option.mem_def.1 hr, Option.all_some, beq_iff_eq] at hcond
      exact hcond
    | syncRefund => exact syncRefund_keeps
    | claiming r =>
      refine claiming_keeps fun q hq hless => ?_
      dsimp only at hcond
      rw [Option.mem_def.1 hq, Option.all_some, hless, Bool.not_true, Bool.false_or,
        Bool.and_eq_true, beq_iff_eq] at hcond
      exact hcond
    | lowering r e =>
      obtain ⟨q, hq, hvalue⟩ := (Option.any_eq_true _ _).1 hcond
      exact lowering_keeps ⟨q, hq, beq_iff_eq.1 hvalue⟩
    | dropping => exact dropping_keeps
    | rewinding => exact rewinding_keeps

/-- What happens beside the requests keeps the invariant. -/
theorem rent_event {e : RentEvent} {r : RentDb × Option RentCall} (he : e.apply s = some r) :
    rentInv.Keeps s none r := by
  intro m h _
  cases e with
  | arrive c =>
    obtain ⟨hstarts, hr⟩ := Option.ite_none_right_eq_some.1 he
    obtain rfl := Option.some.inj hr
    refine rent_look h (fun a ha => by cases ha) rfl rfl fun a ha => ?_
    obtain rfl := Option.some.inj ha
    cases c with
    | recordPayment | undoPayment | handleInvoice | syncRefund =>
      exact ⟨rfl, RentCall.knows_of_row rfl (fun hd => by cases hd) trivial⟩
    | _ => cases hstarts
  | due amount dueDate periodEnd =>
    obtain rfl := Option.some.inj he
    have hbooks : RentBooks s (0 + m) := h
    rw [zero_add] at hbooks
    refine {
      whole := ?_
      mine := fun a ha => by cases ha
      others := fun d hd _ =>
        RentCall.Knows.insert hd (p := duePayment s.link amount dueDate periodEnd) rfl
      apart := fun d _ _ a ha => by cases ha }
    refine hbooks.insert (p := duePayment s.link amount dueDate periodEnd) ?_ rfl false ?_ ?_
    · exact {
        invoice := fun hsome => by cases hsome
        refunded := fun hsome => by cases hsome
        units := fun hcard => by cases hcard }
    · intro _
      rw [RentPayment.SettledIn, if_neg (by simp [RentPayment.hasExpense, duePayment])]
      rfl
    · exact fun hmaking => by cases hmaking
  | cash sessions =>
    obtain rfl := Option.some.inj he
    exact rent_look h (fun a ha => by cases ha) rfl rfl (fun a ha => by cases ha)

end Steps

/-! ## The run -/

theorem rentBooks_initial (link : RentLink) (sessions : Table CashSession) :
    RentBooks (.initial link sessions) 0 where
  ok hk := by cases hk
  settled hk := by cases hk
  nodup := Multiset.nodup_zero
  made hk := absurd hk (Multiset.notMem_zero _)
  lowered hk := absurd hk (Multiset.notMem_zero _)
  linked he := by cases he
  found hk := by cases hk
  distinct hi := by cases hi

/-- After every run whose steps all meet the condition: at rest, the expenses mirror the payments. -/
theorem rent_expenses_mirror {link : RentLink} {sessions : Table CashSession}
    {moves : List (Move RentEvent RentChance)} {x : Calls RentDb RentCall}
    (hmeets : rentCalls.machine.Meets (CallSystem.When (fun _ _ => True)
      fun k c s => c.keepsMirror k s = true) (.idle (.initial link sessions)) moves)
    (hrun : rentCalls.machine.run (.idle (.initial link sessions)) moves = some x)
    (hquiet : x.quiet = true) : x.shared.Mirrored := by
  have hstart : rentInv.Holds (.idle (.initial link sessions)) :=
    CallInv.holds_idle (rentBooks_initial link sessions)
  have hend := hstart.run (fun _ he => rent_event he) (fun hcond hs => by
    obtain rfl := Option.some.inj hs
    exact rent_step hcond) hmeets hrun
  exact (hend.quiet hquiet).mirrored

/-- The invoice of a month is paid, announced twice, and half of it is refunded. -/
def halfRefunded : List (Move RentEvent RentChance) :=
  [.event (.arrive (.handleInvoice (rentOf 1) true)), .step 1 ⟨1, false⟩,
    .event (.arrive (.handleInvoice (rentOf 1) true)), .step 2 ⟨2, false⟩,
    .step 1 ⟨3, false⟩, .step 1 ⟨4, false⟩,
    .event (.arrive (.syncRefund 1 250 false))] ++ List.replicate 4 (.step 3 ⟨5, false⟩)

theorem halfRefunded_mirrored : ∃ x,
    rentCalls.machine.run (.idle (.initial rentedChair.link .empty)) halfRefunded = some x ∧
      (x.shared.expenses.get? 1).map (·.amount) = some 250 ∧ x.shared.Mirrored := by
  have hmeets : rentCalls.machine.Meets (CallSystem.When (fun _ _ => True)
      fun k c s => c.keepsMirror k s = true) (.idle (.initial rentedChair.link .empty))
      halfRefunded := by
    decide +kernel
  have hsome : (rentCalls.machine.run (.idle (.initial rentedChair.link .empty)) halfRefunded).any
      (fun x => x.quiet && (x.shared.expenses.get? 1).map (·.amount) == some 250) = true := by
    decide +kernel
  obtain ⟨x, hrun, hout⟩ := (Option.any_eq_true _ _).1 hsome
  simp only [Bool.and_eq_true, beq_iff_eq] at hout
  exact ⟨x, hrun, hout.2, rent_expenses_mirror hmeets hrun hout.1⟩

/-- The request stops once the payment is written; the event is delivered again. -/
def stoppedBeforeExpense : List (Move RentEvent RentChance) :=
  [.event (.arrive (.handleInvoice (rentOf 1) true)), .step 1 ⟨1, false⟩, .step 1 ⟨1, true⟩,
    .event (.arrive (.handleInvoice (rentOf 1) true)), .step 2 ⟨2, false⟩]

theorem stoppedBeforeExpense_not_mirrored : ∃ x,
    rentCalls.machine.run (.idle (.initial rentedChair.link .empty)) stoppedBeforeExpense = some x ∧
      x.quiet = true ∧ x.shared.expenses.rows = [] ∧ ¬ x.shared.Mirrored := by
  have hsome : (rentCalls.machine.run (.idle (.initial rentedChair.link .empty))
      stoppedBeforeExpense).any (fun x => x.quiet && x.shared.expenses.rows.isEmpty &&
        (x.shared.payments.get? 1).any fun p => p.hasExpense && p.memberExpenseId == none) = true := by
    decide +kernel
  obtain ⟨x, hrun, hout⟩ := (Option.any_eq_true _ _).1 hsome
  simp only [Bool.and_eq_true, beq_iff_eq, List.isEmpty_iff, Option.any_eq_true] at hout
  obtain ⟨⟨hquiet, hrows⟩, p, hp, hexpense, hnone⟩ := hout
  refine ⟨x, hrun, hquiet, hrows, fun h => ?_⟩
  obtain ⟨e, -, he, -⟩ := h.one hp hexpense
  rw [hnone] at he
  cases he

end Barbershop
