import Barbershop.Rent.Requests
import Mathlib.Algebra.Group.Prod
import Mathlib.Algebra.Order.Group.Multiset

/-!
# Expenses mirror payments

`RentCall.keepsMirror` is what each step has to meet: no request stops between recording a payment or
a refund and writing its expense, the professional's business has someone to enter the expense for,
a payment is undone or refunded when its expense is there and as it was read, and of two refunds
of one invoice the later does not overtake the earlier. Then, at rest, the expenses are one for
each paid rent that is not fully refunded, of what is left of it.
-/

namespace Barbershop

open Lib

/-- The whole amount was given back. -/
def RentPayment.fullyRefunded (p : RentPayment) : Bool :=
  p.refundedAmount.any fun r => decide (p.amount ≤ r)

/-- A paid rent that is to have an expense. -/
def RentPayment.hasExpense (p : RentPayment) : Bool := p.status == .succeeded && !p.fullyRefunded

def RentPayment.left (p : RentPayment) : ℚ := p.amount - p.refundedAmount.getD 0

structure RentDb.Mirrored (s : RentDb) : Prop where
  one : ∀ {k p}, s.payments.get? k = some p → p.hasExpense = true →
    ∃ e x, p.memberExpenseId = some e ∧ s.expenses.get? e = some x ∧ x.amount = p.left
  only : ∀ {e x}, s.expenses.get? e = some x →
    ∃ k p, s.payments.get? k = some p ∧ p.memberExpenseId = some e ∧ p.hasExpense = true
  distinct : ∀ {i j p q e}, s.payments.get? i = some p → s.payments.get? j = some q →
    p.memberExpenseId = some e → q.memberExpenseId = some e → i = j

/-- A request that has written a payment and has yet to write its expense. -/
def RentCall.owes : RentCall → Bool
  | spending .. | linking .. | lowering .. | dropping .. => true
  | _ => false

def RentCall.keepsMirror (k : RentChance) (c : RentCall) (s : RentDb) : Bool :=
  if k.stops then !c.owes
  else
    match c with
    | spending .. => s.link.createdBy.isSome
    | undoing id p => p.memberExpenseId.isSome && s.payments.get? id == some p
    | claiming r => (s.payments.get? r.id).all fun p => !p.refundsLess r.value ||
        (p.memberExpenseId == r.payment.memberExpenseId && p.memberExpenseId.isSome)
    | handleInvoice i _ => (s.invoicePayment i.id).all (·.2.currency == i.currencyFor s.link)
    | lowering r _ => (s.payments.get? r.id).any (·.refundedAmount == some r.value)
    | _ => true

/-! ## The books -/

/-- The payments that calls in flight are making an expense for, those that they are lowering one of,
and the expenses that no payment points to. -/
abbrev RentWork := Multiset ℕ × Multiset ℕ × Multiset ℕ

def RentCall.work : RentCall → RentWork
  | .spending id _ _ => ({id}, 0, 0)
  | .linking id e => ({id}, 0, {e})
  | .lowering r _ => (0, {r.id}, 0)
  | .dropping _ e => (0, 0, {e})
  | _ => 0

/-- A paid rent whose expense is yet to be written. -/
structure RentPayment.Unspent (p : RentPayment) : Prop where
  succeeded : p.status = .succeeded
  expense : p.memberExpenseId = none
  refunded : p.refundedAmount = none

/-- The expense of a payment that no call is working on. -/
def RentPayment.SettledIn (p : RentPayment) (expenses : Table Expense) : Prop :=
  if p.hasExpense = true then
    ∃ e x, p.memberExpenseId = some e ∧ expenses.get? e = some x ∧ x.amount = p.left
  else p.memberExpenseId = none

/-- What every row keeps to. -/
structure RentPayment.Ok (p : RentPayment) : Prop where
  invoice : p.stripeInvoiceId.isSome = true → p.method = .card ∧ p.status ≠ .due
  refunded : p.refundedAmount.isSome = true → p.method = .card ∧ p.status = .succeeded
  units : p.method = .card → IsMinor p.currency p.amount

structure RentBooks (s : RentDb) (w : RentWork) : Prop where
  ok : ∀ {k p}, s.payments.get? k = some p → p.Ok
  settled : ∀ {k p}, s.payments.get? k = some p → k ∉ w.1 → k ∉ w.2.1 → p.SettledIn s.expenses
  nodup : w.1.Nodup
  made : ∀ {k}, k ∈ w.1 → ∃ p, s.payments.get? k = some p ∧ p.Unspent
  lowered : ∀ {k}, k ∈ w.2.1 → ∃ p, s.payments.get? k = some p ∧ p.status = .succeeded ∧
    p.method = .card
  linked : ∀ {e x}, s.expenses.get? e = some x → e ∉ w.2.2 →
    ∃ k p, s.payments.get? k = some p ∧ p.memberExpenseId = some e
  found : ∀ {k p e}, s.payments.get? k = some p → p.memberExpenseId = some e →
    ∃ x, s.expenses.get? e = some x
  distinct : ∀ {i j p q e}, s.payments.get? i = some p → s.payments.get? j = some q →
    p.memberExpenseId = some e → q.memberExpenseId = some e → i = j

theorem RentBooks.mirrored {s : RentDb} (h : RentBooks s 0) : s.Mirrored where
  one hk hexpense := by
    have hsettled := h.settled hk (Multiset.notMem_zero _) (Multiset.notMem_zero _)
    rwa [RentPayment.SettledIn, if_pos hexpense] at hsettled
  only he := by
    obtain ⟨k, p, hk, hp⟩ := h.linked he (Multiset.notMem_zero _)
    refine ⟨k, p, hk, hp, ?_⟩
    by_contra hnone
    have hsettled := h.settled hk (Multiset.notMem_zero _) (Multiset.notMem_zero _)
    rw [RentPayment.SettledIn, if_neg hnone, hp] at hsettled
    cases hsettled
  distinct := h.distinct

/-! ### What a call knows -/

/-- No payment points to the expense. -/
def RentDb.Unlinked (s : RentDb) (e : ℕ) : Prop :=
  ∀ {k p}, s.payments.get? k = some p → p.memberExpenseId ≠ some e

/-- What a refund knows of its payment: it was paid by card, and is as it was read but for its
expense and what was refunded. -/
structure RentRefund.Of (r : RentRefund) (p : RentPayment) : Prop where
  card : p.method = .card
  succeeded : p.status = .succeeded
  amount : p.amount = r.payment.amount
  currency : p.currency = r.payment.currency
  units : IsMinor r.payment.currency r.value

/-- What a refund that was recorded knows of its payment. -/
structure RentRefund.Recorded (r : RentRefund) (e : ℕ) (p : RentPayment) : Prop extends
    RentRefund.Of r p where
  linked : p.refundedAmount = some r.value → p.memberExpenseId = some e
  risen : ∃ v, p.refundedAmount = some v ∧ r.value ≤ v

/-- What a call knows of the row that it is about. -/
def RentCall.row : RentCall → Option (ℕ × (RentPayment → Prop))
  | .findingSession _ id p _ | .recording _ id p _ _ =>
    some (id, fun q => q.stripeInvoiceId = none ∧ q.amount = p.amount)
  | .spending id amount _ => some (id, fun q => q.Unspent ∧ q.amount = amount)
  | .linking id _ => some (id, fun q => q.Unspent)
  | .claiming r => some (r.id, r.Of)
  | .lowering r e => some (r.id, r.Recorded e)
  | _ => none

/-- The payment that a call is making an expense for. -/
def RentCall.makes : RentCall → Option ℕ
  | .spending id _ _ | .linking id _ => some id
  | _ => none

/-- The expense that a call holds and no payment points to. -/
def RentCall.holds : RentCall → Option ℕ
  | .linking _ e | .dropping _ e => some e
  | _ => none

/-- What else a call knows. -/
def RentCall.more (s : RentDb) : RentCall → Prop
  | .linking id e => ∃ x, s.expenses.get? e = some x ∧
      ∀ {q}, s.payments.get? id = some q → x.amount = q.amount
  | .findingSession _ _ _ method | .recording _ _ _ method _ => method ≠ .card
  | .checkingCash _ p | .undoing _ p => p.method ≠ .card
  | _ => True

structure RentCall.Knows (s : RentDb) (c : RentCall) : Prop where
  row : ∀ {k P}, c.row = some (k, P) → ∃ q, s.payments.get? k = some q ∧ P q
  unlinked : ∀ {e}, c.holds = some e → s.Unlinked e
  below : ∀ {e}, c.holds = some e → e < s.expenses.next
  more : c.more s

/-- Two calls work on different payments and expenses, and two refunds of one payment differ. -/
structure RentCall.Apart (c d : RentCall) : Prop where
  makes : ∀ k, c.makes = some k → d.makes ≠ some k
  holds : ∀ e, c.holds = some e → d.holds ≠ some e
  values : ∀ r e r' e', c = .lowering r e → d = .lowering r' e' → r.id = r'.id → r.value ≠ r'.value

theorem RentCall.Apart.symm {c d : RentCall} (h : c.Apart d) : d.Apart c where
  makes k hd hc := h.makes k hc hd
  holds e hd hc := h.holds e hc hd
  values r e r' e' hd hc hid := (h.values r' e' r e hc hd hid.symm).symm

def rentInv : CallInv RentDb RentCall RentWork where
  weight := RentCall.work
  whole := RentBooks
  each := RentCall.Knows
  pair := RentCall.Apart
  symm := RentCall.Apart.symm

/-! ### Writes -/

namespace RentBooks

variable {s : RentDb} {w w' : RentWork}

/-- A row and expenses change. -/
theorem write (h : RentBooks s w) {k : ℕ} {q : RentPayment} (hk : s.payments.get? k = some q)
    {f : RentPayment → RentPayment} (expenses : Table Expense) (hok : (f q).Ok)
    (hsettled : k ∉ w'.1 → k ∉ w'.2.1 → (f q).SettledIn expenses)
    (hnodup : w'.1.Nodup) (hmakes : k ∈ w'.1 → (f q).Unspent)
    (hlowers : k ∈ w'.2.1 → (f q).status = .succeeded ∧ (f q).method = .card)
    (hmade : ∀ j, j ≠ k → (j ∈ w'.1 ↔ j ∈ w.1)) (hlowered : ∀ j, j ≠ k → (j ∈ w'.2.1 ↔ j ∈ w.2.1))
    (hexpense : ∀ e, (f q).memberExpenseId = some e →
      (∃ x, expenses.get? e = some x) ∧ (q.memberExpenseId = some e ∨ s.Unlinked e))
    (hkept : ∀ {j p e}, j ≠ k → s.payments.get? j = some p → p.memberExpenseId = some e →
      expenses.get? e = s.expenses.get? e)
    (hlinked : ∀ {e x}, expenses.get? e = some x → e ∉ w'.2.2 → (f q).memberExpenseId = some e ∨
      (q.memberExpenseId ≠ some e ∧ (∃ x, s.expenses.get? e = some x) ∧ e ∉ w.2.2)) :
    RentBooks { s with payments := s.payments.modify k f, expenses := expenses } w' := by
  have hself : (s.payments.modify k f).get? k = some (f q) := by simp [hk]
  have hback : ∀ {j p}, (s.payments.modify k f).get? j = some p →
      (j = k ∧ p = f q) ∨ (j ≠ k ∧ s.payments.get? j = some p) := by
    intro j p hj
    by_cases hjk : j = k
    · subst hjk
      exact .inl ⟨rfl, Option.some.inj (hj.symm.trans hself)⟩
    · exact .inr ⟨hjk, Table.get?_modify_of_ne _ _ hjk ▸ hj⟩
  have hother : ∀ {j p}, j ≠ k → s.payments.get? j = some p →
      (s.payments.modify k f).get? j = some p := by
    intro j p hjk hj
    rw [Table.get?_modify_of_ne _ _ hjk, hj]
  refine {
    ok := fun hj => ?_
    settled := fun hj hm hl => ?_
    nodup := hnodup
    made := fun {j} hj => ?_
    lowered := fun {j} hj => ?_
    linked := fun he hw => ?_
    found := fun hj hp => ?_
    distinct := fun hi hj hp hq => ?_ }
  · rcases hback hj with ⟨-, rfl⟩ | ⟨-, hj⟩
    · exact hok
    · exact h.ok hj
  · rcases hback hj with ⟨rfl, rfl⟩ | ⟨hjk, hj⟩
    · exact hsettled hm hl
    · have hs := h.settled hj (fun hm' => hm ((hmade _ hjk).2 hm'))
        fun hl' => hl ((hlowered _ hjk).2 hl')
      unfold RentPayment.SettledIn at hs ⊢
      split
      · next hexp =>
        rw [if_pos hexp] at hs
        obtain ⟨e, x, hp, hx, hamount⟩ := hs
        exact ⟨e, x, hp, (hkept hjk hj hp).trans hx, hamount⟩
      · next hexp =>
        rw [if_neg hexp] at hs
        exact hs
  · by_cases hjk : j = k
    · subst hjk
      exact ⟨_, hself, hmakes hj⟩
    · obtain ⟨p, hp, hfacts⟩ := h.made ((hmade j hjk).1 hj)
      exact ⟨p, hother hjk hp, hfacts⟩
  · by_cases hjk : j = k
    · subst hjk
      exact ⟨_, hself, hlowers hj⟩
    · obtain ⟨p, hp, hfacts⟩ := h.lowered ((hlowered j hjk).1 hj)
      exact ⟨p, hother hjk hp, hfacts⟩
  · rcases hlinked he hw with hself' | ⟨hne, ⟨x, hx⟩, hw'⟩
    · exact ⟨k, _, hself, hself'⟩
    · obtain ⟨j, p, hj, hp⟩ := h.linked hx hw'
      have hjk : j ≠ k := by
        rintro rfl
        rw [hk] at hj
        obtain rfl := Option.some.inj hj
        exact hne hp
      exact ⟨j, p, hother hjk hj, hp⟩
  · rcases hback hj with ⟨rfl, rfl⟩ | ⟨hjk, hj⟩
    · exact (hexpense _ hp).1
    · obtain ⟨x, hx⟩ := h.found hj hp
      exact ⟨x, (hkept hjk hj hp).trans hx⟩
  · -- an expense of the row that was written is its old one, or no row's
    have hclash : ∀ {j p e}, j ≠ k → s.payments.get? j = some p → p.memberExpenseId = some e →
        (f q).memberExpenseId ≠ some e := by
      intro j p e hjk hj hp hf
      rcases (hexpense _ hf).2 with hq | hunlinked
      · exact hjk (h.distinct hj hk hp hq)
      · exact hunlinked hj hp
    rcases hback hi with ⟨hik, hpf⟩ | ⟨hik, hi'⟩
    · rcases hback hj with ⟨hjk, -⟩ | ⟨hjk, hj'⟩
      · exact hik.trans hjk.symm
      · exact absurd (hpf ▸ hp) (hclash hjk hj' hq)
    · rcases hback hj with ⟨-, hqf⟩ | ⟨-, hj'⟩
      · exact absurd (hqf ▸ hq) (hclash hik hi' hp)
      · exact h.distinct hi' hj' hp hq

/-- Expenses change, but for what they say of payments that no call is working on. -/
theorem spend (h : RentBooks s w) {expenses : Table Expense}
    (hsame : w'.1 = w.1 ∧ w'.2.1 = w.2.1)
    (hkept : ∀ {j p e}, s.payments.get? j = some p → p.memberExpenseId = some e →
      expenses.get? e = s.expenses.get? e)
    (hlinked : ∀ {e x}, expenses.get? e = some x → e ∉ w'.2.2 →
      (∃ x, s.expenses.get? e = some x) ∧ e ∉ w.2.2) :
    RentBooks { s with expenses := expenses } w' where
  ok := h.ok
  settled hj hm hl := by
    have hs := h.settled hj (hsame.1 ▸ hm) (hsame.2 ▸ hl)
    unfold RentPayment.SettledIn at hs ⊢
    split
    · next hexp =>
      rw [if_pos hexp] at hs
      obtain ⟨e, x, hp, hx, hamount⟩ := hs
      exact ⟨e, x, hp, (hkept hj hp).trans hx, hamount⟩
    · next hexp =>
      rw [if_neg hexp] at hs
      exact hs
  nodup := hsame.1 ▸ h.nodup
  made hj := h.made (hsame.1 ▸ hj)
  lowered hj := h.lowered (hsame.2 ▸ hj)
  linked he hw := by
    obtain ⟨⟨x, hx⟩, hw'⟩ := hlinked he hw
    exact h.linked hx hw'
  found hj hp := by
    obtain ⟨x, hx⟩ := h.found hj hp
    exact ⟨x, (hkept hj hp).trans hx⟩
  distinct := h.distinct

/-- A new row, which has no expense yet; `w'` may say that one is being made. -/
theorem insert (h : RentBooks s w) {p : RentPayment} (hok : p.Ok) (hnone : p.memberExpenseId = none)
    (making : Bool) (hsettled : making = false → p.SettledIn s.expenses)
    (hmakes : making = true → p.Unspent) :
    RentBooks { s with payments := s.payments.insert p }
      ((if making then ({s.payments.next}, 0, 0) else 0) + w) := by
  have hback : ∀ {j q}, (s.payments.insert p).get? j = some q →
      (j = s.payments.next ∧ q = p) ∨ (j ≠ s.payments.next ∧ s.payments.get? j = some q) := by
    intro j q hj
    rw [Table.get?_insert] at hj
    split at hj
    · next heq => exact .inl ⟨heq, (Option.some.inj hj).symm⟩
    · next hne => exact .inr ⟨hne, hj⟩
  have hnew : s.payments.next ∉ w.1 := by
    intro hmem
    obtain ⟨q, hq, -⟩ := h.made hmem
    simp at hq
  have hlowering : ((if making then ({s.payments.next}, 0, 0) else 0 : RentWork) + w).2.1 = w.2.1 := by
    cases making <;> simp
  have hholding : ((if making then ({s.payments.next}, 0, 0) else 0 : RentWork) + w).2.2 = w.2.2 := by
    cases making <;> simp
  have hmade : ∀ {j}, j ∈ ((if making then ({s.payments.next}, 0, 0) else 0 : RentWork) + w).1 ↔
      (making = true ∧ j = s.payments.next) ∨ j ∈ w.1 := by
    intro j
    cases making <;> simp
  refine {
    ok := fun hj => ?_
    settled := fun hj hm hl => ?_
    nodup := ?_
    made := fun {j} hj => ?_
    lowered := fun {j} hj => ?_
    linked := fun he hw => ?_
    found := fun hj hp => ?_
    distinct := fun hi hj hp hq => ?_ }
  · rcases hback hj with ⟨-, rfl⟩ | ⟨-, hj⟩
    · exact hok
    · exact h.ok hj
  · rw [hmade, not_or] at hm
    rcases hback hj with ⟨rfl, rfl⟩ | ⟨-, hj⟩
    · exact hsettled (by simpa using hm.1)
    · exact h.settled hj hm.2 (hlowering ▸ hl)
  · cases making with
    | false => simpa using h.nodup
    | true => simpa [Multiset.nodup_cons] using ⟨hnew, h.nodup⟩
  · rcases hmade.1 hj with ⟨hm, rfl⟩ | hj
    · exact ⟨p, by simp, hmakes hm⟩
    · obtain ⟨q, hq, hfacts⟩ := h.made hj
      exact ⟨q, Table.get?_insert_of_some _ hq, hfacts⟩
  · obtain ⟨q, hq, hfacts⟩ := h.lowered (hlowering ▸ hj)
    exact ⟨q, Table.get?_insert_of_some _ hq, hfacts⟩
  · obtain ⟨j, q, hj, hq⟩ := h.linked he (hholding ▸ hw)
    exact ⟨j, q, Table.get?_insert_of_some _ hj, hq⟩
  · rcases hback hj with ⟨rfl, rfl⟩ | ⟨-, hj⟩
    · rw [hnone] at hp
      cases hp
    · exact h.found hj hp
  · rcases hback hi with ⟨rfl, rfl⟩ | ⟨-, hi⟩
    · rw [hnone] at hp
      cases hp
    · rcases hback hj with ⟨rfl, rfl⟩ | ⟨-, hj⟩
      · rw [hnone] at hq
        cases hq
      · exact h.distinct hi hj hp hq

end RentBooks

/-! ### What the other calls still know -/

namespace RentCall

variable {s s' : RentDb} {c d : RentCall}

theorem Knows.makes (h : c.Knows s) {k : ℕ} (hm : c.makes = some k) :
    ∃ q, s.payments.get? k = some q ∧ q.Unspent := by
  cases c with
  | spending id amount method =>
    obtain rfl := Option.some.inj hm
    obtain ⟨q, hq, hfacts⟩ := h.row rfl
    exact ⟨q, hq, hfacts.1⟩
  | linking id e =>
    obtain rfl := Option.some.inj hm
    exact h.row rfl
  | _ => cases hm

/-- A row and expenses change. -/
theorem Knows.write (h : d.Knows s) {k : ℕ} {q : RentPayment} (hk : s.payments.get? k = some q)
    {f : RentPayment → RentPayment} (expenses : Table Expense)
    (hrow : ∀ {P}, d.row = some (k, P) → P q → P (f q))
    (hexpense : ∀ {e}, (f q).memberExpenseId = some e → q.memberExpenseId = some e ∨ d.holds ≠ some e)
    (hamount : d.makes = some k → (f q).amount = q.amount)
    (hkept : ∀ {e x}, d.holds = some e → s.expenses.get? e = some x → expenses.get? e = some x)
    (hnext : s.expenses.next ≤ expenses.next) :
    d.Knows { s with payments := s.payments.modify k f, expenses := expenses } := by
  have hback : ∀ {j p}, (s.payments.modify k f).get? j = some p →
      (j = k ∧ p = f q) ∨ (j ≠ k ∧ s.payments.get? j = some p) := by
    intro j p hj
    by_cases hjk : j = k
    · subst hjk
      simp only [Table.get?_modify_self, hk, Option.map_some, Option.some.injEq] at hj
      exact .inl ⟨rfl, hj.symm⟩
    · exact .inr ⟨hjk, Table.get?_modify_of_ne _ _ hjk ▸ hj⟩
  refine {
    row := fun {j P} hd => ?_
    unlinked := fun {e} he => ?_
    below := fun he => (h.below he).trans_le hnext
    more := ?_ }
  · obtain ⟨p, hp, hP⟩ := h.row hd
    by_cases hjk : j = k
    · subst hjk
      obtain rfl := Option.some.inj (hk.symm.trans hp)
      exact ⟨f q, by simp [hk], hrow hd hP⟩
    · exact ⟨p, by rw [Table.get?_modify_of_ne _ _ hjk, hp], hP⟩
  · intro j p hj hp
    rcases hback hj with ⟨-, rfl⟩ | ⟨-, hj'⟩
    · rcases hexpense hp with hq | hother
      · exact h.unlinked he hk hq
      · exact hother he
    · exact h.unlinked he hj' hp
  · cases d with
    | linking id e =>
      obtain ⟨x, hx, hamounts⟩ := h.more
      refine ⟨x, hkept rfl hx, fun {p} hj => ?_⟩
      rcases hback hj with ⟨rfl, rfl⟩ | ⟨-, hj'⟩
      · rw [hamount rfl]
        exact hamounts hk
      · exact hamounts hj'
    | _ => exact h.more

/-- A row is added, or expenses change. -/
theorem Knows.grow (h : d.Knows s) {payments : Table RentPayment} {expenses : Table Expense}
    (hgrow : ∀ {j p}, s.payments.get? j = some p → payments.get? j = some p)
    (hback : ∀ {j p}, payments.get? j = some p →
      s.payments.get? j = some p ∨ (j = s.payments.next ∧ p.memberExpenseId = none))
    (hkept : ∀ {e x}, d.holds = some e → s.expenses.get? e = some x → expenses.get? e = some x)
    (hnext : s.expenses.next ≤ expenses.next) :
    d.Knows { s with payments := payments, expenses := expenses } := by
  refine {
    row := fun hd => ?_
    unlinked := fun {e} he => ?_
    below := fun he => (h.below he).trans_le hnext
    more := ?_ }
  · obtain ⟨p, hp, hP⟩ := h.row hd
    exact ⟨p, hgrow hp, hP⟩
  · intro j p hj hp
    rcases hback hj with hj' | ⟨-, hnone⟩
    · exact h.unlinked he hj' hp
    · rw [hnone] at hp
      cases hp
  · cases d with
    | linking id e =>
      obtain ⟨x, hx, hamounts⟩ := h.more
      refine ⟨x, hkept rfl hx, fun {p} hj => ?_⟩
      rcases hback hj with hj' | ⟨rfl, -⟩
      · exact hamounts hj'
      · obtain ⟨q, hq, -⟩ := h.makes (c := .linking _ e) rfl
        simp at hq
    | _ => exact h.more

theorem Knows.spend (h : d.Knows s) {expenses : Table Expense}
    (hkept : ∀ {e x}, d.holds = some e → s.expenses.get? e = some x → expenses.get? e = some x)
    (hnext : s.expenses.next ≤ expenses.next) : d.Knows { s with expenses := expenses } :=
  h.grow (fun hj => hj) (fun hj => .inl hj) hkept hnext

theorem Knows.insert (h : d.Knows s) {p : RentPayment} (hnone : p.memberExpenseId = none) :
    d.Knows { s with payments := s.payments.insert p } := by
  refine h.grow (fun hj => Table.get?_insert_of_some _ hj) (fun hj => ?_) (fun _ hx => hx) le_rfl
  rw [Table.get?_insert] at hj
  split at hj
  · next heq => exact .inr ⟨heq, Option.some.inj hj ▸ hnone⟩
  · exact .inl hj

theorem Knows.congr (h : d.Knows s) (hpayments : s'.payments = s.payments)
    (hexpenses : s'.expenses = s.expenses) : d.Knows s' where
  row hd := by
    rw [hpayments]
    exact h.row hd
  unlinked he := by
    intro j p hj hp
    exact h.unlinked he (hpayments ▸ hj) hp
  below he := hexpenses ▸ h.below he
  more := by
    cases d with
    | linking id e =>
      obtain ⟨x, hx, hamounts⟩ := h.more
      exact ⟨x, hexpenses ▸ hx, fun hj => hamounts (hpayments ▸ hj)⟩
    | _ => exact h.more

theorem work_of_not_owes (h : c.owes = false) : c.work = 0 := by
  cases c with
  | spending | linking | lowering | dropping => cases h
  | _ => rfl

theorem apart_of_not_owes (h : c.owes = false) : c.Apart d := by
  cases c with
  | spending | linking | lowering | dropping => cases h
  | _ => exact {
      makes := fun _ hm => by cases hm
      holds := fun _ he => by cases he
      values := fun _ _ _ _ hc => by cases hc }

end RentCall

theorem RentBooks.congr {s s' : RentDb} {w : RentWork} (h : RentBooks s w)
    (hpayments : s'.payments = s.payments) (hexpenses : s'.expenses = s.expenses) :
    RentBooks s' w := by
  obtain ⟨link, payments, expenses, sessions⟩ := s
  obtain ⟨link', payments', expenses', sessions'⟩ := s'
  dsimp only at hpayments hexpenses
  subst hpayments hexpenses
  exact ⟨h.ok, h.settled, h.nodup, h.made, h.lowered, h.linked, h.found, h.distinct⟩

end Barbershop
