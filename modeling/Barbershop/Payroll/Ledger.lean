import Barbershop.Payroll.Payout
import Barbershop.Service

/-!
# The payroll ledger

Requests about the pay of one professional side by side. `PayrollCall.keepsLedger` is what a step has
to meet: a payout that commits finds the entries it read still there and open, a deletion finds its
entry open and no payout's carry-over, and an undo finds the carry-over open. Then every payout has
the sums of the entries in it, no two periods overlap, and what was paid is what was due less the
advances.
-/

namespace Barbershop

open Lib

/-! ## The ledger -/

/-- An advance without an expense: `addEntry` gives each advance one, a carry-over has none. -/
def BarberPayEntry.isCarryOver (e : BarberPayEntry) : Bool :=
  e.type == .advance && e.expenseId.isNone

/-- The advances with an expense that are inside payouts. -/
def advancesInside (entries : Table BarberPayEntry) : ℚ :=
  entries.sum fun _ e =>
    if e.type = .advance ∧ e.expenseId.isSome = true ∧ e.payoutId.isSome = true then e.amount else 0

def openCarryOvers (entries : Table BarberPayEntry) : ℚ :=
  entries.sum fun _ e => if e.isCarryOver = true ∧ e.payoutId = none then e.amount else 0

/-- What an entry adds to a payout under a type. -/
def BarberPayEntry.under (payoutId : ℕ) (type : EntryType) (e : BarberPayEntry) : ℚ :=
  if e.payoutId = some payoutId ∧ e.type = type then e.amount else 0

def attachedSum (entries : Table BarberPayEntry) (payoutId : ℕ) (type : EntryType) : ℚ :=
  entries.sum fun _ e => e.under payoutId type

namespace BarberPayout

/-- The sum that the payout stores for a type. -/
def stored (p : BarberPayout) : EntryType → ℚ
  | .tip => p.tips
  | .advance => p.advances
  | .bonus => p.bonuses
  | .deduction => p.deductions

/-- What is due before the advances. -/
def gross (p : BarberPayout) : ℚ := p.baseAmount + p.tips + p.bonuses - p.deductions

/-- What is paid beyond what is due, and so left over. -/
def left (p : BarberPayout) : ℚ := p.total - (p.gross - p.advances)

end BarberPayout

structure LedgerInOrder (entries : Table BarberPayEntry) (payouts : Table BarberPayout) :
    Prop where
  /-- An entry is in one payout at most, and in one that exists. -/
  belongs : ∀ {id e payoutId}, entries.get? id = some e → e.payoutId = some payoutId →
    ∃ p, payouts.get? payoutId = some p
  apart : ∀ {i j p q}, i ≠ j → payouts.get? i = some p → payouts.get? j = some q →
    p.overlaps q.periodStart q.periodEnd = false
  sums : ∀ {i p}, payouts.get? i = some p → ∀ type, p.stored type = attachedSum entries i type
  identity : (payouts.sum fun _ p => p.total) =
    (payouts.sum fun _ p => p.gross) - advancesInside entries + openCarryOvers entries

/-! ## What a step has to meet -/

def PayrollCall.keepsLedger (s : Payroll) : PayrollCall → Bool
  | committing _ r => r.entries.all fun e => (s.entries.get? e.1).any (·.payoutId.isNone)
  | deleting id _ => (s.entries.get? id).all (·.payoutId.isNone) &&
      !s.payouts.any fun _ p => p.carryOverEntryId == some id
  | undoing _ p => (p.carryOverEntryId.bind s.entries.get?).all (·.payoutId.isNone)
  | _ => true

/-! ## The books -/

namespace BarberPayEntry

/-- What an entry moves the ledger by: an advance inside a payout was paid before it, an open
carry-over was paid beyond what was due. -/
def owed (e : BarberPayEntry) : ℚ :=
  (if e.isCarryOver = true ∧ e.payoutId = none then e.amount else 0) -
    if e.type = .advance ∧ e.expenseId.isSome = true ∧ e.payoutId.isSome = true then e.amount else 0

def advance (e : BarberPayEntry) : ℚ := if e.type = .advance then e.amount else 0

/-- An advance that enters a payout is owed its amount less. -/
theorem owed_attach {e : BarberPayEntry} (he : e.payoutId = none) (payoutId : ℕ) :
    ({ e with payoutId := some payoutId } : BarberPayEntry).owed = e.owed - e.advance := by
  unfold owed advance isCarryOver
  by_cases htype : e.type = .advance <;> cases hexpense : e.expenseId <;> simp [*]

/-- The same entry, in whatever payout. -/
def Same (e e' : BarberPayEntry) : Prop := { e' with payoutId := e.payoutId } = e

theorem Same.refl (e : BarberPayEntry) : e.Same e := rfl

theorem Same.trans {e₁ e₂ e₃ : BarberPayEntry} (h : e₁.Same e₂) (h' : e₂.Same e₃) : e₁.Same e₃ := by
  unfold Same at *
  rw [← h, ← h']

theorem Same.eq {e e' : BarberPayEntry} (h : e.Same e') (hid : e'.payoutId = e.payoutId) :
    e' = e := by
  rw [← h, ← hid]

theorem same_attach (ids : List ℕ) (payoutId id : ℕ) (e : BarberPayEntry) :
    e.Same (e.attach ids payoutId id) := by
  unfold attach
  split <;> rfl

theorem same_detach (payoutId : ℕ) (e : BarberPayEntry) : e.Same (e.detach payoutId) := by
  unfold detach
  split <;> rfl

theorem Same.isCarryOver {e e' : BarberPayEntry} (h : e.Same e') :
    e'.isCarryOver = e.isCarryOver := by
  rw [← h]
  rfl

theorem Same.amount {e e' : BarberPayEntry} (h : e.Same e') : e'.amount = e.amount := by
  rw [← h]

end BarberPayEntry

/-- The ledger, with what the steps need of the carry-overs. -/
structure LedgerBooks (entries : Table BarberPayEntry) (payouts : Table BarberPayout) :
    Prop where
  belongs : ∀ {id e payoutId}, entries.get? id = some e → e.payoutId = some payoutId →
    ∃ p, payouts.get? payoutId = some p
  apart : ∀ {i j p q}, i ≠ j → payouts.get? i = some p → payouts.get? j = some q →
    p.overlaps q.periodStart q.periodEnd = false
  sums : ∀ {i p}, payouts.get? i = some p → ∀ type, p.stored type = attachedSum entries i type
  balance : (payouts.sum fun _ p => p.total - p.gross) = entries.sum fun _ e => e.owed
  cents : ∀ {id e}, entries.get? id = some e → IsCents e.amount
  settled : ∀ {i p}, payouts.get? i = some p → p.carryOverEntryId = none → p.left = 0
  carried : ∀ {i p id}, payouts.get? i = some p → p.carryOverEntryId = some id →
    ∃ e, entries.get? id = some e ∧ e.isCarryOver = true ∧ e.amount = p.left
  ofPayout : ∀ {id e}, entries.get? id = some e → e.isCarryOver = true →
    ∃ i p, payouts.get? i = some p ∧ p.carryOverEntryId = some id
  distinct : ∀ {i j p q id}, payouts.get? i = some p → payouts.get? j = some q →
    p.carryOverEntryId = some id → q.carryOverEntryId = some id → i = j

namespace LedgerBooks

variable {entries : Table BarberPayEntry} {payouts : Table BarberPayout}

theorem inOrder (h : LedgerBooks entries payouts) : LedgerInOrder entries payouts where
  belongs := h.belongs
  apart := h.apart
  sums := h.sums
  identity := by
    have hbalance := h.balance
    rw [Table.sum_sub] at hbalance
    have howed : (entries.sum fun _ e => e.owed) = openCarryOvers entries - advancesInside entries :=
      Table.sum_sub ..
    linarith

theorem empty : LedgerBooks .empty .empty where
  belongs h := by cases h
  apart _ h := by cases h
  sums h := by cases h
  balance := rfl
  cents h := by cases h
  settled h := by cases h
  carried h := by cases h
  ofPayout h := by cases h
  distinct h := by cases h

/-! ### Entries come and go -/

/-- An open entry that is no carry-over enters the books. -/
theorem insert (h : LedgerBooks entries payouts) {e : BarberPayEntry} (hopen : e.payoutId = none)
    (hcarry : e.isCarryOver = false) (hcents : IsCents e.amount) :
    LedgerBooks (entries.insert e) payouts := by
  have hnew : ∀ {id e'}, (entries.insert e).get? id = some e' →
      e' = e ∨ entries.get? id = some e' := by
    intro id e' hid
    rw [Table.get?_insert] at hid
    split at hid
    · exact .inl (Option.some.inj hid).symm
    · exact .inr hid
  exact {
    belongs := by
      intro id e' payoutId hid hin
      rcases hnew hid with rfl | hid
      · simp [hopen] at hin
      · exact h.belongs hid hin
    apart := h.apart
    sums := by
      intro i p hi type
      rw [h.sums hi type, attachedSum, attachedSum, Table.sum_insert]
      simp [BarberPayEntry.under, hopen]
    balance := by
      rw [Table.sum_insert, h.balance]
      simp [BarberPayEntry.owed, hopen, hcarry]
    cents := by
      intro id e' hid
      rcases hnew hid with rfl | hid
      · exact hcents
      · exact h.cents hid
    settled := h.settled
    carried := by
      intro i p id hi hid
      obtain ⟨e', he', hfacts⟩ := h.carried hi hid
      exact ⟨e', Table.get?_insert_of_some e he', hfacts⟩
    ofPayout := by
      intro id e' hid hcarry'
      rcases hnew hid with rfl | hid
      · simp [hcarry] at hcarry'
      · exact h.ofPayout hid hcarry'
    distinct := h.distinct }

/-- An open entry that is no payout's carry-over leaves the books. -/
theorem erase (h : LedgerBooks entries payouts) {id : ℕ} {e : BarberPayEntry}
    (hid : entries.get? id = some e) (hopen : e.payoutId = none)
    (hcarry : ∀ {i p}, payouts.get? i = some p → p.carryOverEntryId ≠ some id) :
    LedgerBooks (entries.erase id) payouts := by
  have hback : ∀ {j e'}, (entries.erase id).get? j = some e' → entries.get? j = some e' := by
    intro j e' hj
    rw [Table.get?_erase] at hj
    split at hj
    · cases hj
    · exact hj
  have hno : e.isCarryOver = false := by
    rw [← Bool.not_eq_true]
    intro hyes
    obtain ⟨i, p, hi, hp⟩ := h.ofPayout hid hyes
    exact hcarry hi hp
  exact {
    belongs := fun hj hin => h.belongs (hback hj) hin
    apart := h.apart
    sums := by
      intro i p hi type
      have hsplit := Table.sum_eq_add_erase (fun _ e => BarberPayEntry.under i type e) hid
      rw [h.sums hi type, attachedSum, attachedSum, hsplit]
      simp [BarberPayEntry.under, hopen]
    balance := by
      have hsplit := Table.sum_eq_add_erase (fun _ e => BarberPayEntry.owed e) hid
      rw [h.balance, hsplit]
      simp [BarberPayEntry.owed, hopen, hno]
    cents := fun hj => h.cents (hback hj)
    settled := h.settled
    carried := by
      intro i p c hi hc
      obtain ⟨e', he', hfacts⟩ := h.carried hi hc
      refine ⟨e', ?_, hfacts⟩
      have hne : c ≠ id := fun heq => hcarry hi (heq ▸ hc)
      rw [Table.get?_erase, if_neg hne, he']
    ofPayout := fun hj hc => h.ofPayout (hback hj) hc
    distinct := h.distinct }

end LedgerBooks

/-! ### Payouts come and go -/

/-- What entries add up to under a type. -/
def readSum (rows : List (ℕ × BarberPayEntry)) (type : EntryType) : ℚ :=
  (rows.map fun x => if x.2.type = type then x.2.amount else 0).sum

/-- The entries after a payout: those that it read are in it, and what is left over is one more. -/
def afterPayout (entries : Table BarberPayEntry) (rows : List (ℕ × BarberPayEntry)) (payoutId : ℕ)
    (carry : Option BarberPayEntry) : Table BarberPayEntry :=
  let attached := entries.modifyAll (BarberPayEntry.attach (rows.map (·.1)) payoutId)
  carry.elim attached attached.insert

section AfterPayout

variable {entries : Table BarberPayEntry} {rows : List (ℕ × BarberPayEntry)} {n : ℕ}
  {carry : Option BarberPayEntry}

theorem get?_afterPayout {id : ℕ} {e' : BarberPayEntry}
    (h : (afterPayout entries rows n carry).get? id = some e') :
    id = entries.next ∧ carry = some e' ∨
      ∃ e, entries.get? id = some e ∧ e' = e.attach (rows.map (·.1)) n id := by
  have hattached : ∀ {e'}, (entries.modifyAll (BarberPayEntry.attach (rows.map (·.1)) n)).get? id =
      some e' → ∃ e, entries.get? id = some e ∧ e' = e.attach (rows.map (·.1)) n id := by
    intro e' he'
    rw [Table.get?_modifyAll] at he'
    obtain ⟨e, he, rfl⟩ := Option.map_eq_some_iff.1 he'
    exact ⟨e, he, rfl⟩
  cases carry with
  | none => exact .inr (hattached h)
  | some c =>
    rw [afterPayout, Option.elim_some, Table.get?_insert, Table.next_modifyAll] at h
    by_cases heq : id = entries.next
    · exact .inl ⟨heq, (if_pos heq).symm.trans h⟩
    · exact .inr (hattached ((if_neg heq).symm.trans h))

theorem afterPayout_of_get? {id : ℕ} {e : BarberPayEntry} (h : entries.get? id = some e) :
    (afterPayout entries rows n carry).get? id = some (e.attach (rows.map (·.1)) n id) := by
  have hattached : (entries.modifyAll (BarberPayEntry.attach (rows.map (·.1)) n)).get? id =
      some (e.attach (rows.map (·.1)) n id) := by
    rw [Table.get?_modifyAll, h, Option.map_some]
  cases carry with
  | none => exact hattached
  | some c => exact Table.get?_insert_of_some c hattached

/-- The entries that a payout reads change what they weigh. -/
theorem sum_afterPayout (f : BarberPayEntry → ℚ) (hnodup : (rows.map Prod.fst).Nodup)
    (hrows : ∀ x ∈ rows, entries.get? x.1 = some x.2 ∧ x.2.payoutId = none) :
    ((afterPayout entries rows n carry).sum fun _ e => f e) =
      (entries.sum fun _ e => f e) +
        (rows.map fun x => f { x.2 with payoutId := some n } - f x.2).sum + carry.elim 0 f := by
  have hattached : ((entries.modifyAll (BarberPayEntry.attach (rows.map (·.1)) n)).sum
      fun _ e => f e) = (entries.sum fun _ e => f e) +
        (rows.map fun x => f { x.2 with payoutId := some n } - f x.2).sum := by
    rw [← Table.sum_listed (fun _ e => f { e with payoutId := some n } - f e) hnodup
      fun x hx => (hrows x hx).1, ← Table.sum_add, Table.sum_modifyAll]
    refine Table.sum_congr fun id e hid => ?_
    unfold BarberPayEntry.attach
    by_cases hmem : id ∈ rows.map Prod.fst
    · obtain ⟨x, hx, rfl⟩ := List.mem_map.1 hmem
      obtain ⟨hget, hopen⟩ := hrows x hx
      obtain rfl := Option.some.inj (hget.symm.trans hid)
      rw [if_pos ⟨hmem, hopen⟩, if_pos hmem]
      ring
    · rw [if_neg fun h => hmem h.1, if_neg hmem, add_zero]
  cases carry with
  | none =>
    rw [Option.elim_none, add_zero]
    exact hattached
  | some c =>
    rw [Option.elim_some, ← hattached]
    exact Table.sum_insert ..

end AfterPayout

namespace LedgerBooks

variable {entries : Table BarberPayEntry} {payouts : Table BarberPayout}

/-- A payout enters the books with the open entries that it read. -/
theorem payout (h : LedgerBooks entries payouts) {rows : List (ℕ × BarberPayEntry)}
    (hnodup : (rows.map Prod.fst).Nodup)
    (hrows : ∀ x ∈ rows, entries.get? x.1 = some x.2 ∧ x.2.payoutId = none) {p : BarberPayout}
    (hclash : ∀ {i q}, payouts.get? i = some q → q.overlaps p.periodStart p.periodEnd = false)
    (hstored : ∀ type, p.stored type = readSum rows type) {carry : Option BarberPayEntry}
    (hcarry : ∀ e ∈ carry, e.payoutId = none ∧ e.isCarryOver = true ∧ IsCents e.amount)
    (hid : p.carryOverEntryId = carry.map fun _ => entries.next)
    (hleft : p.left = carry.elim 0 (·.amount)) :
    LedgerBooks (afterPayout entries rows payouts.next carry) (payouts.insert p) := by
  have hpayout : ∀ {i q}, (payouts.insert p).get? i = some q →
      i = payouts.next ∧ q = p ∨ i ≠ payouts.next ∧ payouts.get? i = some q := by
    intro i q hi
    rw [Table.get?_insert] at hi
    split at hi
    · next heq => exact .inl ⟨heq, (Option.some.inj hi).symm⟩
    · next hne => exact .inr ⟨hne, hi⟩
  have hclash' : ∀ {i q}, payouts.get? i = some q →
      p.overlaps q.periodStart q.periodEnd = false := by
    intro i q hi
    have := hclash hi
    unfold BarberPayout.overlaps at this ⊢
    rwa [Bool.and_comm] at this
  have hold : ∀ {i q}, payouts.get? i = some q → ∀ c ∈ q.carryOverEntryId, c < entries.next := by
    intro i q hi c hc
    obtain ⟨e, he, -⟩ := h.carried hi hc
    exact Table.lt_next_of_get? he
  have hnext : ∀ c ∈ p.carryOverEntryId, c = entries.next ∧ ∃ e, carry = some e := by
    intro c hc
    rw [hid] at hc
    obtain ⟨e, he, rfl⟩ := Option.map_eq_some_iff.1 hc
    exact ⟨rfl, e, he⟩
  exact {
    belongs := by
      intro id e' payoutId hget hin
      rcases get?_afterPayout hget with ⟨-, hc⟩ | ⟨e, he, rfl⟩
      · simp [(hcarry e' hc).1] at hin
      · unfold BarberPayEntry.attach at hin
        split at hin
        · obtain rfl := Option.some.inj hin
          exact ⟨p, Table.get?_insert_self _ _⟩
        · obtain ⟨q, hq⟩ := h.belongs he hin
          exact ⟨q, Table.get?_insert_of_some p hq⟩
    apart := by
      intro i j q q' hne hi hj
      rcases hpayout hi with ⟨rfl, rfl⟩ | ⟨-, hi₀⟩
      · rcases hpayout hj with ⟨rfl, -⟩ | ⟨-, hj₀⟩
        · exact absurd rfl hne
        · exact hclash' hj₀
      · rcases hpayout hj with ⟨-, rfl⟩ | ⟨-, hj₀⟩
        · exact hclash hi₀
        · exact h.apart hne hi₀ hj₀
    sums := by
      intro i q hi type
      rw [attachedSum, sum_afterPayout _ hnodup hrows]
      have hzero : carry.elim 0 (BarberPayEntry.under i type) = 0 := by
        cases carry with
        | none => rfl
        | some e => simp [BarberPayEntry.under, (hcarry e rfl).1]
      rw [hzero, add_zero]
      rcases hpayout hi with ⟨rfl, rfl⟩ | ⟨hne, hi⟩
      · have hempty : (entries.sum fun _ e => e.under payouts.next type) = 0 := by
          refine Table.sum_eq_zero fun id e he => if_neg ?_
          rintro ⟨hin, -⟩
          obtain ⟨q', hq'⟩ := h.belongs he hin
          exact absurd (Table.lt_next_of_get? hq') (Nat.lt_irrefl _)
        rw [hempty, zero_add, hstored type, readSum]
        refine congrArg List.sum (List.map_congr_left fun x hx => ?_)
        simp [BarberPayEntry.under, (hrows x hx).2]
      · rw [h.sums hi type, attachedSum, left_eq_add]
        refine List.sum_eq_zero fun v hv => ?_
        obtain ⟨x, hx, rfl⟩ := List.mem_map.1 hv
        simp [BarberPayEntry.under, (hrows x hx).2, Ne.symm hne]
    balance := by
      have hread : (rows.map fun x =>
          ({ x.2 with payoutId := some payouts.next } : BarberPayEntry).owed - x.2.owed).sum =
            -readSum rows .advance := by
        rw [readSum, eq_neg_iff_add_eq_zero, ← List.sum_map_add]
        refine List.sum_eq_zero fun v hv => ?_
        obtain ⟨x, hx, rfl⟩ := List.mem_map.1 hv
        rw [BarberPayEntry.owed_attach (hrows x hx).2, BarberPayEntry.advance]
        ring
      have howed : carry.elim 0 BarberPayEntry.owed = p.left := by
        rw [hleft]
        cases carry with
        | none => rfl
        | some e =>
          obtain ⟨hopen, hcarry, -⟩ := hcarry e rfl
          simp [BarberPayEntry.owed, hopen, hcarry]
      rw [Table.sum_insert, h.balance, sum_afterPayout _ hnodup hrows, hread, howed,
        ← hstored .advance]
      simp only [BarberPayout.left, BarberPayout.stored]
      ring
    cents := by
      intro id e' hget
      rcases get?_afterPayout hget with ⟨-, hc⟩ | ⟨e, he, rfl⟩
      · exact (hcarry e' hc).2.2
      · rw [(BarberPayEntry.same_attach ..).amount]
        exact h.cents he
    settled := by
      intro i q hi hnone
      rcases hpayout hi with ⟨-, rfl⟩ | ⟨-, hi⟩
      · rw [hid, Option.map_eq_none_iff] at hnone
        rw [hleft, hnone, Option.elim_none]
      · exact h.settled hi hnone
    carried := by
      intro i q c hi hc
      rcases hpayout hi with ⟨-, rfl⟩ | ⟨-, hi⟩
      · obtain ⟨rfl, e, rfl⟩ := hnext c hc
        refine ⟨e, ?_, (hcarry e rfl).2.1, hleft.symm⟩
        exact Table.get?_insert_self (entries.modifyAll _) e
      · obtain ⟨e, he, hcarry, hamount⟩ := h.carried hi hc
        have hsame := BarberPayEntry.same_attach (rows.map (·.1)) payouts.next c e
        exact ⟨_, afterPayout_of_get? he, hsame.isCarryOver.trans hcarry, hsame.amount.trans hamount⟩
    ofPayout := by
      intro id e' hget hyes
      rcases get?_afterPayout hget with ⟨rfl, hc⟩ | ⟨e, he, rfl⟩
      · exact ⟨payouts.next, p, Table.get?_insert_self _ _, by simp [hid, hc]⟩
      · rw [(BarberPayEntry.same_attach ..).isCarryOver] at hyes
        obtain ⟨i, q, hi, hq⟩ := h.ofPayout he hyes
        exact ⟨i, q, Table.get?_insert_of_some p hi, hq⟩
    distinct := by
      intro i j q q' c hi hj hc hc'
      rcases hpayout hi with ⟨rfl, rfl⟩ | ⟨-, hi₀⟩
      · rcases hpayout hj with ⟨rfl, -⟩ | ⟨-, hj₀⟩
        · rfl
        · exact absurd (hold hj₀ c hc') ((hnext c hc).1 ▸ Nat.lt_irrefl _)
      · rcases hpayout hj with ⟨-, rfl⟩ | ⟨-, hj₀⟩
        · exact absurd (hold hi₀ c hc) ((hnext c hc').1 ▸ Nat.lt_irrefl _)
        · exact h.distinct hi₀ hj₀ hc hc' }

/-- What is left of the entries without a carry-over. -/
def without (entries : Table BarberPayEntry) (carryOverEntryId : Option ℕ) : Table BarberPayEntry :=
  carryOverEntryId.elim entries entries.erase

theorem get?_without {c : Option ℕ} {id : ℕ} {e : BarberPayEntry} :
    (without entries c).get? id = some e ↔ entries.get? id = some e ∧ c ≠ some id := by
  cases c with
  | none => simp [without]
  | some c =>
    rw [without, Option.elim_some, Table.get?_erase]
    by_cases hc : id = c
    · simp [hc]
    · simp [hc, Ne.symm hc]

theorem sum_without {p : BarberPayout} {i : ℕ} (h : LedgerBooks entries payouts)
    (hi : payouts.get? i = some p) (f : BarberPayEntry → ℚ) {v : ℚ}
    (hsome : ∀ c e, p.carryOverEntryId = some c → entries.get? c = some e →
      e.isCarryOver = true → e.amount = p.left → f e = v)
    (hnone : p.carryOverEntryId = none → v = 0) :
    ((without entries p.carryOverEntryId).sum fun _ e => f e) =
      (entries.sum fun _ e => f e) - v := by
  cases hc : p.carryOverEntryId with
  | none => simp [without, hnone hc]
  | some c =>
    obtain ⟨e, he, hcarry, hamount⟩ := h.carried hi hc
    have hsplit := Table.sum_eq_add_erase (fun _ e => f e) he
    rw [hsplit, hsome c e hc he hcarry hamount, without, Option.elim_some]
    ring

/-- A payout leaves the books with its carry-over, which is open; its entries are open again. -/
theorem undo (h : LedgerBooks entries payouts) {id : ℕ} {p : BarberPayout}
    (hid : payouts.get? id = some p)
    (hopen : ∀ c e, p.carryOverEntryId = some c → entries.get? c = some e → e.payoutId = none) :
    LedgerBooks ((without entries p.carryOverEntryId).modifyAll fun _ => (·.detach id))
      (payouts.erase id) := by
  have hentry : ∀ {j e'}, ((without entries p.carryOverEntryId).modifyAll
      fun _ => (·.detach id)).get? j = some e' →
        ∃ e, entries.get? j = some e ∧ p.carryOverEntryId ≠ some j ∧ e' = e.detach id := by
    intro j e' hj
    rw [Table.get?_modifyAll] at hj
    obtain ⟨e, he, rfl⟩ := Option.map_eq_some_iff.1 hj
    exact ⟨e, (get?_without.1 he).1, (get?_without.1 he).2, rfl⟩
  have hpayout : ∀ {i q}, (payouts.erase id).get? i = some q →
      i ≠ id ∧ payouts.get? i = some q := by
    intro i q hi
    rw [Table.get?_erase] at hi
    split at hi
    · cases hi
    · next hne => exact ⟨hne, hi⟩
  have hkept : ∀ {i q}, i ≠ id → payouts.get? i = some q → (payouts.erase id).get? i = some q := by
    intro i q hne hi
    rw [Table.get?_erase, if_neg hne, hi]
  exact {
    belongs := by
      intro j e' payoutId hj hin
      obtain ⟨e, he, -, rfl⟩ := hentry hj
      unfold BarberPayEntry.detach at hin
      split at hin
      · cases hin
      · next hne =>
        obtain ⟨q, hq⟩ := h.belongs he hin
        exact ⟨q, hkept (fun heq => hne (heq ▸ hin)) hq⟩
    apart := fun hne hi hj => h.apart hne (hpayout hi).2 (hpayout hj).2
    sums := by
      intro i q hi type
      obtain ⟨hne, hi⟩ := hpayout hi
      have hdetach : ∀ e : BarberPayEntry, (e.detach id).under i type = e.under i type := by
        intro e
        unfold BarberPayEntry.detach BarberPayEntry.under
        split
        · next hin => simp [hin, Ne.symm hne]
        · rfl
      have hcarry := h.sum_without hid (BarberPayEntry.under i type) (fun c e hc he _ _ =>
        if_neg fun hin => by simp [hopen c e hc he] at hin) fun _ => rfl
      rw [h.sums hi type, attachedSum, attachedSum, Table.sum_modifyAll]
      simp only [hdetach]
      rw [hcarry, sub_zero]
    balance := by
      have hdetach : ∀ e : BarberPayEntry, (e.detach id).owed = e.owed + e.under id .advance := by
        intro e
        unfold BarberPayEntry.detach BarberPayEntry.under
        by_cases hin : e.payoutId = some id
        · have howed := BarberPayEntry.owed_attach
            (show ({ e with payoutId := none } : BarberPayEntry).payoutId = none from rfl) id
          have hback : ({ e with payoutId := some id } : BarberPayEntry) = e := by rw [← hin]
          simp only [hback] at howed
          simp only [hin, if_true, true_and]
          rw [howed, BarberPayEntry.advance]
          ring
        · simp [hin]
      have hleft := h.sum_without hid BarberPayEntry.owed (fun c e hc he hcarry hamount => by
        simp [BarberPayEntry.owed, hopen c e hc he, hcarry, hamount]) (h.settled hid)
      have hadvances := h.sum_without hid (BarberPayEntry.under id .advance)
        (fun c e hc he _ _ => if_neg fun hin => by simp [hopen c e hc he] at hin) fun _ => rfl
      have hsplit := Table.sum_eq_add_erase (fun _ q => BarberPayout.total q - q.gross) hid
      rw [Table.sum_modifyAll]
      simp only [hdetach]
      rw [Table.sum_add, hleft, hadvances, ← h.balance, hsplit, sub_zero]
      have hstored := h.sums hid .advance
      rw [attachedSum] at hstored
      rw [← hstored]
      simp only [BarberPayout.left, BarberPayout.stored]
      ring
    cents := by
      intro j e' hj
      obtain ⟨e, he, -, rfl⟩ := hentry hj
      rw [(BarberPayEntry.same_detach ..).amount]
      exact h.cents he
    settled := fun hi hnone => h.settled (hpayout hi).2 hnone
    carried := by
      intro i q c hi hc
      obtain ⟨hne, hi⟩ := hpayout hi
      obtain ⟨e, he, hcarry, hamount⟩ := h.carried hi hc
      have hother : p.carryOverEntryId ≠ some c := fun hp => hne (h.distinct hi hid hc hp)
      have hsame := BarberPayEntry.same_detach id e
      refine ⟨e.detach id, ?_, hsame.isCarryOver.trans hcarry, hsame.amount.trans hamount⟩
      rw [Table.get?_modifyAll, get?_without.2 ⟨he, hother⟩, Option.map_some]
    ofPayout := by
      intro j e' hj hyes
      obtain ⟨e, he, hother, rfl⟩ := hentry hj
      rw [(BarberPayEntry.same_detach ..).isCarryOver] at hyes
      obtain ⟨i, q, hi, hq⟩ := h.ofPayout he hyes
      refine ⟨i, q, hkept (fun heq => hother ?_) hi, hq⟩
      subst heq
      obtain rfl := Option.some.inj (hid.symm.trans hi)
      exact hq
    distinct := fun hi hj => h.distinct (hpayout hi).2 (hpayout hj).2 }

end LedgerBooks

/-! ## What is computed -/

namespace PayComputation

variable (r : PayComputation)

/-- The sum that is computed for a type. -/
def stored : EntryType → ℚ
  | .tip => r.tips
  | .advance => r.advances
  | .bonus => r.bonuses
  | .deduction => r.deductions

/-- What was computed is of the open entries that were read. -/
structure Adds : Prop where
  nodup : (r.entries.map Prod.fst).Nodup
  opened : ∀ x ∈ r.entries, x.2.payoutId = none
  stored : ∀ type, r.stored type = readSum r.entries type
  total : r.total = r.baseAmount + r.tips + r.bonuses - r.deductions - r.advances
  cents : IsCents r.total

end PayComputation

theorem sumOf_eq_readSum {rows : List (ℕ × BarberPayEntry)} (hcents : ∀ x ∈ rows, IsCents x.2.amount)
    (type : EntryType) : sumOf rows type = readSum rows type := by
  have hsum : ∀ rows : List (ℕ × BarberPayEntry),
      ((rows.filter fun x => x.2.type == type).map (·.2.amount)).sum = readSum rows type := by
    intro rows
    induction rows with
    | nil => rfl
    | cons x rows ih =>
      rw [readSum, List.map_cons, List.sum_cons, ← readSum, ← ih, List.filter_cons]
      by_cases hx : x.2.type = type <;> simp [hx]
  rw [sumOf, hsum]
  refine (List.sum_induction IsCents (fun _ _ => IsCents.add) isCents_zero ?_).round2_eq
  intro v hv
  obtain ⟨x, hx, rfl⟩ := List.mem_map.1 hv
  split
  · exact hcents x hx
  · exact isCents_zero

theorem compute_adds {config : Option BarberPayConfig} {row : Option CommissionRow}
    {rows : List (ℕ × BarberPayEntry)} {start stop : ℤ} (hnodup : (rows.map Prod.fst).Nodup)
    (hopen : ∀ x ∈ rows, x.2.payoutId = none) (hcents : ∀ x ∈ rows, IsCents x.2.amount) :
    (compute config row rows start stop).Adds where
  nodup := hnodup
  opened := hopen
  stored type := by
    cases type <;> exact sumOf_eq_readSum hcents _
  total := by
    simp only [compute]
    generalize baseOf .. = base
    have hsums : IsCents (sumOf rows .tip + sumOf rows .bonus - sumOf rows .deduction -
        sumOf rows .advance) :=
      (((isCents_round2 _).add (isCents_round2 _)).sub (isCents_round2 _)).sub (isCents_round2 _)
    rw [show base + sumOf rows .tip + sumOf rows .bonus - sumOf rows .deduction -
      sumOf rows .advance = base + (sumOf rows .tip + sumOf rows .bonus - sumOf rows .deduction -
        sumOf rows .advance) by ring, hsums.round2_add]
    ring
  cents := isCents_round2 _

/-! ## What a request relies on -/

/-- The entry that was read is there as it was, but for its payout, or is gone. -/
def Payroll.RecallsEntry (s : Payroll) (x : ℕ × BarberPayEntry) : Prop :=
  x.1 < s.entries.next ∧ ∀ e, s.entries.get? x.1 = some e → x.2.Same e

def Payroll.RecallsPayout (s : Payroll) (id : ℕ) (p : BarberPayout) : Prop :=
  id < s.payouts.next ∧ ∀ q, s.payouts.get? id = some q → p = q

/-- No payout is in the period. -/
def Payroll.Free (s : Payroll) (start stop : ℤ) : Prop :=
  ∀ {i q}, s.payouts.get? i = some q → q.overlaps start stop = false

namespace PayrollCall

/-- The request holds the advisory lock. -/
def holds : PayrollCall → Bool
  | overlapping _ | computing _ | committing _ _ => true
  | _ => false

def Ok (s : Payroll) : PayrollCall → Prop
  | findingSession o | entering o _ => IsCents o.amount
  | computing o => s.Free o.start o.stop
  | committing o r => s.Free o.start o.stop ∧ r.Adds ∧ ∀ x ∈ r.entries, s.RecallsEntry x
  | checkingPayoutCash id p | checkingCarryOver id p | undoing id p => s.RecallsPayout id p
  | _ => True

end PayrollCall

/-- Between an earlier and a later state, when the step's request holds the lock or not. -/
structure PayrollKeeps (holds : Bool) (s s' : Payroll) : Prop where
  entries : Table.Evolves BarberPayEntry.Same s.entries s'.entries
  payouts : Table.Evolves (fun p q => p = q) s.payouts s'.payouts
  locked : holds = false → s.locked = true → s'.locked = true
  paid : holds = false → ∀ {i p}, s'.payouts.get? i = some p → s.payouts.get? i = some p

namespace PayrollKeeps

variable {b : Bool} {s s' : Payroll}

theorem of_entries (h : Table.Evolves BarberPayEntry.Same s.entries s'.entries)
    (hpayouts : s'.payouts = s.payouts) (hlocked : s'.locked = s.locked) :
    PayrollKeeps b s s' where
  entries := h
  payouts := hpayouts ▸ .refl (fun _ => rfl) _
  locked _ hl := hlocked.trans hl
  paid _ _ _ hi := hpayouts ▸ hi

theorem recallsEntry (h : PayrollKeeps b s s') {x : ℕ × BarberPayEntry} (hx : s.RecallsEntry x) :
    s'.RecallsEntry x := by
  refine ⟨hx.1.trans_le h.entries.next_le, fun e' he' => ?_⟩
  obtain ⟨e, he, hsame⟩ := h.entries.row _ _ he' hx.1
  exact (hx.2 e he).trans hsame

theorem recallsPayout (h : PayrollKeeps b s s') {id : ℕ} {p : BarberPayout}
    (hp : s.RecallsPayout id p) : s'.RecallsPayout id p := by
  refine ⟨hp.1.trans_le h.payouts.next_le, fun q' hq' => ?_⟩
  obtain ⟨q, hq, rfl⟩ := h.payouts.row _ _ hq' hp.1
  exact hp.2 q hq

theorem free (h : PayrollKeeps false s s') {start stop : ℤ} (hf : s.Free start stop) :
    s'.Free start stop :=
  fun hi => hf (h.paid rfl hi)

theorem ok (h : PayrollKeeps b s s') {c : PayrollCall} (hb : c.holds = true → b = false)
    (hc : c.Ok s) : c.Ok s' := by
  cases c with
  | findingSession o | entering o _ => exact hc
  | computing o =>
    obtain rfl := hb rfl
    exact h.free hc
  | committing o r =>
    obtain rfl := hb rfl
    exact ⟨h.free hc.1, hc.2.1, fun x hx => h.recallsEntry (hc.2.2 x hx)⟩
  | checkingPayoutCash id p | checkingCarryOver id p | undoing id p => exact h.recallsPayout hc
  | addEntry _ _ | deleteEntry _ _ | lookingForTip _ _ | checkingEntryCash _ _ | deleting _ _
  | pay _ _ | locking _ | overlapping _ | undoPayout _ _ => trivial

end PayrollKeeps

/-! ## The steps -/

/-- A request that held the lock, or not, has moved on, or ended. -/
structure PayrollGoes (holds : Bool) (s s' : Payroll) (c : Option PayrollCall) : Prop where
  books : LedgerBooks s'.entries s'.payouts
  keeps : PayrollKeeps holds s s'
  ok : ∀ a ∈ c, a.Ok s'
  /-- A lock that it takes was free. -/
  locks : ∀ a ∈ c, a.holds = true → s'.locked = true ∧ (holds = true ∨ s.locked = false)

namespace PayrollGoes

variable {b : Bool} {s s' : Payroll}

/-- A step that only reads, of a request that does not go on with a lock. -/
theorem look (h : LedgerBooks s.entries s.payouts) {c : Option PayrollCall}
    (hok : ∀ a ∈ c, a.Ok s) (hno : ∀ a ∈ c, a.holds = false) : PayrollGoes b s s c where
  books := h
  keeps := .of_entries (.refl BarberPayEntry.Same.refl _) rfl rfl
  ok := hok
  locks a ha hl := by simp [hno a ha] at hl

theorem done (h : LedgerBooks s'.entries s'.payouts) (hkeeps : PayrollKeeps b s s') :
    PayrollGoes b s s' none where
  books := h
  keeps := hkeeps
  ok := by simp
  locks := by simp

/-- A check that throws ends the request. -/
theorem goOn {α : Type} {x : Result α} {f : α → PayrollCall}
    (h : LedgerBooks s.entries s.payouts) (hok : ∀ a, x = .ok a → (f a).Ok s)
    (hno : ∀ a, (f a).holds = false) : PayrollGoes b s s (PayrollCall.goOn x f).running := by
  cases x with
  | error e => exact .done h (.of_entries (.refl BarberPayEntry.Same.refl _) rfl rfl)
  | ok a =>
    change PayrollGoes b s s (some (f a))
    refine .look h ?_ ?_
    · simpa using hok a rfl
    · simpa using hno a

end PayrollGoes

section Steps

variable {cal : ShopCalendar} {barberUserId : Option ℕ} {row : Option CommissionRow} {s : Payroll}

theorem checkEntry_cents {ctx : Caller} {data : EntryInput} {o : EntryOrder}
    (h : checkEntry cal barberUserId ctx data = .ok o) : IsCents o.amount := by
  simp only [checkEntry, bind_eq_ok, pure_eq_ok] at h
  obtain ⟨-, -, -, -, type, -, -, -, -, -, date, -, rfl⟩ := h
  exact isCents_round2 _

/-- The entry that `addEntry` writes is open, and an advance has an expense. -/
theorem EntryOrder.commit_eq (o : EntryOrder) (cashSessionId : Option ℕ) (s : Payroll) :
    ∃ e expenses, o.commit cashSessionId s =
        { s with
          expenses := expenses
          entries := s.entries.insert e } ∧
      e.payoutId = none ∧ e.isCarryOver = false ∧ e.amount = o.amount := by
  unfold EntryOrder.commit
  split
  · exact ⟨_, _, rfl, rfl, by simp [EntryOrder.entry, BarberPayEntry.isCarryOver], rfl⟩
  · next htype =>
    exact ⟨_, _, rfl, rfl, by simp [EntryOrder.entry, BarberPayEntry.isCarryOver, htype], rfl⟩

theorem EntryOrder.goes {o : EntryOrder} (cashSessionId : Option ℕ) (hcents : IsCents o.amount)
    (h : LedgerBooks s.entries s.payouts) :
    PayrollGoes false s (o.commit cashSessionId s) none := by
  obtain ⟨e, expenses, heq, hopen, hcarry, hamount⟩ := o.commit_eq cashSessionId s
  rw [heq]
  refine .done (h.insert hopen hcarry (hamount ▸ hcents)) (.of_entries ?_ rfl rfl)
  exact (Table.Evolves.refl BarberPayEntry.Same.refl _).insert e

/-- The carry-over that a payout leaves. -/
def PayoutOrder.leaves (o : PayoutOrder) (r : PayComputation) : Option BarberPayEntry :=
  if r.total < 0 then some (o.carryOver r) else none

theorem PayoutOrder.commit_eq (o : PayoutOrder) (r : PayComputation) (s : Payroll) :
    ∃ expenses expenseId, o.commit r s =
      { s with
        expenses := expenses
        payouts := s.payouts.insert
          (o.payout r expenseId ((o.leaves r).map fun _ => s.entries.next))
        entries := afterPayout s.entries r.entries s.payouts.next (o.leaves r)
        locked := false } := by
  unfold PayoutOrder.commit PayoutOrder.leaves afterPayout
  refine ⟨if decide (0 < toPay r) then s.expenses.insert (o.expense r) else s.expenses,
    if decide (0 < toPay r) then some s.expenses.next else none, ?_⟩
  by_cases hneg : r.total < 0 <;> simp only [hneg, if_true, if_false] <;> rfl

theorem PayoutOrder.left_eq {o : PayoutOrder} {r : PayComputation} (hr : r.Adds)
    (expenseId carryOverEntryId : Option ℕ) :
    (o.payout r expenseId carryOverEntryId).left = (o.leaves r).elim 0 (·.amount) := by
  have htotal := hr.total
  simp only [BarberPayout.left, BarberPayout.gross, PayoutOrder.payout, PayoutOrder.toPay,
    PayoutOrder.leaves]
  by_cases hneg : r.total < 0
  · rw [if_pos hneg, max_eq_right hneg.le, Option.elim_some, PayoutOrder.carryOver,
      hr.cents.neg.round2_eq]
    linarith
  · rw [if_neg hneg, max_eq_left (not_lt.1 hneg), Option.elim_none]
    linarith

theorem evolves_afterPayout (t : Table BarberPayEntry) (rows : List (ℕ × BarberPayEntry)) (n : ℕ)
    (carry : Option BarberPayEntry) :
    Table.Evolves BarberPayEntry.Same t (afterPayout t rows n carry) := by
  have hattached : Table.Evolves BarberPayEntry.Same t
      (t.modifyAll (BarberPayEntry.attach (rows.map (·.1)) n)) :=
    Table.Evolves.modifyAll (E := BarberPayEntry.Same) BarberPayEntry.Same.trans
      (.refl BarberPayEntry.Same.refl t) fun k a _ => BarberPayEntry.same_attach _ n k a
  cases carry with
  | none => exact hattached
  | some e => exact hattached.insert e

/-- A payout of the open entries of the books leaves books. -/
theorem PayoutOrder.books {o : PayoutOrder} {r : PayComputation} (hfree : s.Free o.start o.stop)
    (hr : r.Adds) (hrows : ∀ x ∈ r.entries, s.entries.get? x.1 = some x.2 ∧ x.2.payoutId = none)
    (h : LedgerBooks s.entries s.payouts) :
    LedgerBooks (o.commit r s).entries (o.commit r s).payouts := by
  obtain ⟨expenses, expenseId, heq⟩ := o.commit_eq r s
  rw [heq]
  refine h.payout hr.nodup hrows hfree (fun type => ?_) (fun e he => ?_) rfl (o.left_eq hr _ _)
  · rw [← hr.stored type]
    cases type <;> rfl
  · unfold PayoutOrder.leaves at he
    split at he
    · obtain rfl := Option.some.inj he
      exact ⟨rfl, rfl, isCents_round2 _⟩
    · cases he

theorem PayoutOrder.goes {o : PayoutOrder} {r : PayComputation} (hfree : s.Free o.start o.stop)
    (hr : r.Adds) (hrecalls : ∀ x ∈ r.entries, s.RecallsEntry x)
    (hkept : (r.entries.all fun e => (s.entries.get? e.1).any (·.payoutId.isNone)) = true)
    (h : LedgerBooks s.entries s.payouts) : PayrollGoes true s (o.commit r s) none := by
  have hrows : ∀ x ∈ r.entries, s.entries.get? x.1 = some x.2 ∧ x.2.payoutId = none := by
    intro x hx
    obtain ⟨e, he, hopen⟩ := (Option.any_eq_true _ _).1 (List.all_eq_true.1 hkept x hx)
    have hnone := hr.opened x hx
    have heq := ((hrecalls x hx).2 e he).eq ((Option.isNone_iff_eq_none.1 hopen).trans hnone.symm)
    exact ⟨heq ▸ he, hnone⟩
  have hbooks := o.books hfree hr hrows h
  obtain ⟨expenses, expenseId, heq⟩ := o.commit_eq r s
  rw [heq] at hbooks ⊢
  exact .done hbooks {
    entries := evolves_afterPayout ..
    payouts := (Table.Evolves.refl (fun _ => rfl) _).insert _
    locked := by simp
    paid := by simp }

/-- What is computed from the open entries. -/
theorem Payroll.openEntries_adds (h : LedgerBooks s.entries s.payouts) (row : Option CommissionRow)
    (start stop : ℤ) :
    (compute s.config row (s.openEntries stop) start stop).Adds ∧
      ∀ x ∈ (compute s.config row (s.openEntries stop) start stop).entries,
        s.entries.get? x.1 = some x.2 ∧ x.2.payoutId = none := by
  have hmem : ∀ x ∈ s.openEntries stop, s.entries.get? x.1 = some x.2 ∧ x.2.payoutId = none := by
    intro x hx
    obtain ⟨hget, hopen⟩ := Table.mem_filter.1 hx
    rw [Bool.and_eq_true, Option.isNone_iff_eq_none] at hopen
    exact ⟨hget, hopen.1⟩
  exact ⟨compute_adds (Table.nodup_filter ..) (fun x hx => (hmem x hx).2)
    fun x hx => h.cents (hmem x hx).1, hmem⟩

theorem Payroll.dropEntry_goes {id : ℕ} {e e₀ : BarberPayEntry} (hid : s.entries.get? id = some e₀)
    (hopen : e₀.payoutId = none)
    (hcarry : (s.payouts.any fun _ p => p.carryOverEntryId == some id) = false)
    (h : LedgerBooks s.entries s.payouts) : PayrollGoes false s (s.dropEntry id e) none := by
  refine .done (h.erase hid hopen fun hi hp => ?_) (.of_entries ?_ rfl rfl)
  · have := Table.any_eq_false.1 hcarry _ _ hi
    simp [hp] at this
  · exact (Table.Evolves.refl BarberPayEntry.Same.refl _).erase id

theorem Payroll.dropPayout_goes {id : ℕ} {p : BarberPayout} (hid : s.payouts.get? id = some p)
    (hopen : (p.carryOverEntryId.bind s.entries.get?).all (·.payoutId.isNone) = true)
    (h : LedgerBooks s.entries s.payouts) : PayrollGoes false s (s.dropPayout id p) none := by
  refine .done (h.undo hid fun c e hc he => ?_) {
    entries := ?_
    payouts := (Table.Evolves.refl (fun _ => rfl) _).erase id
    locked := fun _ hl => hl
    paid := ?_ }
  · simpa [hc, he] using hopen
  · refine Table.Evolves.modifyAll (E := BarberPayEntry.Same) BarberPayEntry.Same.trans ?_
      fun _ e _ => BarberPayEntry.same_detach id e
    cases p.carryOverEntryId with
    | none => exact .refl BarberPayEntry.Same.refl _
    | some c => exact (Table.Evolves.refl BarberPayEntry.Same.refl _).erase c
  · intro _ i q hi
    simp only [Payroll.dropPayout, Table.get?_erase] at hi
    split at hi
    · cases hi
    · exact hi

theorem PayrollCall.goes {c : PayrollCall} (hok : c.Ok s) (hlock : c.holds = true → s.locked = true)
    (hkept : c.keepsLedger s = true) (h : LedgerBooks s.entries s.payouts)
    {r : Payroll × PayrollCall.Goes} (hr : c.step cal barberUserId row s = some r) :
    PayrollGoes c.holds s r.1 r.2.running := by
  cases c with
  | addEntry ctx data =>
    obtain rfl := Option.some.inj hr
    refine .goOn h (fun o ho => ?_) fun o => ?_
    · have hcents := checkEntry_cents ho
      split <;> exact hcents
    · split <;> rfl
  | findingSession o =>
    obtain rfl := Option.some.inj hr
    refine .look h ?_ (by simp [PayrollCall.holds])
    rintro _ ⟨⟩
    exact hok
  | entering o cashSessionId =>
    obtain rfl := Option.some.inj hr
    exact o.goes cashSessionId hok h
  | deleteEntry ctx id =>
    obtain rfl := Option.some.inj hr
    exact .goOn h (fun _ _ => trivial) fun _ => rfl
  | lookingForTip id e =>
    obtain rfl := Option.some.inj hr
    exact .goOn h (fun _ _ => trivial) fun _ => rfl
  | checkingEntryCash id e =>
    obtain rfl := Option.some.inj hr
    exact .goOn h (fun _ _ => trivial) fun _ => rfl
  | deleting id e =>
    simp only [PayrollCall.step] at hr
    split at hr
    · obtain rfl := Option.some.inj hr
      exact .look h (by simp) (by simp)
    · next hsome =>
      obtain rfl := Option.some.inj hr
      obtain ⟨e₀, he₀⟩ := Option.ne_none_iff_exists'.1 (by simpa using hsome)
      simp only [PayrollCall.keepsLedger, he₀, Option.all_some, Bool.and_eq_true,
        Option.isNone_iff_eq_none, Bool.not_eq_true'] at hkept
      exact Payroll.dropEntry_goes he₀ hkept.1 hkept.2 h
  | pay ctx data =>
    obtain rfl := Option.some.inj hr
    exact .goOn h (fun _ _ => trivial) fun _ => rfl
  | locking o =>
    simp only [PayrollCall.step] at hr
    obtain ⟨hfree, heq⟩ := Option.ite_none_left_eq_some.1 hr
    obtain rfl := Option.some.inj heq
    exact {
      books := h
      keeps := ⟨.refl BarberPayEntry.Same.refl _, .refl (fun _ => rfl) _, fun _ _ => rfl,
        fun _ _ _ hi => hi⟩
      ok := by simp [PayrollCall.Ok]
      locks := fun _ _ _ => ⟨rfl, .inr (by simpa using hfree)⟩ }
  | overlapping o =>
    simp only [PayrollCall.step] at hr
    split at hr
    · obtain rfl := Option.some.inj hr
      exact .done h ⟨.refl BarberPayEntry.Same.refl _, .refl (fun _ => rfl) _,
        by simp [PayrollCall.holds], by simp [PayrollCall.holds]⟩
    · next hnone =>
      obtain rfl := Option.some.inj hr
      have hfree : s.Free o.start o.stop := fun hi => Table.find?_none.1 hnone _ _ hi
      refine {
        books := h
        keeps := .of_entries (.refl BarberPayEntry.Same.refl _) rfl rfl
        ok := ?_
        locks := fun _ _ _ => ⟨hlock rfl, .inl rfl⟩ }
      rintro _ ⟨⟩
      exact fun hi => hfree hi
  | computing o =>
    obtain rfl := Option.some.inj hr
    obtain ⟨hadds, hmem⟩ := Payroll.openEntries_adds h row o.start o.stop
    refine {
      books := h
      keeps := .of_entries (.refl BarberPayEntry.Same.refl _) rfl rfl
      ok := ?_
      locks := fun _ _ _ => ⟨hlock rfl, .inl rfl⟩ }
    rintro _ ⟨⟩
    refine ⟨hok, hadds, fun x hx => ⟨Table.lt_next_of_get? (hmem x hx).1, fun e he => ?_⟩⟩
    obtain rfl := Option.some.inj ((hmem x hx).1.symm.trans he)
    exact .refl _
  | committing o r₀ =>
    obtain rfl := Option.some.inj hr
    obtain ⟨hfree, hadds, hrecalls⟩ := hok
    exact PayoutOrder.goes hfree hadds hrecalls hkept h
  | undoPayout ctx id =>
    obtain rfl := Option.some.inj hr
    refine .goOn h (fun p hp => ?_) fun _ => rfl
    simp only [bind_eq_ok, orRefuse_eq_ok, pure_eq_ok] at hp
    obtain ⟨-, -, q, hq, -, -, rfl⟩ := hp
    exact ⟨Table.lt_next_of_get? hq, fun q' hq' => Option.some.inj (hq.symm.trans hq')⟩
  | checkingPayoutCash id p =>
    obtain rfl := Option.some.inj hr
    exact .goOn h (fun _ _ => hok) fun _ => rfl
  | checkingCarryOver id p =>
    obtain rfl := Option.some.inj hr
    exact .goOn h (fun _ _ => hok) fun _ => rfl
  | undoing id p =>
    simp only [PayrollCall.step] at hr
    split at hr
    · obtain rfl := Option.some.inj hr
      exact .look h (by simp) (by simp)
    · next hsome =>
      obtain rfl := Option.some.inj hr
      obtain ⟨q, hq⟩ := Option.ne_none_iff_exists'.1 (by simpa using hsome)
      obtain rfl := hok.2 q hq
      exact Payroll.dropPayout_goes hq hkept h

end Steps

/-! ## Whole runs -/

/-- The books; what each request relies on; and one request at most holds the lock. -/
def payrollInv : CallInv Payroll PayrollCall ℕ where
  weight _ := 0
  whole s _ := LedgerBooks s.entries s.payouts
  each s c := c.Ok s ∧ (c.holds = true → s.locked = true)
  pair a b := ¬ (a.holds = true ∧ b.holds = true)
  symm h hab := h hab.symm

section Runs

variable {cal : ShopCalendar} {barberUserId : Option ℕ} {row : Option CommissionRow} {s : Payroll}

theorem PayrollGoes.kept {b : Bool} {c : Option PayrollCall} {r : Payroll × Option PayrollCall}
    {m : ℕ} (h : PayrollGoes b s r.1 r.2) (hb : b = true → ∃ a ∈ c, a.holds = true) :
    payrollInv.Kept s c m r.1 r.2 where
  whole := h.books
  mine a ha := ⟨h.ok a ha, fun hl => (h.locks a ha hl).1⟩
  others d hd hpair := by
    have hfree : d.holds = true → b = false := by
      intro hl
      rw [← Bool.not_eq_true]
      intro hbt
      obtain ⟨a, ha, hal⟩ := hb hbt
      exact hpair a ha ⟨hal, hl⟩
    exact ⟨h.keeps.ok hfree hd.1, fun hl => h.keeps.locked (hfree hl) (hd.2 hl)⟩
  apart d hd hpair a ha := by
    rintro ⟨hal, hdl⟩
    rcases (h.locks a ha hal).2 with hbt | hunlocked
    · obtain ⟨a₀, ha₀, hl₀⟩ := hb hbt
      exact hpair a₀ ha₀ ⟨hl₀, hdl⟩
    · simp [hd.2 hdl] at hunlocked

theorem PayrollCall.keeps {c : PayrollCall} (hkept : c.keepsLedger s = true)
    {r : Payroll × Option PayrollCall} (hr : (payrollCalls cal barberUserId).step row c s = some r) :
    payrollInv.Keeps s (some c) r := by
  intro m h hc
  obtain ⟨hok, hlock⟩ := hc c rfl
  obtain ⟨r₀, hr₀, rfl⟩ := Option.map_eq_some_iff.1 hr
  exact (PayrollCall.goes hok hlock hkept h hr₀).kept fun hl => ⟨c, rfl, hl⟩

theorem PayrollEvent.keeps {e : PayrollEvent} {r : Payroll × Option PayrollCall}
    (hr : (payrollCalls cal barberUserId).event e s = some r) : payrollInv.Keeps s none r := by
  intro m h _
  refine PayrollGoes.kept (b := false) ?_ (by simp)
  cases e with
  | arrive c =>
    obtain ⟨hstarts, heq⟩ := Option.ite_none_right_eq_some.1 hr
    obtain rfl := Option.some.inj heq
    refine .look h ?_ ?_
    · rintro _ ⟨⟩
      cases c <;> trivial
    · rintro _ ⟨⟩
      cases c <;> first | rfl | cases hstarts
  | tip amount method date =>
    obtain rfl := Option.some.inj hr
    refine .done (h.insert rfl rfl (isCents_round2 _)) (.of_entries ?_ rfl rfl)
    exact (Table.Evolves.refl BarberPayEntry.Same.refl _).insert _
  | configure config =>
    obtain rfl := Option.some.inj hr
    exact .done h (.of_entries (.refl BarberPayEntry.Same.refl _) rfl rfl)
  | cash sessions =>
    obtain rfl := Option.some.inj hr
    exact .done h (.of_entries (.refl BarberPayEntry.Same.refl _) rfl rfl)

end Runs

/-! ## Two runs -/

/-- Days of UTC. -/
def utcCalendar : ShopCalendar where
  midnight day := day * DAY_MS
  dayOf instant := instant / DAY_MS
  dateStr day := toString day

/-- An advance of 100, a period with a commission of 60, the next with 100, and its undoing. -/
def carriedOver : List (Move PayrollEvent (Option CommissionRow)) :=
  [.event (.arrive (.addEntry (owner 0) ⟨some .advance, 100, some .pix, none⟩))] ++
    List.replicate 3 (.step 1 none) ++
    [.event (.arrive (.pay (owner (10 * DAY_MS)) ⟨some 0, some 9, .pix⟩))] ++
    List.replicate 5 (.step 2 (some ⟨1, 120, 0, 60⟩)) ++
    [.event (.arrive (.pay (owner (20 * DAY_MS)) ⟨some 10, some 19, .pix⟩))] ++
    List.replicate 5 (.step 3 (some ⟨2, 200, 0, 100⟩)) ++
    [.event (.arrive (.undoPayout (owner (20 * DAY_MS)) 2))] ++
    List.replicate 4 (.step 4 none)

/-- A bonus is read as open, enters a payout, and is deleted. -/
def deletedInside : List (Move PayrollEvent (Option CommissionRow)) :=
  [.event (.arrive (.addEntry (owner 0) ⟨some .bonus, 50, none, none⟩))] ++
    List.replicate 2 (.step 1 none) ++
    [.event (.arrive (.deleteEntry (owner 0) 1))] ++
    List.replicate 3 (.step 2 none) ++
    [.event (.arrive (.pay (owner (10 * DAY_MS)) ⟨some 0, some 9, .pix⟩))] ++
    List.replicate 5 (.step 3 none) ++ [.step 2 none]

end Barbershop
