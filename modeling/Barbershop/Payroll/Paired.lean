import Barbershop.Payment.Refund
import Barbershop.Payroll.Ledger
import Barbershop.Payroll.Tips

/-!
# Tips and pay entries stay paired

Every write goes by rows read before it, so what it owes to the pairs depends on what it meets:
`TipCall.keepsPairs` says of a write that the rows it goes by are still as they were read. In the runs
whose writes meet it, the tips that the unit received and the entries made for them are paired one to
one, with the amount of the tip and the professional of the appointment, and what is in a payout is
neither deleted nor moved.
-/

namespace Barbershop

open Lib

/-! ## Pairs -/

/-- A tip, its entry and its appointment agree. -/
structure StaffTip.Matches (t : StaffTip) (e : StaffEntry) (a : Appointment) : Prop where
  amount : e.entry.amount = t.amount
  barber : t.barberId = some e.barberId
  placed : e.barberId = a.barberId

namespace TipBooks

variable (s s' : TipBooks)

/-- The tips that the unit received for a professional. -/
def received : Set ℕ := {id | ∃ t, s.tips.get? id = some t ∧ t.destination = .professional ∧
  t.receivedByUnit = true}

/-- The entries that were made for tips. -/
def ofTips : Set ℕ := {id | ∃ e, s.entries.get? id = some e ∧ e.ofTip = true}

def payEntryId (id : ℕ) : Option ℕ := (s.tips.get? id).bind (·.payEntryId)

structure Paired : Prop where
  bijective : Set.BijOn s.payEntryId s.received (some '' s.ofTips)
  alike : ∀ {id t eid e}, s.tips.get? id = some t → t.payEntryId = some eid →
    s.entries.get? eid = some e → ∃ a, s.appointments.get? t.appointmentId = some a ∧ t.Matches e a

/-- What is in a payout is neither deleted nor moved. -/
def PaidKept : Prop := ∀ ⦃id e⦄, s.entries.get? id = some e → e.entry.payoutId.isSome = true →
  ∃ e', s'.entries.get? id = some e' ∧ e'.barberId = e.barberId

end TipBooks

/-! ## What a write has to meet -/

namespace TipCall

/-- A tip is added for the professional that the appointment has; what is removed is in no payout; of
what is moved, nothing is in a payout of another, and without a move the tips are with the professional
that is written. -/
def keepsPairs (c : TipCall) (s : TipBooks) : Bool :=
  match c with
  | adding o => !o.receivedByUnit ||
      (s.appointments.get? o.appointmentId).any (·.barberId == o.seen.barberId)
  | removing id tip => (s.tips.get? id).isNone || !s.paidEntry tip.payEntryId
  | moving o =>
    if o.barberChanged then (s.tipsFor o.appointmentId).all fun r =>
      (r.2.payEntryId.bind s.entries.get?).all fun e =>
        e.entry.payoutId.isNone || e.barberId == o.barberId
    else o.data.barberId.all fun b => (s.tipsFor o.appointmentId).all fun r =>
      !r.2.receivedByUnit || r.2.barberId == some b
  | undoing id p => (s.payouts.get? id).isNone || !s.paidEntry p.payout.carryOverEntryId
  | _ => true

/-- The same, of a step that writes if it does not end the call. -/
def stepKeepsPairs (k : TipStep) (c : TipCall) (s : TipBooks) : Bool :=
  match k with
  | .next _ => c.keepsPairs s
  | .ends => true

end TipCall

/-! ## The books -/

/-- The tip points to the same entry. -/
def StaffTip.Same (t t' : StaffTip) : Prop := t'.payEntryId = t.payEntryId

/-- The entry was made for a tip or was not. -/
def StaffEntry.Same (e e' : StaffEntry) : Prop := e'.ofTip = e.ofTip

theorem StaffTip.Same.refl (t : StaffTip) : t.Same t := rfl

theorem StaffTip.Same.trans {t u v : StaffTip} (h : t.Same u) (h' : u.Same v) : t.Same v :=
  Eq.trans h' h

theorem StaffEntry.Same.refl (e : StaffEntry) : e.Same e := rfl

theorem StaffEntry.Same.trans {e x y : StaffEntry} (h : e.Same x) (h' : x.Same y) : e.Same y :=
  Eq.trans h' h

def Appointment.KeepsBarber (a a' : Appointment) : Prop := a'.barberId = a.barberId

theorem Appointment.KeepsBarber.refl (a : Appointment) : a.KeepsBarber a := rfl

structure StaffTip.Ok (t : StaffTip) : Prop where
  received : t.receivedByUnit = true ↔ t.payEntryId.isSome = true
  professional : t.receivedByUnit = true → t.destination = .professional

namespace TipBooks

variable {s s' : TipBooks}

/-- An entry of no tip, or one that is gone. -/
def Other (s : TipBooks) (id : ℕ) : Prop :=
  id < s.entries.next ∧ ∀ ⦃e⦄, s.entries.get? id = some e → e.ofTip = false

structure Sound (s : TipBooks) : Prop where
  ok : ∀ {id t}, s.tips.get? id = some t → t.Ok
  entry : ∀ {id t eid}, s.tips.get? id = some t → t.payEntryId = some eid →
    ∃ e a, s.entries.get? eid = some e ∧ e.ofTip = true ∧
      s.appointments.get? t.appointmentId = some a ∧ t.Matches e a
  unique : ∀ {i j t u eid}, s.tips.get? i = some t → s.tips.get? j = some u →
    t.payEntryId = some eid → u.payEntryId = some eid → i = j
  tip : ∀ {eid e}, s.entries.get? eid = some e → e.ofTip = true →
    ∃ id t, s.tips.get? id = some t ∧ t.payEntryId = some eid
  carryOver : ∀ {id p c}, s.payouts.get? id = some p → p.payout.carryOverEntryId = some c →
    s.Other c

theorem Sound.paired (h : s.Sound) : s.Paired where
  bijective := by
    refine ⟨?_, ?_, ?_⟩
    · rintro id ⟨t, ht, -, hreceived⟩
      obtain ⟨eid, heid⟩ := Option.isSome_iff_exists.1 ((h.ok ht).received.1 hreceived)
      obtain ⟨e, -, he, hof, -⟩ := h.entry ht heid
      refine ⟨eid, ⟨e, he, hof⟩, ?_⟩
      rw [payEntryId, ht, Option.bind_some, heid]
    · rintro i ⟨t, ht, -, hreceived⟩ j ⟨u, hu, -, -⟩ hij
      obtain ⟨eid, heid⟩ := Option.isSome_iff_exists.1 ((h.ok ht).received.1 hreceived)
      rw [payEntryId, payEntryId, ht, hu, Option.bind_some, Option.bind_some, heid] at hij
      exact h.unique ht hu heid hij.symm
    · rintro _ ⟨eid, ⟨e, he, hof⟩, rfl⟩
      obtain ⟨id, t, ht, heid⟩ := h.tip he hof
      have hreceived : t.receivedByUnit = true := (h.ok ht).received.2 (by rw [heid]; rfl)
      refine ⟨id, ⟨t, ht, (h.ok ht).professional hreceived, hreceived⟩, ?_⟩
      rw [payEntryId, ht, Option.bind_some, heid]
  alike ht heid he := by
    obtain ⟨e', a, he', -, ha, hmatch⟩ := h.entry ht heid
    obtain rfl := Option.some.inj (he.symm.trans he')
    exact ⟨a, ha, hmatch⟩

/-- What one move leaves: the books stay sound, a tip keeps its entry, and an entry keeps what it was
made for. -/
structure Moves (s s' : TipBooks) : Prop where
  sound : s'.Sound
  tips : Table.Evolves StaffTip.Same s.tips s'.tips
  entries : Table.Evolves StaffEntry.Same s.entries s'.entries

theorem Moves.trans {s'' : TipBooks} (h : s.Moves s') (h' : s'.Moves s'') : s.Moves s'' where
  sound := h'.sound
  tips := h.tips.trans StaffTip.Same.trans h'.tips
  entries := h.entries.trans StaffEntry.Same.trans h'.entries

theorem tips_refl (s : TipBooks) :
    Table.Evolves StaffTip.Same s.tips s.tips :=
  .refl StaffTip.Same.refl _

theorem entries_refl (s : TipBooks) :
    Table.Evolves StaffEntry.Same s.entries s.entries :=
  .refl StaffEntry.Same.refl _

theorem Other.evolve {c : ℕ} (h : s.Other c)
    (hentries : Table.Evolves StaffEntry.Same s.entries s'.entries) :
    s'.Other c := by
  refine ⟨h.1.trans_le hentries.next_le, fun e' he' => ?_⟩
  obtain ⟨e, he, hof⟩ := hentries.row c e' he' h.1
  exact Eq.trans hof (h.2 he)

/-! ### Writes -/

/-- Neither tips nor entries nor payouts are written, and the appointments of the tips that the unit
received keep their professional. -/
theorem Sound.aside (h : s.Sound) (htips : s'.tips = s.tips) (hentries : s'.entries = s.entries)
    (hpayouts : s'.payouts = s.payouts)
    (happointments : ∀ {id t a}, s.tips.get? id = some t → t.receivedByUnit = true →
      s.appointments.get? t.appointmentId = some a →
      ∃ a', s'.appointments.get? t.appointmentId = some a' ∧ a'.barberId = a.barberId) :
    s.Moves s' where
  sound := {
    ok := by
      rw [htips]
      exact h.ok
    entry := by
      rw [htips, hentries]
      intro id t eid ht heid
      obtain ⟨e, a, he, hof, ha, hmatch⟩ := h.entry ht heid
      have hreceived : t.receivedByUnit = true := (h.ok ht).received.2 (by rw [heid]; rfl)
      obtain ⟨a', ha', hbarber⟩ := happointments ht hreceived ha
      exact ⟨e, a', he, hof, ha', hmatch.amount, hmatch.barber, hmatch.placed.trans hbarber.symm⟩
    unique := by
      rw [htips]
      exact h.unique
    tip := by
      rw [htips, hentries]
      exact h.tip
    carryOver := by
      rw [hpayouts]
      intro id p c hp hc
      have hother := h.carryOver hp hc
      rw [Other, hentries]
      exact hother }
  tips := htips ▸ s.tips_refl
  entries := hentries ▸ s.entries_refl

/-- Appointments are written, and none loses its professional. -/
theorem Sound.appointments (h : s.Sound) {appointments : Table Appointment}
    (hlasts : s.appointments.Lasts Appointment.KeepsBarber appointments) :
    s.Moves { s with appointments := appointments } :=
  h.aside rfl rfl rfl fun _ _ ha => hlasts ha

/-- A tip that the unit does not hold. -/
theorem Sound.give (h : s.Sound) {t : StaffTip} (hreceived : t.receivedByUnit = false)
    (hnone : t.payEntryId = none) : s.Moves { s with tips := s.tips.insert t } where
  sound := {
    ok := by
      intro id u hu
      rcases Table.get?_insert_cases hu with ⟨rfl, rfl⟩ | hu
      · exact ⟨by simp [hreceived, hnone], by simp [hreceived]⟩
      · exact h.ok hu
    entry := by
      intro id u eid hu heid
      rcases Table.get?_insert_cases hu with ⟨rfl, rfl⟩ | hu
      · rw [hnone] at heid
        cases heid
      · exact h.entry hu heid
    unique := by
      intro i j u v eid hu hv hue hve
      rcases Table.get?_insert_cases hu with ⟨rfl, rfl⟩ | hu
      · rw [hnone] at hue
        cases hue
      · rcases Table.get?_insert_cases hv with ⟨rfl, rfl⟩ | hv
        · rw [hnone] at hve
          cases hve
        · exact h.unique hu hv hue hve
    tip := by
      intro eid e he hof
      obtain ⟨id, u, hu, hue⟩ := h.tip he hof
      exact ⟨id, u, Table.get?_insert_of_some _ hu, hue⟩
    carryOver := h.carryOver }
  tips := s.tips_refl.insert t
  entries := s.entries_refl

/-- An entry that no tip is made for. -/
theorem Sound.enter (h : s.Sound) {e : StaffEntry} (he : e.ofTip = false) :
    s.Moves { s with entries := s.entries.insert e } where
  sound := {
    ok := h.ok
    entry := by
      intro id t eid ht heid
      obtain ⟨x, a, hx, hfacts⟩ := h.entry ht heid
      exact ⟨x, a, Table.get?_insert_of_some _ hx, hfacts⟩
    unique := h.unique
    tip := by
      intro eid x hx hof
      rcases Table.get?_insert_cases hx with ⟨rfl, rfl⟩ | hx
      · rw [he] at hof
        cases hof
      · exact h.tip hx hof
    carryOver := by
      intro id p c hp hc
      have hentries := s.entries_refl.insert e
      exact (h.carryOver hp hc).evolve hentries }
  tips := s.tips_refl
  entries := s.entries_refl.insert e

/-- A tip that the unit receives, with its entry. -/
theorem Sound.receive (h : s.Sound) {o : TipOrder} (hreceived : o.receivedByUnit = true)
    (hprofessional : o.destination = .professional) {a : Appointment}
    (ha : s.appointments.get? o.appointmentId = some a) (hbarber : a.barberId = o.seen.barberId)
    (cashSessionId : Option ℕ) : s.Moves { s with
      entries := s.entries.insert o.entry
      tips := s.tips.insert (o.tip (some s.entries.next) cashSessionId) } where
  sound := {
    ok := by
      intro id u hu
      rcases Table.get?_insert_cases hu with ⟨rfl, rfl⟩ | hu
      · exact ⟨by simp [TipOrder.tip, hreceived], fun _ => hprofessional⟩
      · exact h.ok hu
    entry := by
      intro id u eid hu heid
      rcases Table.get?_insert_cases hu with ⟨rfl, rfl⟩ | hu
      · obtain rfl := Option.some.inj heid
        refine ⟨o.entry, a, Table.get?_insert_self _ _, rfl, ha, rfl, ?_, hbarber.symm⟩
        rw [TipOrder.tip, if_pos hprofessional, TipOrder.entry]
      · obtain ⟨x, b, hx, hfacts⟩ := h.entry hu heid
        exact ⟨x, b, Table.get?_insert_of_some _ hx, hfacts⟩
    unique := by
      have hfresh : ∀ {j v}, s.tips.get? j = some v → v.payEntryId ≠ some s.entries.next := by
        intro j v hv hve
        obtain ⟨x, -, hx, -⟩ := h.entry hv hve
        rw [Table.get?_next] at hx
        cases hx
      intro i j u v eid hu hv hue hve
      rcases Table.get?_insert_cases hu with ⟨rfl, rfl⟩ | hu
      · obtain rfl := Option.some.inj hue
        rcases Table.get?_insert_cases hv with ⟨rfl, -⟩ | hv
        · rfl
        · exact absurd hve (hfresh hv)
      · rcases Table.get?_insert_cases hv with ⟨rfl, rfl⟩ | hv
        · obtain rfl := Option.some.inj hve
          exact absurd hue (hfresh hu)
        · exact h.unique hu hv hue hve
    tip := by
      intro eid x hx hof
      rcases Table.get?_insert_cases hx with ⟨rfl, rfl⟩ | hx
      · exact ⟨_, _, Table.get?_insert_self _ _, rfl⟩
      · obtain ⟨id, u, hu, hue⟩ := h.tip hx hof
        exact ⟨id, u, Table.get?_insert_of_some _ hu, hue⟩
    carryOver := by
      intro id p c hp hc
      have hentries := s.entries_refl.insert o.entry
      exact (h.carryOver hp hc).evolve hentries }
  tips := s.tips_refl.insert _
  entries := s.entries_refl.insert _

/-- Entries are rewritten that keep what they are for, and whose they are. -/
theorem Sound.rewrite (h : s.Sound) {f : ℕ → StaffEntry → StaffEntry}
    (hof : ∀ id e, (f id e).ofTip = e.ofTip) (hamount : ∀ id e, (f id e).entry.amount = e.entry.amount)
    (hbarber : ∀ id e, (f id e).barberId = e.barberId) :
    s.Moves { s with entries := s.entries.modifyAll f } := by
  have hentries : Table.Evolves StaffEntry.Same s.entries (s.entries.modifyAll f) := by
    refine .modifyAll (E := StaffEntry.Same) StaffEntry.Same.trans s.entries_refl ?_
    exact fun id e _ => hof id e
  refine ⟨{
    ok := h.ok
    entry := ?_
    unique := h.unique
    tip := ?_
    carryOver := ?_ }, s.tips_refl, hentries⟩
  · intro id t eid ht heid
    obtain ⟨e, a, he, heof, ha, hmatch⟩ := h.entry ht heid
    refine ⟨f eid e, a, ?_, (hof eid e).trans heof, ha, (hamount eid e).trans hmatch.amount, ?_,
      (hbarber eid e).trans hmatch.placed⟩
    · rw [Table.get?_modifyAll, he, Option.map_some]
    · rw [hbarber]
      exact hmatch.barber
  · intro eid e' he' heof
    rw [Table.get?_modifyAll] at he'
    obtain ⟨e, he, rfl⟩ := Option.map_eq_some_iff.1 he'
    exact h.tip he ((hof eid e).symm.trans heof)
  · intro id p c hp hc
    exact (h.carryOver hp hc).evolve hentries

theorem Sound.eraseEntry (h : s.Sound) {c : ℕ} (hother : s.Other c) :
    s.Moves { s with entries := s.entries.erase c } := by
  have hentries : Table.Evolves StaffEntry.Same s.entries (s.entries.erase c) :=
    s.entries_refl.erase c
  refine ⟨{
    ok := h.ok
    entry := ?_
    unique := h.unique
    tip := ?_
    carryOver := ?_ }, s.tips_refl, hentries⟩
  · intro id t eid ht heid
    obtain ⟨e, a, he, heof, hfacts⟩ := h.entry ht heid
    have hne : eid ≠ c := by
      rintro rfl
      rw [hother.2 he] at heof
      cases heof
    exact ⟨e, a, by rw [Table.get?_erase, if_neg hne, he], heof, hfacts⟩
  · intro eid e he heof
    exact h.tip (Table.get?_erase_some he).2 heof
  · intro id p d hp hd
    exact (h.carryOver hp hd).evolve hentries

theorem Sound.keepPayout (h : s.Sound) {p : StaffPayout}
    (hother : ∀ {c}, p.payout.carryOverEntryId = some c → s.Other c) :
    s.Moves { s with payouts := s.payouts.insert p } where
  sound := {
    ok := h.ok
    entry := h.entry
    unique := h.unique
    tip := h.tip
    carryOver := by
      intro id q c hq hc
      rcases Table.get?_insert_cases hq with ⟨rfl, rfl⟩ | hq
      · exact hother hc
      · exact h.carryOver hq hc }
  tips := s.tips_refl
  entries := s.entries_refl

theorem Sound.erasePayout (h : s.Sound) (id : ℕ) :
    s.Moves { s with payouts := s.payouts.erase id } where
  sound := {
    ok := h.ok
    entry := h.entry
    unique := h.unique
    tip := h.tip
    carryOver := fun hp hc => h.carryOver (Table.get?_erase_some hp).2 hc }
  tips := s.tips_refl
  entries := s.entries_refl

/-- A tip is removed with the entry that it still points to. -/
theorem Sound.dropTip (h : s.Sound) {id : ℕ} {t tip : StaffTip} (ht : s.tips.get? id = some t)
    (hsame : t.payEntryId = tip.payEntryId) : s.Moves (s.dropTip id tip) := by
  have hentries : Table.Evolves StaffEntry.Same s.entries (s.dropTip id tip).entries := by
    unfold TipBooks.dropTip
    cases tip.payEntryId with
    | none => exact s.entries_refl
    | some eid => exact s.entries_refl.erase eid
  have hleft : ∀ {eid e}, (s.dropTip id tip).entries.get? eid = some e →
      s.entries.get? eid = some e ∧ t.payEntryId ≠ some eid := by
    intro eid e he
    rw [hsame]
    unfold TipBooks.dropTip at he
    cases heid : tip.payEntryId with
    | none =>
      rw [heid] at he
      exact ⟨he, by simp⟩
    | some k =>
      rw [heid] at he
      obtain ⟨hne, he⟩ := Table.get?_erase_some he
      exact ⟨he, fun heq => hne (Option.some.inj heq).symm⟩
  refine ⟨{
    ok := fun hu => h.ok (Table.get?_erase_some hu).2
    entry := ?_
    unique := fun hu hv => h.unique (Table.get?_erase_some hu).2 (Table.get?_erase_some hv).2
    tip := ?_
    carryOver := fun hp hc => (h.carryOver hp hc).evolve hentries }, s.tips_refl.erase id, hentries⟩
  · intro j u eid hu hue
    obtain ⟨hne, hu⟩ := Table.get?_erase_some hu
    obtain ⟨e, a, he, hfacts⟩ := h.entry hu hue
    refine ⟨e, a, ?_, hfacts⟩
    unfold TipBooks.dropTip
    cases heid : tip.payEntryId with
    | none => exact he
    | some k =>
      have hk : eid ≠ k := by
        rintro rfl
        exact hne (h.unique hu ht hue (hsame.trans heid))
      rw [Option.elim_some, Table.get?_erase, if_neg hk, he]
  · intro eid e he heof
    obtain ⟨he, hother⟩ := hleft he
    obtain ⟨j, u, hu, hue⟩ := h.tip he heof
    have hj : j ≠ id := by
      rintro rfl
      obtain rfl := Option.some.inj (hu.symm.trans ht)
      exact hother hue
    exact ⟨j, u, by rw [TipBooks.dropTip, Table.get?_erase, if_neg hj, hu], hue⟩

/-- The tips of an appointment that moves go with it, and what is in a payout is with the new
professional already. -/
theorem Sound.move (h : s.Sound) {o : MoveOrder} (hchanged : o.barberChanged = true)
    (hpaid : ∀ {id t e}, s.tips.get? id = some t → t.appointmentId = o.appointmentId →
      t.destination = .professional → t.payEntryId.bind s.entries.get? = some e →
      e.entry.payoutId = none ∨ e.barberId = o.barberId) : s.Moves (o.commit s) := by
  have hbarber : ∀ a : Appointment, (o.moveAppointment a).barberId = o.barberId := by
    intro a
    unfold MoveOrder.moveAppointment MoveOrder.barberId
    unfold MoveOrder.barberChanged at hchanged
    cases hdata : o.data.barberId with
    | none => simp [hdata] at hchanged
    | some b => rfl
  have htips : ∀ t, (o.moveTip t).payEntryId = t.payEntryId := by
    intro t
    unfold MoveOrder.moveTip
    split <;> rfl
  have hentry : ∀ ids id e, (o.moveEntry ids id e).ofTip = e.ofTip ∧
      (o.moveEntry ids id e).entry = e.entry := by
    intro ids id e
    unfold MoveOrder.moveEntry
    split <;> exact ⟨rfl, rfl⟩
  have htipsEvolve : Table.Evolves StaffTip.Same s.tips (s.tips.modifyAll fun _ => o.moveTip) := by
    refine .modifyAll (E := StaffTip.Same) StaffTip.Same.trans s.tips_refl ?_
    exact fun _ t _ => htips t
  have hentriesEvolve : Table.Evolves StaffEntry.Same s.entries (s.entries.modifyAll
      (o.moveEntry ((s.tipsFor o.appointmentId).map (·.2.payEntryId)))) := by
    refine .modifyAll (E := StaffEntry.Same) StaffEntry.Same.trans s.entries_refl ?_
    exact fun id e _ => (hentry _ id e).1
  unfold MoveOrder.commit
  rw [if_pos hchanged]
  refine ⟨{
    ok := ?_
    entry := ?_
    unique := ?_
    tip := ?_
    carryOver := fun hp hc => (h.carryOver hp hc).evolve hentriesEvolve }, htipsEvolve, hentriesEvolve⟩
  · intro id t' ht'
    rw [Table.get?_modifyAll] at ht'
    obtain ⟨t, ht, rfl⟩ := Option.map_eq_some_iff.1 ht'
    have hok := h.ok ht
    unfold MoveOrder.moveTip
    split
    · exact ⟨hok.received, hok.professional⟩
    · exact hok
  · intro id t' eid ht' heid
    rw [Table.get?_modifyAll] at ht'
    obtain ⟨t, ht, rfl⟩ := Option.map_eq_some_iff.1 ht'
    rw [htips] at heid
    obtain ⟨e, a, he, hof, ha, hmatch⟩ := h.entry ht heid
    have hreceived : t.receivedByUnit = true := (h.ok ht).received.2 (by rw [heid]; rfl)
    have hprofessional := (h.ok ht).professional hreceived
    by_cases hmine : t.appointmentId = o.appointmentId
    · have hmem : some eid ∈ (s.tipsFor o.appointmentId).map (·.2.payEntryId) := by
        refine List.mem_map.2 ⟨(id, t), Table.mem_filter.2 ⟨ht, ?_⟩, heid⟩
        simp [hmine, hprofessional]
      have hmove : o.moveTip t = { t with barberId := some o.barberId } := by
        rw [MoveOrder.moveTip, if_pos ⟨hmine, hprofessional⟩]
      have hmoved : (o.moveEntry ((s.tipsFor o.appointmentId).map (·.2.payEntryId)) eid e).barberId =
          o.barberId := by
        have hbind : t.payEntryId.bind s.entries.get? = some e := by rw [heid, Option.bind_some, he]
        unfold MoveOrder.moveEntry
        split
        · rfl
        · next hstay =>
          rcases hpaid ht hmine hprofessional hbind with hopen | hthere
          · exact absurd ⟨hmem, hopen⟩ hstay
          · exact hthere
      refine ⟨_, o.moveAppointment a, by rw [Table.get?_modifyAll, he, Option.map_some],
        (hentry _ eid e).1.trans hof, ?_, ?_, ?_, ?_⟩
      · rw [hmove, hmine, Table.get?_modify_self, ← hmine, ha, Option.map_some]
      · rw [(hentry _ eid e).2, hmove]
        exact hmatch.amount
      · rw [hmove, hmoved]
      · rw [hmoved, hbarber]
    · have hmem : some eid ∉ (s.tipsFor o.appointmentId).map (·.2.payEntryId) := by
        intro hmem
        obtain ⟨⟨j, u⟩, hu, hue⟩ := List.mem_map.1 hmem
        obtain ⟨hu, hfor⟩ := Table.mem_filter.1 hu
        simp only [Bool.and_eq_true, beq_iff_eq] at hfor
        obtain rfl := h.unique hu ht hue heid
        obtain rfl := Option.some.inj (hu.symm.trans ht)
        exact hmine hfor.1
      have htip : o.moveTip t = t := by rw [MoveOrder.moveTip, if_neg fun hand => hmine hand.1]
      refine ⟨e, a, ?_, hof, ?_, ?_⟩
      · rw [Table.get?_modifyAll, he, Option.map_some, MoveOrder.moveEntry,
          if_neg fun hand => hmem hand.1]
      · rw [htip, Table.get?_modify_of_ne _ _ hmine, ha]
      · rw [htip]
        exact hmatch
  · intro i j t' u' eid ht' hu' hte hue
    rw [Table.get?_modifyAll] at ht' hu'
    obtain ⟨t, ht, rfl⟩ := Option.map_eq_some_iff.1 ht'
    obtain ⟨u, hu, rfl⟩ := Option.map_eq_some_iff.1 hu'
    rw [htips] at hte hue
    exact h.unique ht hu hte hue
  · intro eid e' he' hof
    rw [Table.get?_modifyAll] at he'
    obtain ⟨e, he, rfl⟩ := Option.map_eq_some_iff.1 he'
    obtain ⟨id, t, ht, hte⟩ := h.tip he ((hentry _ eid e).1.symm.trans hof)
    exact ⟨id, o.moveTip t, by rw [Table.get?_modifyAll, ht, Option.map_some], (htips t).trans hte⟩

theorem Sound.commitFor (h : s.Sound) (o : PayoutOrder) (barberId : ℕ) (r : PayComputation) :
    s.Moves (o.commitFor barberId r s) := by
  have hattach := h.rewrite (f := fun id e =>
      { e with entry := e.entry.attach (r.entries.map (·.1)) s.payouts.next id }) (fun _ _ => rfl)
    (fun id e => by
      dsimp only
      unfold BarberPayEntry.attach
      split <;> rfl) fun _ _ => rfl
  unfold PayoutOrder.commitFor
  by_cases hover : r.total < 0
  · have hcarry := hattach.sound.enter (e := ⟨barberId, o.carryOver r, false⟩) rfl
    have hkeep := hcarry.sound.keepPayout (p := ⟨barberId, o.payout r (if 0 < PayoutOrder.toPay r then
        some s.expenses.next else none) (some s.entries.next)⟩) fun hc => by
      obtain rfl := Option.some.inj hc
      refine ⟨Nat.lt_succ_self _, fun e he => ?_⟩
      rcases Table.get?_insert_cases he with ⟨-, rfl⟩ | he
      · rfl
      · simp at he
    refine ((hattach.trans hcarry).trans hkeep).trans ?_
    refine hkeep.sound.aside rfl ?_ ?_ fun _ _ ha => ⟨_, ha, rfl⟩
    · simp only [if_pos hover]
    · simp only [if_pos hover, decide_eq_true_eq]
  · have hkeep := hattach.sound.keepPayout (p := ⟨barberId, o.payout r (if 0 < PayoutOrder.toPay r then
        some s.expenses.next else none) none⟩) fun hc => by cases hc
    refine (hattach.trans hkeep).trans ?_
    refine hkeep.sound.aside rfl ?_ ?_ fun _ _ ha => ⟨_, ha, rfl⟩
    · simp only [if_neg hover]
    · simp only [if_neg hover, decide_eq_true_eq]

theorem Sound.dropPayout (h : s.Sound) {id : ℕ} {p : StaffPayout}
    (hcarry : ∀ c, p.payout.carryOverEntryId = some c → s.Other c) :
    s.Moves (s.dropPayout id p) := by
  have hdetach : ∀ {t : TipBooks}, t.Sound → t.Moves { t with
      entries := t.entries.modifyAll fun _ e => { e with entry := e.entry.detach id } } :=
    fun ht => ht.rewrite (fun _ _ => rfl)
      (fun _ e => by
        dsimp only
        unfold BarberPayEntry.detach
        split <;> rfl) fun _ _ => rfl
  have hend : ∀ {t : TipBooks}, t.Sound → t.entries = (s.dropPayout id p).entries →
      t.tips = s.tips → t.appointments = s.appointments → t.payouts = s.payouts →
      t.Moves (s.dropPayout id p) := by
    intro t ht hentries htips happointments hpayouts
    have herase := ht.erasePayout id
    refine herase.trans (herase.sound.aside htips.symm hentries.symm ?_ ?_)
    · rw [TipBooks.dropPayout, hpayouts]
    · intro j u a hu hreceived ha
      exact ⟨a, happointments ▸ ha, rfl⟩
  unfold TipBooks.dropPayout at hend ⊢
  cases hc : p.payout.carryOverEntryId with
  | none =>
    rw [hc] at hend
    have hopen := hdetach h
    exact hopen.trans (hend hopen.sound rfl rfl rfl rfl)
  | some c =>
    rw [hc] at hend
    have herase := h.eraseEntry (hcarry c hc)
    have hopen := hdetach herase.sound
    exact (herase.trans hopen).trans (hend hopen.sound rfl rfl rfl rfl)

/-! ### What is in a payout -/

theorem PaidKept.of_entries (h : s'.entries = s.entries) : s.PaidKept s' :=
  fun _ e he _ => ⟨e, h ▸ he, rfl⟩

theorem PaidKept.insert {e : StaffEntry} (h : s'.entries = s.entries.insert e) : s.PaidKept s' :=
  fun _ x hx _ => ⟨x, h ▸ Table.get?_insert_of_some e hx, rfl⟩

theorem paidEntry_of_get? {id : ℕ} {e : StaffEntry} (he : s.entries.get? id = some e)
    (hpaid : e.entry.payoutId.isSome = true) : s.paidEntry (some id) = true := by
  rw [paidEntry, Option.bind_some, he]
  exact hpaid

/-- What is deleted is in no payout. -/
theorem PaidKept.dropTip {id : ℕ} {tip : StaffTip} (hpaid : s.paidEntry tip.payEntryId = false) :
    s.PaidKept (s.dropTip id tip) := by
  intro eid e he hin
  refine ⟨e, ?_, rfl⟩
  unfold TipBooks.dropTip
  cases heid : tip.payEntryId with
  | none => exact he
  | some k =>
    have hne : eid ≠ k := by
      rintro rfl
      rw [heid, paidEntry_of_get? he hin] at hpaid
      cases hpaid
    rw [Option.elim_some, Table.get?_erase, if_neg hne, he]

theorem PaidKept.commitFor (o : PayoutOrder) (barberId : ℕ) (r : PayComputation) :
    s.PaidKept (o.commitFor barberId r s) := by
  intro id e he _
  refine ⟨{ e with entry := e.entry.attach (r.entries.map (·.1)) s.payouts.next id }, ?_, rfl⟩
  have hattached : (s.entries.modifyAll fun id e =>
      { e with entry := e.entry.attach (r.entries.map (·.1)) s.payouts.next id }).get? id =
        some { e with entry := e.entry.attach (r.entries.map (·.1)) s.payouts.next id } := by
    rw [Table.get?_modifyAll, he, Option.map_some]
  unfold PayoutOrder.commitFor
  dsimp only
  split
  · exact Table.get?_insert_of_some _ hattached
  · exact hattached

theorem PaidKept.dropPayout {id : ℕ} {p : StaffPayout}
    (hpaid : s.paidEntry p.payout.carryOverEntryId = false) : s.PaidKept (s.dropPayout id p) := by
  intro eid e he hin
  have hleft : (p.payout.carryOverEntryId.elim s.entries s.entries.erase).get? eid = some e := by
    cases hc : p.payout.carryOverEntryId with
    | none => exact he
    | some k =>
      have hne : eid ≠ k := by
        rintro rfl
        rw [hc, paidEntry_of_get? he hin] at hpaid
        cases hpaid
      rw [Option.elim_some, Table.get?_erase, if_neg hne, he]
  refine ⟨{ e with entry := e.entry.detach id }, ?_, rfl⟩
  rw [TipBooks.dropPayout, Table.get?_modifyAll, hleft, Option.map_some]

/-- What is in a payout does not move. -/
theorem PaidKept.move (o : MoveOrder) : s.PaidKept (o.commit s) := by
  intro eid e he hin
  unfold MoveOrder.commit
  dsimp only
  split
  · refine ⟨e, ?_, rfl⟩
    have hstay : ∀ ids : List (Option ℕ), ¬ (some eid ∈ ids ∧ e.entry.payoutId = none) := by
      rintro ids ⟨-, hnone⟩
      rw [hnone] at hin
      cases hin
    rw [Table.get?_modifyAll, he, Option.map_some, MoveOrder.moveEntry, if_neg (hstay _)]
  · exact ⟨e, he, rfl⟩

end TipBooks

/-! ## Calls -/

namespace TipBooks

variable (s : TipBooks)

/-- A tip that was read, if it is still there, points to the same entry. -/
def Seen (id : ℕ) (tip : StaffTip) : Prop :=
  id < s.tips.next ∧ ∀ ⦃t⦄, s.tips.get? id = some t → t.payEntryId = tip.payEntryId

def SeenPayout (p : StaffPayout) : Prop := ∀ ⦃c⦄, p.payout.carryOverEntryId = some c → s.Other c

end TipBooks

namespace TipCall

/-- What a call knows of what it read. -/
def Known (s : TipBooks) : TipCall → Prop
  | adding o => o.receivedByUnit = true → o.destination = .professional
  | checkingAccess _ id tip | checkingCash id tip | checkingEntry id tip | removing id tip =>
    s.Seen id tip
  | checkingPayoutCash _ p | checkingCarryOver _ p | undoing _ p => s.SeenPayout p
  | _ => True

variable {s s' : TipBooks} {c : TipCall} {goes : Goes}

theorem Known.moves (h : c.Known s) (hmoves : s.Moves s') : c.Known s' := by
  have hseen : ∀ {id tip}, s.Seen id tip → s'.Seen id tip := by
    intro id tip hseen
    refine ⟨hseen.1.trans_le hmoves.tips.next_le, fun t' ht' => ?_⟩
    obtain ⟨t, ht, hsame⟩ := hmoves.tips.row id t' ht' hseen.1
    exact Eq.trans hsame (hseen.2 ht)
  have hpayout : ∀ {p}, s.SeenPayout p → s'.SeenPayout p :=
    fun hp d hd => (hp hd).evolve hmoves.entries
  cases c with
  | checkingAccess ctx id tip | checkingCash id tip | checkingEntry id tip | removing id tip =>
    exact hseen h
  | checkingPayoutCash id p | checkingCarryOver id p | undoing id p => exact hpayout h
  | adding o => exact h
  | _ => trivial

theorem goOn_running {α : Type} {x : Result α} {f : α → TipCall} {c' : TipCall}
    (h : c' ∈ (goOn x f).running) : ∃ a, x = .ok a ∧ c' = f a := by
  cases x with
  | error r => cases h
  | ok a => exact ⟨a, rfl, (Option.some.inj h).symm⟩

theorem checkTip_professional {barbers : Table Barber} {ctx : Caller} {id : ℕ} {data : TipInput}
    {o : TipOrder} (h : checkTip barbers ctx id data s = .ok o) :
    o.receivedByUnit = true → o.destination = .professional := by
  unfold checkTip at h
  simp only [bind_eq_ok, pure_eq_ok] at h
  obtain ⟨destination, -, -, -, appt, -, -, -, -, -, desk, -, -, -, -, -, rfl⟩ := h
  simp only [Bool.and_eq_true, beq_iff_eq]
  exact fun hreceived => hreceived.1

theorem findTip_get? {ctx : Caller} {id : ℕ} {tip : StaffTip} (h : s.findTip ctx id = .ok tip) :
    s.tips.get? id = some tip := by
  unfold TipBooks.findTip at h
  simp only [bind_eq_ok, orRefuse_eq_ok, pure_eq_ok] at h
  obtain ⟨t, ht, -, -, rfl⟩ := h
  exact (Option.filter_eq_some_iff.1 ht).1

/-- What a step leaves: the books stay sound, what is in a payout stays, and the call knows what it
goes on with. -/
structure Leaves (s s' : TipBooks) (c : Option TipCall) : Prop where
  moves : s.Moves s'
  kept : s.PaidKept s'
  knows : ∀ a ∈ c, a.Known s'

/-- A step that writes nothing. -/
theorem leaves_goOn {α : Type} {x : Result α} {f : α → TipCall} (h : s.Sound)
    (hf : ∀ a, x = .ok a → (f a).Known s) : Leaves s s (goOn x f).running where
  moves := ⟨h, s.tips_refl, s.entries_refl⟩
  kept := .of_entries rfl
  knows a ha := by
    obtain ⟨b, hb, rfl⟩ := goOn_running ha
    exact hf b hb

theorem leaves_next (h : s.Sound) (hc : c.Known s) : Leaves s s (some c) where
  moves := ⟨h, s.tips_refl, s.entries_refl⟩
  kept := .of_entries rfl
  knows a ha := by
    obtain rfl := Option.some.inj ha
    exact hc

theorem leaves_done (hmoves : s.Moves s') (hkept : s.PaidKept s') : Leaves s s' none where
  moves := hmoves
  kept := hkept
  knows a ha := by cases ha

/-- A lock is taken or given back. -/
theorem leaves_lock (h : s.Sound) (paying : ℕ → Bool) (hc : ∀ a ∈ goes.running, a.Known s) :
    Leaves s { s with paying := paying } goes.running := by
  have hmoves : s.Moves { s with paying := paying } :=
    h.aside rfl rfl rfl fun _ _ ha => ⟨_, ha, rfl⟩
  exact ⟨hmoves, .of_entries rfl, fun a ha => (hc a ha).moves hmoves⟩

theorem adding_leaves {o : TipOrder} (h : s.Sound) (hc : (adding o).Known s)
    (hkeeps : (adding o).keepsPairs s = true) : Leaves s (o.commit s) none := by
  unfold TipOrder.commit
  dsimp only
  split
  · next hreceived =>
    simp only [keepsPairs, hreceived, Bool.not_true, Bool.false_or, Option.any_eq_true,
      beq_iff_eq] at hkeeps
    obtain ⟨a, ha, hbarber⟩ := hkeeps
    exact leaves_done (h.receive hreceived (hc hreceived) ha hbarber _) (.insert rfl)
  · next hreceived =>
    exact leaves_done (h.give (Bool.not_eq_true _ ▸ hreceived) rfl) (.of_entries rfl)

theorem moving_leaves {o : MoveOrder} (h : s.Sound) (hkeeps : (moving o).keepsPairs s = true) :
    Leaves s (o.commit s) none := by
  refine leaves_done ?_ (.move o)
  by_cases hchanged : o.barberChanged = true
  · refine h.move hchanged ?_
    intro id t e ht happointment hprofessional he
    simp only [keepsPairs, hchanged, if_true, List.all_eq_true] at hkeeps
    have hfor : (id, t) ∈ s.tipsFor o.appointmentId :=
      Table.mem_filter.2 ⟨ht, by simp [happointment, hprofessional]⟩
    have hentry := hkeeps _ hfor
    rw [he] at hentry
    simpa using hentry
  · simp only [keepsPairs, if_neg hchanged] at hkeeps
    unfold MoveOrder.commit
    rw [if_neg hchanged]
    refine h.aside rfl rfl rfl ?_
    intro id t a ht hreceived ha
    by_cases hmine : t.appointmentId = o.appointmentId
    · refine ⟨o.moveAppointment a, ?_, ?_⟩
      · rw [hmine, Table.get?_modify_self, ← hmine, ha, Option.map_some]
      · have hplaced : t.barberId = some a.barberId := by
          obtain ⟨eid, heid⟩ := Option.isSome_iff_exists.1 ((h.ok ht).received.1 hreceived)
          obtain ⟨e, a', -, -, ha', hmatch⟩ := h.entry ht heid
          obtain rfl := Option.some.inj (ha.symm.trans ha')
          rw [hmatch.barber, hmatch.placed]
        unfold MoveOrder.moveAppointment
        dsimp only
        cases hdata : o.data.barberId with
        | none => rfl
        | some b =>
          rw [hdata, Option.all_some, List.all_eq_true] at hkeeps
          have hfor : (id, t) ∈ s.tipsFor o.appointmentId :=
            Table.mem_filter.2 ⟨ht, by simp [hmine, (h.ok ht).professional hreceived]⟩
          have hwith := hkeeps _ hfor
          simp only [hreceived, hplaced, Bool.not_true, Bool.false_or, beq_iff_eq,
            Option.some.injEq] at hwith
          exact hwith.symm
    · exact ⟨a, by rw [Table.get?_modify_of_ne _ _ hmine, ha], rfl⟩

theorem removing_leaves {id : ℕ} {tip : StaffTip} (h : s.Sound) (hc : s.Seen id tip)
    (hthere : ¬ (s.tips.get? id).isNone = true) (hkeeps : (removing id tip).keepsPairs s = true) :
    Leaves s (s.dropTip id tip) none := by
  rw [Bool.not_eq_true] at hthere
  obtain ⟨t, ht⟩ := Option.isSome_iff_exists.1 (Option.isNone_eq_false_iff.1 hthere)
  simp only [keepsPairs, hthere, Bool.false_or, Bool.not_eq_true'] at hkeeps
  exact leaves_done (h.dropTip ht (hc.2 ht)) (.dropTip hkeeps)

theorem undoing_leaves {id : ℕ} {p : StaffPayout} (h : s.Sound) (hc : s.SeenPayout p)
    (hthere : ¬ (s.payouts.get? id).isNone = true) (hkeeps : (undoing id p).keepsPairs s = true) :
    Leaves s (s.dropPayout id p) none := by
  rw [Bool.not_eq_true] at hthere
  simp only [keepsPairs, hthere, Bool.false_or, Bool.not_eq_true'] at hkeeps
  exact leaves_done (h.dropPayout hc) (.dropPayout hkeeps)

theorem run_leaves {cal : ShopCalendar} {barbers : Table Barber} {row : Option CommissionRow}
    (h : s.Sound) (hc : c.Known s) (hkeeps : c.keepsPairs s = true)
    (hrun : c.run cal barbers row s = some (s', goes)) : Leaves s s' goes.running := by
  have hseen : ∀ {p id}, s.payouts.get? id = some p → s.SeenPayout p := fun hp _ hd =>
    h.carryOver hp hd
  cases c with
  | add ctx id data =>
    obtain ⟨rfl, rfl⟩ := Prod.mk.inj (Option.some.inj hrun)
    exact leaves_goOn h fun o ho => checkTip_professional ho
  | adding o =>
    obtain ⟨rfl, rfl⟩ := Prod.mk.inj (Option.some.inj hrun)
    exact adding_leaves h hc hkeeps
  | remove ctx id =>
    obtain ⟨rfl, rfl⟩ := Prod.mk.inj (Option.some.inj hrun)
    refine leaves_goOn h fun tip htip => ?_
    have hget := findTip_get? htip
    refine ⟨Table.lt_next_of_get? hget, fun t ht => ?_⟩
    rw [Option.some.inj (ht.symm.trans hget)]
  | checkingAccess ctx id tip | checkingCash id tip | checkingEntry id tip =>
    obtain ⟨rfl, rfl⟩ := Prod.mk.inj (Option.some.inj hrun)
    exact leaves_goOn h fun _ _ => hc
  | removing id tip =>
    simp only [run] at hrun
    split at hrun
    · obtain ⟨rfl, rfl⟩ := Prod.mk.inj (Option.some.inj hrun)
      exact leaves_done ⟨h, s.tips_refl, s.entries_refl⟩ (.of_entries rfl)
    · next hthere =>
      obtain ⟨rfl, rfl⟩ := Prod.mk.inj (Option.some.inj hrun)
      exact removing_leaves h hc hthere hkeeps
  | update ctx id data =>
    obtain ⟨rfl, rfl⟩ := Prod.mk.inj (Option.some.inj hrun)
    refine leaves_goOn h fun o _ => ?_
    split <;> trivial
  | findingTips o | computing barberId o =>
    obtain ⟨rfl, rfl⟩ := Prod.mk.inj (Option.some.inj hrun)
    exact leaves_next h trivial
  | countingPaid o tips =>
    obtain ⟨rfl, rfl⟩ := Prod.mk.inj (Option.some.inj hrun)
    exact leaves_goOn h fun _ _ => trivial
  | moving o =>
    simp only [run] at hrun
    split at hrun
    · obtain ⟨rfl, rfl⟩ := Prod.mk.inj (Option.some.inj hrun)
      exact leaves_done ⟨h, s.tips_refl, s.entries_refl⟩ (.of_entries rfl)
    · obtain ⟨rfl, rfl⟩ := Prod.mk.inj (Option.some.inj hrun)
      exact moving_leaves h hkeeps
  | pay ctx barberId data =>
    obtain ⟨rfl, rfl⟩ := Prod.mk.inj (Option.some.inj hrun)
    exact leaves_goOn h fun _ _ => trivial
  | findingSession ctx barberId data period =>
    obtain ⟨rfl, rfl⟩ := Prod.mk.inj (Option.some.inj hrun)
    exact leaves_next h trivial
  | locking barberId o =>
    simp only [run] at hrun
    split at hrun
    · cases hrun
    · obtain ⟨rfl, rfl⟩ := Prod.mk.inj (Option.some.inj hrun)
      refine leaves_lock h _ fun a ha => ?_
      obtain rfl := Option.some.inj ha
      trivial
  | overlapping barberId o =>
    simp only [run] at hrun
    split at hrun
    · obtain ⟨rfl, rfl⟩ := Prod.mk.inj (Option.some.inj hrun)
      exact leaves_lock h _ fun a ha => by cases ha
    · obtain ⟨rfl, rfl⟩ := Prod.mk.inj (Option.some.inj hrun)
      exact leaves_next h trivial
  | committing barberId o r =>
    obtain ⟨rfl, rfl⟩ := Prod.mk.inj (Option.some.inj hrun)
    exact leaves_done (h.commitFor o barberId r) (.commitFor o barberId r)
  | undoPayout ctx id =>
    obtain ⟨rfl, rfl⟩ := Prod.mk.inj (Option.some.inj hrun)
    refine leaves_goOn h fun p hp => ?_
    simp only [bind_eq_ok, orRefuse_eq_ok, pure_eq_ok] at hp
    obtain ⟨-, -, q, hq, -, -, -, -, rfl⟩ := hp
    exact hseen hq
  | checkingPayoutCash id p | checkingCarryOver id p =>
    obtain ⟨rfl, rfl⟩ := Prod.mk.inj (Option.some.inj hrun)
    exact leaves_goOn h fun _ _ => hc
  | undoing id p =>
    simp only [run] at hrun
    split at hrun
    · obtain ⟨rfl, rfl⟩ := Prod.mk.inj (Option.some.inj hrun)
      exact leaves_done ⟨h, s.tips_refl, s.entries_refl⟩ (.of_entries rfl)
    · next hthere =>
      obtain ⟨rfl, rfl⟩ := Prod.mk.inj (Option.some.inj hrun)
      exact undoing_leaves h hc hthere hkeeps

theorem step_leaves {cal : ShopCalendar} {barbers : Table Barber} {k : TipStep}
    {r : TipBooks × Option TipCall} (h : s.Sound) (hc : c.Known s)
    (hkeeps : c.stepKeepsPairs k s = true) (hcall : (tipCalls cal barbers).step k c s = some r) :
    Leaves s r.1 r.2 := by
  obtain ⟨⟨s', goes⟩, hstep, rfl⟩ := Option.map_eq_some_iff.1 hcall
  cases k with
  | next row => exact run_leaves h hc hkeeps hstep
  | ends =>
    obtain ⟨rfl, rfl⟩ := Prod.mk.inj (Option.some.inj hstep)
    cases c.holds with
    | none => exact leaves_done ⟨h, s.tips_refl, s.entries_refl⟩ (.of_entries rfl)
    | some barberId =>
      refine leaves_done (h.aside rfl rfl rfl fun _ _ ha => ⟨_, ha, rfl⟩) (.of_entries rfl)

end TipCall

theorem TipEvent.apply_leaves {e : TipEvent} {s : TipBooks} {r : TipBooks × Option TipCall}
    (h : s.Sound) (hevent : e.apply s = some r) : TipCall.Leaves s r.1 r.2 := by
  have haside : ∀ {s' : TipBooks}, s'.tips = s.tips → s'.entries = s.entries →
      s'.payouts = s.payouts → s'.appointments = s.appointments → TipCall.Leaves s s' none := by
    intro s' htips hentries hpayouts happointments
    exact TipCall.leaves_done
      (h.aside htips hentries hpayouts fun _ _ ha => ⟨_, happointments ▸ ha, rfl⟩)
      (.of_entries hentries)
  cases e with
  | arrive c =>
    simp only [apply] at hevent
    split at hevent
    · next hstarts =>
      obtain rfl := Option.some.inj hevent
      refine TipCall.leaves_next h ?_
      cases c with
      | add ctx id data | remove ctx id | update ctx id data | pay ctx barberId data
      | undoPayout ctx id => trivial
      | _ => cases hstarts
    · cases hevent
  | book a =>
    obtain rfl := Option.some.inj hevent
    refine TipCall.leaves_done (h.appointments ?_) (.of_entries rfl)
    exact .insert Appointment.KeepsBarber.refl _ a
  | status id status =>
    obtain rfl := Option.some.inj hevent
    refine TipCall.leaves_done (h.appointments ?_) (.of_entries rfl)
    refine .modify (E := Appointment.KeepsBarber) Appointment.KeepsBarber.refl ?_
    exact fun _ _ => rfl
  | appTip id barbershopId barberId destination amount =>
    obtain rfl := Option.some.inj hevent
    exact TipCall.leaves_done (h.give rfl rfl) (.of_entries rfl)
  | enter barberId e =>
    obtain rfl := Option.some.inj hevent
    exact TipCall.leaves_done (h.enter rfl) (.insert rfl)
  | configure barberId config | rules r | cash sessions =>
    obtain rfl := Option.some.inj hevent
    exact haside rfl rfl rfl rfl

/-! ## Runs -/

/-- The books are sound, and each call knows what it read. -/
def tipInv : CallInv TipBooks TipCall ℕ where
  weight _ := 0
  whole s _ := s.Sound
  each s c := c.Known s

theorem TipCall.Leaves.kept_inv {s s' : TipBooks} {c c' : Option TipCall} {m : ℕ}
    (h : TipCall.Leaves s s' c') : tipInv.Kept s c m s' c' where
  whole := h.moves.sound
  mine := h.knows
  others _ hd _ := TipCall.Known.moves hd h.moves
  apart _ _ _ _ _ := trivial

theorem TipBooks.sound_initial (rules : TipRules) (sessions : Table CashSession) :
    (TipBooks.initial rules sessions).Sound where
  ok ht := by cases ht
  entry ht := by cases ht
  unique ht := by cases ht
  tip he := by cases he
  carryOver hp := by cases hp

/-- In every run whose writes meet the condition, tips and entries are paired, and no further step
that meets it, and nothing beside the calls, deletes or moves what is in a payout. -/
theorem tips_paired {cal : ShopCalendar} {barbers : Table Barber} {rules : TipRules}
    {sessions : Table CashSession} {moves : List (Move TipEvent TipStep)} {x : Calls TipBooks TipCall}
    (hmeets : (tipCalls cal barbers).machine.Meets (CallSystem.When (fun _ _ => True)
      fun k c s => c.stepKeepsPairs k s = true) (.idle (.initial rules sessions)) moves)
    (hrun : (tipCalls cal barbers).machine.run (.idle (.initial rules sessions)) moves = some x) :
    x.shared.Paired ∧ ∀ {m x'}, CallSystem.When (fun _ _ => True)
        (fun k (c : TipCall) s => c.stepKeepsPairs k s = true) x m →
      (tipCalls cal barbers).machine.step x m = some x' → x.shared.PaidKept x'.shared := by
  have hidle : tipInv.Holds (.idle (TipBooks.initial rules sessions)) :=
    CallInv.holds_idle (TipBooks.sound_initial rules sessions)
  have hx : tipInv.Holds x := by
    refine hidle.run ?_ ?_ hmeets hrun
    · intro e s r _ hevent m h _
      exact (TipEvent.apply_leaves h hevent).kept_inv
    · intro k c s r hkeeps hstep m h hc
      exact (TipCall.step_leaves h (hc c rfl) hkeeps hstep).kept_inv
  have hsound : x.shared.Sound := hx.whole
  refine ⟨hsound.paired, ?_⟩
  intro m x' hwhen hstep
  cases m with
  | event e =>
    obtain ⟨s, c, hevent, rfl⟩ := CallSystem.machine_event.1 hstep
    exact (TipEvent.apply_leaves hsound hevent).kept
  | step i k =>
    obtain ⟨c, s, c', hi, hcall, rfl⟩ := CallSystem.machine_step.1 hstep
    exact (TipCall.step_leaves hsound (hx.each hi) (hwhen c hi) hcall).kept

/-! ## Three runs -/

/-- Two professionals of the unit. -/
def twoBarbers : Table Barber :=
  let barber (userId : ℕ) : Barber := {
    barbershopId := 1
    userId := some userId
    professionalId := none
    bookable := true
    isActive := true
    accessStartsAt := none
    accessEndsAt := none }
  (Table.empty.insert (barber 11)).insert (barber 12)

/-- A unit that has not been used. -/
def newTipBooks : TipBooks := .initial ⟨false, true, 10000⟩ .empty

/-- A visit to the first professional is over, and the owner records a tip on the card machine. -/
def tipReceived : List (Move TipEvent TipStep) :=
  [.event (.book { visit with status := .completed }),
    .event (.arrive (.add (owner 3000) 1 ⟨some .professional, .card, 10, false⟩))]

/-- The visit moves to the second professional. -/
def movedToSecond : Move TipEvent TipStep :=
  .event (.arrive (.update (owner 4000) 1 ⟨some 2, none, none, none⟩))

/-- The owner pays a professional for ten days. -/
def paidFor (barberId : ℕ) : Move TipEvent TipStep :=
  .event (.arrive (.pay (owner (10 * DAY_MS)) barberId ⟨some 0, some 9, .pix⟩))

/-- The tip moves with the visit, and the second professional is paid. -/
def movedThenPaid : List (Move TipEvent TipStep) :=
  tipReceived ++ List.replicate 2 (.step 1 (.next none)) ++ [movedToSecond] ++
    List.replicate 4 (.step 2 (.next none)) ++ [paidFor 2] ++ List.replicate 6 (.step 3 (.next none))

theorem movedThenPaid_paired : ∃ x e,
    (tipCalls utcCalendar twoBarbers).machine.run (.idle newTipBooks) movedThenPaid = some x ∧
      x.shared.entries.get? 1 = some e ∧ e.barberId = 2 ∧ e.entry.payoutId = some 1 ∧
        x.shared.Paired := by
  have hmeets : (tipCalls utcCalendar twoBarbers).machine.Meets (CallSystem.When (fun _ _ => True)
      fun k c s => c.stepKeepsPairs k s = true) (.idle newTipBooks) movedThenPaid := by
    decide +kernel
  have hsome : ((tipCalls utcCalendar twoBarbers).machine.run (.idle newTipBooks)
      movedThenPaid).any (fun x => (x.shared.entries.get? 1).any fun e =>
        e.barberId == 2 && e.entry.payoutId == some 1) = true := by
    decide +kernel
  obtain ⟨x, hrun, hout⟩ := (Option.any_eq_true _ _).1 hsome
  obtain ⟨e, he, hout⟩ := (Option.any_eq_true _ _).1 hout
  simp only [Bool.and_eq_true, beq_iff_eq] at hout
  exact ⟨x, e, hrun, he, hout.1, hout.2, (tips_paired hmeets hrun).1⟩

/-- The tip is recorded for the first professional once the visit, which was read before, has moved
to the second. -/
def addedAcrossMove : List (Move TipEvent TipStep) :=
  tipReceived ++ [.step 1 (.next none), movedToSecond] ++ List.replicate 4 (.step 2 (.next none)) ++
    [.step 1 (.next none)]

/-- The removal of the tip has read its entry as open, and the entry enters a payout. -/
def paidAcrossRemoval : List (Move TipEvent TipStep) :=
  tipReceived ++ List.replicate 2 (.step 1 (.next none)) ++
    [.event (.arrive (.remove (owner 4000) 1))] ++ List.replicate 4 (.step 2 (.next none)) ++
    [paidFor 1] ++ List.replicate 6 (.step 3 (.next none))

/-- The tip is left with the professional that the visit had, in no payout; what is in a payout is
deleted. -/
theorem tip_left_behind :
    (∃ x t e a, (tipCalls utcCalendar twoBarbers).machine.run (.idle newTipBooks) addedAcrossMove =
        some x ∧ x.quiet = true ∧
      x.shared.tips.get? 1 = some t ∧ t.payEntryId = some 1 ∧
      x.shared.entries.get? 1 = some e ∧ e.entry.payoutId = none ∧
      x.shared.appointments.get? t.appointmentId = some a ∧ e.barberId ≠ a.barberId) ∧
    ∃ x x', (tipCalls utcCalendar twoBarbers).machine.run (.idle newTipBooks) paidAcrossRemoval =
        some x ∧ (tipCalls utcCalendar twoBarbers).machine.step x (.step 2 (.next none)) = some x' ∧
      x'.quiet = true ∧ ¬ x.shared.PaidKept x'.shared := by
  refine ⟨?_, ?_⟩
  · have hsome : ((tipCalls utcCalendar twoBarbers).machine.run (.idle newTipBooks)
        addedAcrossMove).any (fun x => x.quiet &&
          (x.shared.tips.get? 1).any fun t => t.payEntryId == some 1 &&
          (x.shared.entries.get? 1).any fun e => e.entry.payoutId == none &&
          (x.shared.appointments.get? t.appointmentId).any fun a => e.barberId != a.barberId) =
            true := by
      decide +kernel
    obtain ⟨x, hrun, hout⟩ := (Option.any_eq_true _ _).1 hsome
    simp only [Bool.and_eq_true, beq_iff_eq, bne_iff_ne, Option.any_eq_true] at hout
    obtain ⟨hquiet, t, ht, heid, e, he, hopen, a, ha, hne⟩ := hout
    exact ⟨x, t, e, a, hrun, hquiet, ht, heid, he, hopen, ha, hne⟩
  · have hsome : (((tipCalls utcCalendar twoBarbers).machine.run (.idle newTipBooks)
        paidAcrossRemoval).any fun x =>
          (x.shared.entries.get? 1).any (·.entry.payoutId.isSome) &&
          ((tipCalls utcCalendar twoBarbers).machine.step x (.step 2 (.next none))).any fun x' =>
            x'.quiet && (x'.shared.entries.get? 1).isNone) = true := by
      decide +kernel
    obtain ⟨x, hrun, hout⟩ := (Option.any_eq_true _ _).1 hsome
    simp only [Bool.and_eq_true, Option.any_eq_true, Option.isNone_iff_eq_none] at hout
    obtain ⟨⟨e, he, hpaid⟩, x', hstep, hquiet, hgone⟩ := hout
    refine ⟨x, x', hrun, hstep, hquiet, fun hkept => ?_⟩
    obtain ⟨e', he', -⟩ := hkept he hpaid
    rw [hgone] at he'
    cases he'

end Barbershop
