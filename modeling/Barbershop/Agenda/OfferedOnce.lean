import Barbershop.Agenda.Waitlist

/-!
# A slot is offered to one

A slot is at most in one place: offered to an entry, or carried by the request that detects it or
passes it on. It gets there when it comes free, and moves from an entry to the request that takes the
offer and on to the next entry. So offers are exclusive as long as a slot comes free only while it is
nowhere, and what takes an offer carries on the slot that was offered.
-/

namespace Barbershop

open Lib

/-! ## The law -/

namespace WaitlistEntry

variable (e : WaitlistEntry)

/-- It has the offer of a slot. -/
def stands (slot : WaitlistSlot) : Bool :=
  e.offeredStartAt == some slot.1 && e.offeredBarberId == slot.2

theorem stands_iff {e : WaitlistEntry} {slot : WaitlistSlot} : e.stands slot = true ↔
    e.offeredStartAt = some slot.1 ∧ e.offeredBarberId = slot.2 := by
  simp [stands]

theorem stands_unique {e : WaitlistEntry} {slot other : WaitlistSlot} (h : e.stands slot = true)
    (hother : e.stands other = true) : other = slot := by
  obtain ⟨hstart, hbarber⟩ := stands_iff.1 h
  obtain ⟨hstart', hbarber'⟩ := stands_iff.1 hother
  exact Prod.ext (Option.some.inj (hstart'.symm.trans hstart)) (hbarber'.symm.trans hbarber)

/-- And the offer is younger than `WAITLIST_OFFER_MINUTES`. -/
def live (now : ℤ) (slot : WaitlistSlot) : Bool :=
  e.status == .notified && e.stands slot &&
    e.notifiedAt.any fun t => decide (now - WAITLIST_OFFER_MINUTES * 60000 < t)

end WaitlistEntry

structure WaitlistBooks.Exclusive (s : WaitlistBooks) : Prop where
  one : ∀ i j e e' slot, s.entries.get? i = some e → s.entries.get? j = some e' →
    e.live s.now slot = true → e'.live s.now slot = true → i = j
  passedOn : s.passedOn.Nodup

/-! ## Where it holds -/

/-- The slot is not offered, and no request detects it or passes it on. -/
def WaitlistBooks.free (s : WaitlistBooks) (slot : WaitlistSlot) : Bool :=
  !s.underWay.contains slot && !s.entries.any fun _ e => e.stands slot

/-- A booked slot comes free while it is not offered. -/
def WaitlistEvent.keepsOffers (e : WaitlistEvent) (s : WaitlistBooks) : Bool :=
  match e with
  | cancelAppointment startAt barberId _ => s.free (startAt, some barberId)
  | _ => true

/-- An offer is taken with the professional that was read, and an opening offers a start that it does
not pass on while that start is not offered. -/
def WaitlistCall.keepsOffers (c : WaitlistCall) (s : WaitlistBooks) : Bool :=
  match c with
  | releasing _ ((id, seen) :: _) => (s.entries.get? id).all fun e =>
    e.offeredStartAt != seen.offeredStartAt || e.offeredBarberId == seen.offeredBarberId
  | dropping id seen (some startAt) _ => (s.entries.get? id).all fun e =>
    e.offeredStartAt != some startAt || e.offeredBarberId == seen.offeredBarberId
  | offeringOpened o _ _ slot _ _ _ =>
    (o.passes.any fun p => p.2 == slot) || s.free (slot, none)
  | _ => true

/-! ## Why it holds -/

namespace WaitlistBooks

variable (s : WaitlistBooks)

def NoneStands (slot : WaitlistSlot) : Prop :=
  ∀ i e, s.entries.get? i = some e → e.stands slot = false

theorem free_spec {s : WaitlistBooks} {slot : WaitlistSlot} (h : s.free slot = true) :
    slot ∉ s.underWay ∧ s.NoneStands slot := by
  simp only [free, Bool.and_eq_true, Bool.not_eq_true', Table.any_eq_false] at h
  exact ⟨by simpa using h.1, h.2⟩

/-- No offer that stands has the number. -/
def NoneNumbered (n : ℕ) : Prop :=
  ∀ i e, s.entries.get? i = some e → e.offeredStartAt.isSome = true → e.offer ≠ n

structure Sound : Prop where
  distinct : ∀ i j e e' slot, s.entries.get? i = some e → s.entries.get? j = some e' →
    e.stands slot = true → e'.stands slot = true → i = j
  numbers : ∀ i j e e', s.entries.get? i = some e → s.entries.get? j = some e' →
    e.offeredStartAt.isSome = true → e'.offeredStartAt.isSome = true → e.offer = e'.offer → i = j
  below : ∀ i e, s.entries.get? i = some e → e.offeredStartAt.isSome = true → e.offer < s.offers
  passedOn : s.passedOn.Nodup
  passedBelow : ∀ n ∈ s.passedOn, n < s.offers
  passedGone : ∀ n ∈ s.passedOn, s.NoneNumbered n

end WaitlistBooks

namespace WaitlistCall

/-- The slot that a request carries. -/
def slot : WaitlistCall → Option WaitlistSlot
  | detecting f _ | checkingSlot f _ | listing f _ | trying f _ _ | offering f _ _ _ => some f.slot
  | passing p _ => some p.slot
  | opening o _ => o.left []
  | giving o _ _ given _ | offeringOpened o _ _ _ _ given _ => o.left given
  | _ => none

/-- The offer that a request passes on. -/
def number : WaitlistCall → Option ℕ
  | detecting f _ | checkingSlot f _ | listing f _ | trying f _ _ | offering f _ _ _ => f.passes
  | passing p _ => some p.offer
  | opening o _ | giving o _ _ _ _ | offeringOpened o _ _ _ _ _ _ => o.passes.map Prod.fst
  | _ => none

/-- The starts of an opening are of the days that they are found for. -/
def Knows (dayOf : ℤ → ℤ) : WaitlistCall → Prop
  | giving _ _ found given _ => (∀ p ∈ given, dayOf p.2 = p.1) ∧
      ∀ who ∈ found, ∀ t ∈ who.slots, dayOf t = who.date
  | offeringOpened _ _ who slot found given _ => (∀ p ∈ given, dayOf p.2 = p.1) ∧
      (∀ x ∈ found, ∀ t ∈ x.slots, dayOf t = x.date) ∧ dayOf slot = who.date ∧
      (who.date, slot) ∉ given
  | _ => True

/-- What it carries is nowhere else, and it has not passed on an offer while it carries the slot. -/
structure Carries (s : WaitlistBooks) (c : WaitlistCall) : Prop where
  underWay : ∀ slot ∈ c.slot, slot ∈ s.underWay
  stands : ∀ slot ∈ c.slot, s.NoneStands slot
  below : ∀ n ∈ c.number, n < s.offers
  numbered : ∀ n ∈ c.number, s.NoneNumbered n
  unspent : ∀ n ∈ c.number, n ∈ s.passedOn → c.slot = none

end WaitlistCall

section Steps

variable (dayOf : ℤ → ℤ)

def waitlistInv : CallInv WaitlistBooks WaitlistCall ℕ where
  weight _ := 0
  whole s _ := s.Sound
  each s c := c.Carries s ∧ c.Knows dayOf
  pair a b := (∀ slot ∈ a.slot, slot ∉ b.slot) ∧ ∀ n ∈ a.number, n ∉ b.number
  symm h := ⟨fun slot hb ha => h.1 slot ha hb, fun n hb ha => h.2 n ha hb⟩

variable {dayOf} {s s' : WaitlistBooks}

namespace WaitlistBooks

/-- What a move of one that carries a slot and passes on an offer leaves to the others. -/
structure Leaves (slot? : Option WaitlistSlot) (number? : Option ℕ) (s s' : WaitlistBooks) :
    Prop where
  underWay : ∀ slot ∈ s.underWay, slot ∉ slot? → slot ∈ s'.underWay
  stands : ∀ slot ∈ s.underWay, slot ∉ slot? → s.NoneStands slot → s'.NoneStands slot
  offers : s.offers ≤ s'.offers
  numbered : ∀ n < s.offers, s.NoneNumbered n → s'.NoneNumbered n
  passedOn : ∀ n ∈ s'.passedOn, n ∉ number? → n ∈ s.passedOn

theorem Leaves.trans {slot? : Option WaitlistSlot} {number? : Option ℕ} {s s' s'' : WaitlistBooks}
    (h : s.Leaves slot? number? s') (h' : s'.Leaves slot? number? s'') :
    s.Leaves slot? number? s'' where
  underWay slot hslot hne := h'.underWay slot (h.underWay slot hslot hne) hne
  stands slot hslot hne hnone :=
    h'.stands slot (h.underWay slot hslot hne) hne (h.stands slot hslot hne hnone)
  offers := le_trans h.offers h'.offers
  numbered n hn hnone := h'.numbered n (lt_of_lt_of_le hn h.offers) (h.numbered n hn hnone)
  passedOn n hn hne := h.passedOn n (h'.passedOn n hn hne) hne

/-- The offers that stand after a write are some of those that stood. -/
structure Fewer (s s' : WaitlistBooks) : Prop where
  entries : ∀ i e', s'.entries.get? i = some e' → e'.offeredStartAt.isSome = true →
    ∃ e, s.entries.get? i = some e ∧ e.offeredStartAt = e'.offeredStartAt ∧
      e.offeredBarberId = e'.offeredBarberId ∧ e.offer = e'.offer
  offers : s'.offers = s.offers
  passedOn : s'.passedOn = s.passedOn

namespace Fewer

theorem same (hentries : s'.entries = s.entries) (hoffers : s'.offers = s.offers)
    (hpassedOn : s'.passedOn = s.passedOn) : s.Fewer s' where
  entries _ e' he' _ := ⟨e', hentries ▸ he', rfl, rfl, rfl⟩
  offers := hoffers
  passedOn := hpassedOn

theorem trans {s'' : WaitlistBooks} (h : s.Fewer s') (h' : s'.Fewer s'') : s.Fewer s'' where
  entries i e'' he'' hout := by
    obtain ⟨e', he', hstart', hbarber', hoffer'⟩ := h'.entries i e'' he'' hout
    obtain ⟨e, he, hstart, hbarber, hoffer⟩ := h.entries i e' he' (hstart' ▸ hout)
    exact ⟨e, he, hstart.trans hstart', hbarber.trans hbarber', hoffer.trans hoffer'⟩
  offers := h'.offers.trans h.offers
  passedOn := h'.passedOn.trans h.passedOn

theorem refl (s : WaitlistBooks) : s.Fewer s := same rfl rfl rfl

theorem settle (slot? : Option WaitlistSlot) (s : WaitlistBooks) : s.Fewer (s.settle slot?) :=
  same rfl rfl rfl

theorem track (slot : WaitlistSlot) (s : WaitlistBooks) : s.Fewer (s.track slot) :=
  same rfl rfl rfl

theorem modifyAll {f : ℕ → WaitlistEntry → WaitlistEntry}
    (hf : ∀ i e, f i e = e ∨ (f i e).offeredStartAt = none) :
    s.Fewer { s with entries := s.entries.modifyAll f } where
  entries i e' he' hout := by
    obtain ⟨e, he, rfl⟩ := Option.map_eq_some_iff.1 ((Table.get?_modifyAll _ _ _).symm.trans he')
    rcases hf i e with hsame | hnone
    · exact ⟨e, he, by rw [hsame], by rw [hsame], by rw [hsame]⟩
    · rw [hnone] at hout
      cases hout
  offers := rfl
  passedOn := rfl

theorem writeIf (id : ℕ) (p : WaitlistEntry → Bool) {f : WaitlistEntry → WaitlistEntry}
    (hf : ∀ e, (f e).offeredStartAt = none) : s.Fewer (s.writeIf id p f) := by
  refine modifyAll ?_
  intro i e
  split
  · by_cases hp : p e = true
    · simp [hp, hf e]
    · simp [hp]
  · exact .inl rfl

theorem noneStands (h : s.Fewer s') {slot : WaitlistSlot} (hnone : s.NoneStands slot) :
    s'.NoneStands slot := by
  intro i e' he'
  by_contra hstands
  obtain ⟨hstart', hbarber'⟩ := WaitlistEntry.stands_iff.1 (eq_true_of_ne_false hstands)
  obtain ⟨e, he, hstart, hbarber, -⟩ := h.entries i e' he' (by simp [hstart'])
  have hnot : e.stands slot = false := hnone i e he
  have hstood : e.stands slot = true :=
    WaitlistEntry.stands_iff.2 ⟨hstart.trans hstart', hbarber.trans hbarber'⟩
  rw [hstood] at hnot
  cases hnot

theorem noneNumbered (h : s.Fewer s') {n : ℕ} (hnone : s.NoneNumbered n) : s'.NoneNumbered n := by
  intro i e' he' hout
  obtain ⟨e, he, hstart, -, hoffer⟩ := h.entries i e' he' hout
  rw [← hoffer]
  exact hnone i e he (hstart ▸ hout)

theorem leaves (h : s.Fewer s') {slot? : Option WaitlistSlot} {number? : Option ℕ}
    (hunder : ∀ slot ∈ s.underWay, slot ∉ slot? → slot ∈ s'.underWay) :
    s.Leaves slot? number? s' where
  underWay := hunder
  stands _ _ _ hnone := h.noneStands hnone
  offers := le_of_eq h.offers.symm
  numbered _ _ hnone := h.noneNumbered hnone
  passedOn _ hn _ := h.passedOn ▸ hn

end Fewer

theorem mem_settle {slot? : Option WaitlistSlot} {slot : WaitlistSlot} (hslot : slot ∈ s.underWay)
    (hne : slot ∉ slot?) : slot ∈ (s.settle slot?).underWay := by
  cases slot? with
  | none => exact hslot
  | some other =>
    refine (List.mem_erase_of_ne ?_).2 hslot
    rintro rfl
    exact hne rfl

namespace Sound

theorem fewer (h : s.Sound) (hfewer : s.Fewer s') : s'.Sound where
  distinct i j e e' slot hi hj hstands hstands' := by
    obtain ⟨hstart, hbarber⟩ := WaitlistEntry.stands_iff.1 hstands
    obtain ⟨hstart', hbarber'⟩ := WaitlistEntry.stands_iff.1 hstands'
    obtain ⟨a, ha, hstartA, hbarberA, -⟩ := hfewer.entries i e hi (by simp [hstart])
    obtain ⟨b, hb, hstartB, hbarberB, -⟩ := hfewer.entries j e' hj (by simp [hstart'])
    exact h.distinct i j a b slot ha hb
      (WaitlistEntry.stands_iff.2 ⟨hstartA.trans hstart, hbarberA.trans hbarber⟩)
      (WaitlistEntry.stands_iff.2 ⟨hstartB.trans hstart', hbarberB.trans hbarber'⟩)
  numbers i j e e' hi hj hout hout' hsame := by
    obtain ⟨a, ha, hstartA, -, hofferA⟩ := hfewer.entries i e hi hout
    obtain ⟨b, hb, hstartB, -, hofferB⟩ := hfewer.entries j e' hj hout'
    exact h.numbers i j a b ha hb (hstartA ▸ hout) (hstartB ▸ hout')
      (hofferA.trans (hsame.trans hofferB.symm))
  below i e hi hout := by
    obtain ⟨a, ha, hstart, -, hoffer⟩ := hfewer.entries i e hi hout
    rw [hfewer.offers, ← hoffer]
    exact h.below i a ha (hstart ▸ hout)
  passedOn := hfewer.passedOn ▸ h.passedOn
  passedBelow n hn := hfewer.offers ▸ h.passedBelow n (hfewer.passedOn ▸ hn)
  passedGone n hn := hfewer.noneNumbered (h.passedGone n (hfewer.passedOn ▸ hn))

theorem exclusive (h : s.Sound) : s.Exclusive where
  one i j e e' slot hi hj hlive hlive' := by
    simp only [WaitlistEntry.live, Bool.and_eq_true] at hlive hlive'
    exact h.distinct i j e e' slot hi hj hlive.1.2 hlive'.1.2
  passedOn := h.passedOn

end Sound

/-! ## A new offer -/

variable {id : ℕ} {slot : WaitlistSlot} {serviceIds : List ℕ} {passes : Option ℕ}

/-- The entries after a new offer. -/
theorem get?_notify {j : ℕ} {e : WaitlistEntry}
    (h : (s.notify id slot serviceIds passes).entries.get? j = some e) :
    j = id ∧ e.stands slot = true ∧ e.offer = s.offers ∨ j ≠ id ∧ s.entries.get? j = some e := by
  simp only [notify, Table.get?_modify] at h
  split at h
  · next hj =>
    obtain ⟨a, -, rfl⟩ := Option.map_eq_some_iff.1 h
    exact .inl ⟨hj, WaitlistEntry.stands_iff.2 ⟨rfl, rfl⟩, rfl⟩
  · next hj => exact .inr ⟨hj, h⟩

theorem NoneStands.notify {other : WaitlistSlot} (h : s.NoneStands other) (hne : other ≠ slot) :
    (s.notify id slot serviceIds passes).NoneStands other := by
  intro j e he
  rcases get?_notify he with ⟨-, hstands, -⟩ | ⟨-, he⟩
  · by_contra hother
    exact hne (WaitlistEntry.stands_unique hstands (eq_true_of_ne_false hother))
  · exact h j e he

theorem NoneNumbered.notify {n : ℕ} (h : s.NoneNumbered n) (hn : n < s.offers) :
    (s.notify id slot serviceIds passes).NoneNumbered n := by
  intro j e he hout
  rcases get?_notify he with ⟨-, -, hoffer⟩ | ⟨-, he⟩
  · omega
  · exact h j e he hout

theorem Sound.notify (h : s.Sound) (hslot : s.NoneStands slot)
    (hpasses : ∀ n ∈ passes, n < s.offers ∧ s.NoneNumbered n ∧ n ∉ s.passedOn) :
    (s.notify id slot serviceIds passes).Sound := by
  have hpassed : ∀ n ∈ (s.notify id slot serviceIds passes).passedOn,
      n < s.offers ∧ s.NoneNumbered n := by
    intro n hn
    rcases List.mem_append.1 hn with hnew | hold
    · obtain ⟨hbelow, hnone, -⟩ := hpasses n (Option.mem_toList.1 hnew)
      exact ⟨hbelow, hnone⟩
    · exact ⟨h.passedBelow n hold, h.passedGone n hold⟩
  refine ⟨?_, ?_, ?_, ?_, ?_, ?_⟩
  · intro i j e e' other hi hj hstands hstands'
    have hdiffers : ∀ {k a}, s.entries.get? k = some a → a.stands other = true → other ≠ slot := by
      rintro k a ha hother rfl
      rw [hslot k a ha] at hother
      cases hother
    rcases get?_notify hi with ⟨rfl, hnew, -⟩ | ⟨-, hi₀⟩
    · rcases get?_notify hj with ⟨rfl, -⟩ | ⟨-, hj₀⟩
      · rfl
      · exact absurd (WaitlistEntry.stands_unique hnew hstands) (hdiffers hj₀ hstands')
    · rcases get?_notify hj with ⟨rfl, hnew, -⟩ | ⟨-, hj₀⟩
      · exact absurd (WaitlistEntry.stands_unique hnew hstands') (hdiffers hi₀ hstands)
      · exact h.distinct i j e e' other hi₀ hj₀ hstands hstands'
  · intro i j e e' hi hj hout hout' hsame
    rcases get?_notify hi with ⟨rfl, -, hoffer⟩ | ⟨-, hi₀⟩
    · rcases get?_notify hj with ⟨rfl, -⟩ | ⟨-, hj₀⟩
      · rfl
      · have hlt := h.below j e' hj₀ hout'
        omega
    · rcases get?_notify hj with ⟨rfl, -, hoffer⟩ | ⟨-, hj₀⟩
      · have hlt := h.below i e hi₀ hout
        omega
      · exact h.numbers i j e e' hi₀ hj₀ hout hout' hsame
  · intro i e hi hout
    show e.offer < s.offers + 1
    rcases get?_notify hi with ⟨-, -, hoffer⟩ | ⟨-, hi₀⟩
    · omega
    · have hlt := h.below i e hi₀ hout
      omega
  · cases passes with
    | none => exact h.passedOn
    | some n => exact List.nodup_cons.2 ⟨(hpasses n rfl).2.2, h.passedOn⟩
  · intro n hn
    exact Nat.lt_succ_of_lt (hpassed n hn).1
  · intro n hn
    exact (hpassed n hn).2.notify (hpassed n hn).1

/-- What is offered was nowhere, or carried by the one that offers it. -/
theorem Leaves.notify {slot? : Option WaitlistSlot} {number? : Option ℕ}
    (hslot : slot ∈ slot? ∨ slot ∉ s.underWay) (hpasses : ∀ n ∈ passes, n ∈ number?) :
    s.Leaves slot? number? (s.notify id slot serviceIds passes) where
  underWay _ h _ := h
  stands other hother hne hnone := by
    refine hnone.notify ?_
    rintro rfl
    rcases hslot with hmine | hfree
    · exact hne hmine
    · exact hfree hother
  offers := Nat.le_succ _
  numbered n hn hnone := hnone.notify hn
  passedOn n hn hne := by
    rcases List.mem_append.1 hn with hnew | hold
    · exact absurd (hpasses n (Option.mem_toList.1 hnew)) hne
    · exact hold

theorem Leaves.settle (slot? : Option WaitlistSlot) (number? : Option ℕ) (s : WaitlistBooks) :
    s.Leaves slot? number? (s.settle slot?) :=
  (Fewer.settle slot? s).leaves fun _ => mem_settle

end WaitlistBooks

open WaitlistBooks

namespace WaitlistCall

variable {c : WaitlistCall}

/-- A request that carries another slot and passes on another offer than the one that moves. -/
theorem Carries.leaves {slot? : Option WaitlistSlot} {number? : Option ℕ} (h : c.Carries s)
    (hleaves : s.Leaves slot? number? s') (hslot : ∀ slot ∈ c.slot, slot ∉ slot?)
    (hnumber : ∀ n ∈ c.number, n ∉ number?) : c.Carries s' where
  underWay slot hmem := hleaves.underWay slot (h.underWay slot hmem) (hslot slot hmem)
  stands slot hmem :=
    hleaves.stands slot (h.underWay slot hmem) (hslot slot hmem) (h.stands slot hmem)
  below n hmem := lt_of_lt_of_le (h.below n hmem) hleaves.offers
  numbered n hmem := hleaves.numbered n (h.below n hmem) (h.numbered n hmem)
  unspent n hmem hpassed := h.unspent n hmem (hleaves.passedOn n hpassed (hnumber n hmem))

theorem Carries.of_eq {a : WaitlistCall} (h : c.Carries s) (hslot : a.slot = c.slot)
    (hnumber : a.number = c.number) : a.Carries s where
  underWay := hslot ▸ h.underWay
  stands := hslot ▸ h.stands
  below := hnumber ▸ h.below
  numbered := hnumber ▸ h.numbered
  unspent := hnumber ▸ hslot ▸ h.unspent

end WaitlistCall

namespace OfferKept

variable {c c' : Option WaitlistCall} {m : ℕ} {after : AfterPass}

theorem move (hsound : s'.Sound) (hleaves : s.Leaves (c.bind (·.slot)) (c.bind (·.number)) s')
    (hmine : ∀ a ∈ c', a.Carries s' ∧ a.Knows dayOf)
    (hslot : ∀ a ∈ c', ∀ slot ∈ a.slot, slot ∈ c.bind (·.slot) ∨
      (slot ∈ s.underWay → ¬s.NoneStands slot))
    (hnumber : ∀ a ∈ c', ∀ n ∈ a.number, n ∈ c.bind (·.number) ∨ ¬s.NoneNumbered n) :
    (waitlistInv dayOf).Kept s c m s' c' := by
  have hmineSlot : ∀ {d : WaitlistCall}, (∀ a ∈ c, (waitlistInv dayOf).pair a d) →
      ∀ slot ∈ d.slot, slot ∉ c.bind (·.slot) := by
    intro d hpair slot hd hc
    obtain ⟨a, rfl, ha⟩ := Option.bind_eq_some_iff.1 hc
    exact (hpair a rfl).1 slot ha hd
  have hmineNumber : ∀ {d : WaitlistCall}, (∀ a ∈ c, (waitlistInv dayOf).pair a d) →
      ∀ n ∈ d.number, n ∉ c.bind (·.number) := by
    intro d hpair n hd hc
    obtain ⟨a, rfl, ha⟩ := Option.bind_eq_some_iff.1 hc
    exact (hpair a rfl).2 n ha hd
  refine ⟨hsound, hmine, ?_, ?_⟩
  · rintro d ⟨hd, hknows⟩ hpair
    exact ⟨hd.leaves hleaves (hmineSlot hpair) (hmineNumber hpair), hknows⟩
  · rintro d ⟨hd, -⟩ hpair a ha
    refine ⟨?_, ?_⟩
    · intro slot hmem hother
      rcases hslot a ha slot hmem with hmine | hfree
      · exact hmineSlot hpair slot hother hmine
      · exact hfree (hd.underWay slot hother) (hd.stands slot hother)
    · intro n hmem hother
      rcases hnumber a ha n hmem with hmine | hnew
      · exact hmineNumber hpair n hother hmine
      · exact hnew (hd.numbered n hother)

/-- It carries nothing. -/
def Idle (dayOf : ℤ → ℤ) (c : Option WaitlistCall) : Prop :=
  ∀ a ∈ c, a.slot = none ∧ a.number = none ∧ a.Knows dayOf

theorem idle_none : Idle dayOf none := by
  intro a ha
  cases ha

theorem idle_some {a : WaitlistCall} (hslot : a.slot = none) (hnumber : a.number = none)
    (hknows : a.Knows dayOf) : Idle dayOf (some a) := by
  intro b hb
  obtain rfl := Option.some.inj hb
  exact ⟨hslot, hnumber, hknows⟩

theorem idle_next (after : AfterPass) : Idle dayOf after.next := by
  cases after with
  | stop => exact idle_none
  | backToWaiting entryId now rest => exact idle_some rfl rfl trivial

/-- A move after which the request carries nothing. -/
theorem idles (hsound : s'.Sound) (hleaves : s.Leaves (c.bind (·.slot)) (c.bind (·.number)) s')
    (hidle : Idle dayOf c') : (waitlistInv dayOf).Kept s c m s' c' := by
  refine move hsound hleaves ?_ ?_ ?_
  · intro a ha
    obtain ⟨hslot, hnumber, hknows⟩ := hidle a ha
    refine ⟨⟨?_, ?_, ?_, ?_, ?_⟩, hknows⟩ <;> simp [hslot, hnumber]
  · intro a ha
    simp [(hidle a ha).1]
  · intro a ha
    simp [(hidle a ha).2.1]

/-- A write that offers nothing, after which the request carries nothing. -/
theorem rests (hsound : s.Sound) (hfewer : s.Fewer s') (hunder : s'.underWay = s.underWay)
    (hidle : Idle dayOf c') : (waitlistInv dayOf).Kept s c m s' c' :=
  idles (hsound.fewer hfewer) (hfewer.leaves fun _ h _ => hunder ▸ h) hidle

/-- The slot of a request is no longer carried. -/
theorem settles {a : WaitlistCall} (hsound : s.Sound) (after : AfterPass) :
    (waitlistInv dayOf).Kept s (some a) m (s.settle a.slot) after.next :=
  idles (hsound.fewer (.settle _ s)) (.settle _ _ s) (idle_next after)

/-- A write that offers nothing, after which a request goes on with what it carries. -/
theorem goes {a b : WaitlistCall} (hsound : s.Sound) (hcarries : a.Carries s)
    (hfewer : s.Fewer s') (hunder : s'.underWay = s.underWay) (hslot : b.slot = a.slot)
    (hnumber : b.number = a.number) (hknows : b.Knows dayOf) :
    (waitlistInv dayOf).Kept s (some a) m s' (some b) := by
  refine move (hsound.fewer hfewer) (hfewer.leaves fun _ h _ => hunder ▸ h) ?_ ?_ ?_
  · intro b' hb
    obtain rfl := Option.some.inj hb
    have hleaves : s.Leaves none none s' := hfewer.leaves fun _ h _ => hunder ▸ h
    exact ⟨(hcarries.leaves hleaves (by simp) (by simp)).of_eq hslot hnumber, hknows⟩
  · intro b' hb slot hmem
    obtain rfl := Option.some.inj hb
    rw [hslot] at hmem
    exact .inl hmem
  · intro b' hb n hmem
    obtain rfl := Option.some.inj hb
    rw [hnumber] at hmem
    exact .inl hmem

/-- A request takes the offer of an entry and carries its slot. -/
theorem takes {b : WaitlistCall} {id : ℕ} {e : WaitlistEntry} {startAt : ℤ}
    {q : WaitlistEntry → Bool} {f : WaitlistEntry → WaitlistEntry} (hsound : s.Sound)
    (hget : s.entries.get? id = some e) (hstart : e.offeredStartAt = some startAt)
    (hq : q e = true) (hf : ∀ e, (f e).offeredStartAt = none)
    (hslot : b.slot = some (startAt, e.offeredBarberId)) (hnumber : b.number = some e.offer)
    (hknows : b.Knows dayOf) :
    (waitlistInv dayOf).Kept s c m ((s.writeIf id q f).track (startAt, e.offeredBarberId))
      (some b) := by
  have hstands : e.stands (startAt, e.offeredBarberId) = true :=
    WaitlistEntry.stands_iff.2 ⟨hstart, rfl⟩
  have hout : e.offeredStartAt.isSome = true := by simp [hstart]
  have hfewer : s.Fewer ((s.writeIf id q f).track (startAt, e.offeredBarberId)) :=
    (Fewer.writeIf id q hf).trans (.track _ _)
  have hcleared : ∀ e', ((s.writeIf id q f).track (startAt, e.offeredBarberId)).entries.get? id =
      some e' → e'.offeredStartAt = none := by
    intro e' he'
    simp only [track, writeIf, Table.get?_modify_self, hget, Option.map_some, hq, if_true] at he'
    obtain rfl := Option.some.inj he'
    exact hf e
  have hother : ∀ j e', ((s.writeIf id q f).track (startAt, e.offeredBarberId)).entries.get? j =
      some e' → e'.offeredStartAt.isSome = true → j ≠ id := by
    rintro j e' he' hout' rfl
    rw [hcleared e' he'] at hout'
    cases hout'
  refine move (hsound.fewer hfewer) (hfewer.leaves fun _ h _ => List.mem_cons_of_mem _ h) ?_ ?_ ?_
  · intro b' hb
    obtain rfl := Option.some.inj hb
    refine ⟨⟨?_, ?_, ?_, ?_, ?_⟩, hknows⟩
    · intro slot hmem
      obtain rfl := Option.some.inj (hslot.symm.trans hmem)
      exact List.mem_cons_self
    · intro slot hmem j e' he'
      obtain rfl := Option.some.inj (hslot.symm.trans hmem)
      by_contra hstands'
      obtain ⟨hstart', hbarber'⟩ := WaitlistEntry.stands_iff.1 (eq_true_of_ne_false hstands')
      have hout' : e'.offeredStartAt.isSome = true := by simp [hstart']
      obtain ⟨e₀, he₀, hstart₀, hbarber₀, -⟩ := hfewer.entries j e' he' hout'
      exact hother j e' he' hout' (hsound.distinct j id e₀ e _ he₀ hget
        (WaitlistEntry.stands_iff.2 ⟨hstart₀.trans hstart', hbarber₀.trans hbarber'⟩) hstands)
    · intro n hmem
      obtain rfl := Option.some.inj (hnumber.symm.trans hmem)
      exact hsound.below id e hget hout
    · intro n hmem j e' he' hout' hsame
      obtain rfl := Option.some.inj (hnumber.symm.trans hmem)
      obtain ⟨e₀, he₀, hstart₀, -, hoffer₀⟩ := hfewer.entries j e' he' hout'
      exact hother j e' he' hout' (hsound.numbers j id e₀ e he₀ hget (hstart₀ ▸ hout') hout
        (hoffer₀.trans hsame))
    · intro n hmem hpassed
      obtain rfl := Option.some.inj (hnumber.symm.trans hmem)
      exact absurd rfl (hsound.passedGone _ hpassed id e hget hout)
  · intro b' hb slot hmem
    obtain rfl := Option.some.inj hb
    obtain rfl := Option.some.inj (hslot.symm.trans hmem)
    refine .inr fun _ hnone => ?_
    rw [hnone id e hget] at hstands
    cases hstands
  · intro b' hb n hmem
    obtain rfl := Option.some.inj hb
    obtain rfl := Option.some.inj (hnumber.symm.trans hmem)
    exact .inr fun hnone => hnone id e hget hout rfl

/-- A booked slot comes free that is offered to none, and a request carries it. -/
theorem frees {startAt : ℤ} {barberId : ℕ} {serviceIds : List ℕ} (hsound : s.Sound)
    (hkeeps : s.free (startAt, some barberId) = true) :
    (waitlistInv dayOf).Kept s none m
      (track { s with agenda := s.agenda.erase (startAt, barberId) } (startAt, some barberId))
      (some (.detecting ⟨startAt, barberId, serviceIds, none⟩ .stop)) := by
  obtain ⟨hunder, hnone⟩ := free_spec hkeeps
  have hfewer : s.Fewer
      (track { s with agenda := s.agenda.erase (startAt, barberId) } (startAt, some barberId)) :=
    .same rfl rfl rfl
  refine move (hsound.fewer hfewer) (hfewer.leaves fun _ h _ => List.mem_cons_of_mem _ h) ?_ ?_ ?_
  · intro b hb
    obtain rfl := Option.some.inj hb
    refine ⟨⟨?_, ?_, ?_, ?_, ?_⟩, trivial⟩
    · intro slot hmem
      obtain rfl := Option.some.inj hmem
      exact List.mem_cons_self
    · intro slot hmem
      obtain rfl := Option.some.inj hmem
      exact hfewer.noneStands hnone
    · simp [WaitlistCall.number]
    · simp [WaitlistCall.number]
    · simp [WaitlistCall.number]
  · intro b hb slot hmem
    obtain rfl := Option.some.inj hb
    obtain rfl := Option.some.inj hmem
    exact .inr fun h => absurd h hunder
  · intro b hb n hn
    obtain rfl := Option.some.inj hb
    cases hn

/-- A request offers the slot that it carries. -/
theorem offers {f : FreedSlot} {id : ℕ} {rest : List (ℕ × WaitlistEntry)} (hsound : s.Sound)
    (hcarries : (WaitlistCall.offering f id rest after).Carries s) :
    (waitlistInv dayOf).Kept s (some (.offering f id rest after)) m
      ((s.notify id f.slot f.serviceIds f.passes).settle f.slot) after.next := by
  have hpasses : ∀ n ∈ f.passes, n < s.offers ∧ s.NoneNumbered n ∧ n ∉ s.passedOn := by
    intro n hn
    refine ⟨hcarries.below n hn, hcarries.numbered n hn, ?_⟩
    intro hpassed
    have hslot := hcarries.unspent n hn hpassed
    cases hslot
  refine idles ?_ ?_ (idle_next after)
  · exact (hsound.notify (hcarries.stands f.slot rfl) hpasses).fewer (.settle _ _)
  · exact (Leaves.notify (.inl rfl) fun _ hn => hn).trans (.settle _ _ _)

/-- An opening offers a start: the one that it passes on, or one that is free. -/
theorem opens {o : Opening} {now t : ℤ} {who : OpenFor} {found : List OpenFor}
    {given : List (ℤ × ℤ)} (hsound : s.Sound)
    (hcarries : (WaitlistCall.offeringOpened o now who t found given after).Carries s)
    (hknows : (WaitlistCall.offeringOpened o now who t found given after).Knows dayOf)
    (hkeeps : (WaitlistCall.offeringOpened o now who t found given after).keepsOffers s = true) :
    (waitlistInv dayOf).Kept s (some (.offeringOpened o now who t found given after)) m
      ((s.notify who.id (t, none) [] ((o.passes.filter fun p => p.2 == t).map Prod.fst)).settle
        ((o.passes.filter fun p => p.2 == t).map fun p => (p.2, none)))
      (some (.giving o now found ((who.date, t) :: given) after)) := by
  obtain ⟨hdays, hfound, hday, hgiven⟩ := hknows
  have hnew : t ∉ given.map Prod.snd := by
    intro hmem
    obtain ⟨⟨d, t'⟩, hp, rfl⟩ := List.mem_map.1 hmem
    obtain rfl : who.date = d := hday.symm.trans (hdays _ hp)
    exact hgiven hp
  have hknows' : (WaitlistCall.giving o now found ((who.date, t) :: given) after).Knows dayOf :=
    ⟨by simpa [hday] using hdays, hfound⟩
  cases hown : o.passes.filter fun p => p.2 == t with
  | none =>
    have hother : ∀ p ∈ o.passes, p.2 ≠ t := by simpa using hown
    obtain ⟨hunder, hnone⟩ : (t, none) ∉ s.underWay ∧ s.NoneStands (t, none) := by
      rcases Bool.or_eq_true_iff.1 hkeeps with hpasses | hfree
      · obtain ⟨p, hp, ht⟩ := (Option.any_eq_true _ _).1 hpasses
        exact absurd (eq_of_beq ht) (hother p hp)
      · exact free_spec hfree
    have hleft : o.left ((who.date, t) :: given) = o.left given := by
      cases ho : o.passes with
      | none => simp [Opening.left, ho]
      | some p =>
        have hmem : p.2 ∈ ((who.date, t) :: given).map Prod.snd ↔ p.2 ∈ given.map Prod.snd := by
          rw [List.map_cons, List.mem_cons, or_iff_right (hother p ho)]
        simp only [Opening.left, ho, Option.bind_some, hmem]
    have hleaves : ∀ slot? number?, s.Leaves slot? number? (s.notify who.id (t, none) [] none) :=
      fun _ _ => .notify (.inr hunder) (by simp)
    refine move (hsound.notify hnone (by simp)) (hleaves _ _) ?_ ?_ ?_
    · intro b hb
      obtain rfl := Option.some.inj hb
      exact ⟨(hcarries.leaves (hleaves none none) (by simp) (by simp)).of_eq hleft rfl, hknows'⟩
    · intro b hb slot hmem
      obtain rfl := Option.some.inj hb
      exact .inl (hleft.symm.trans hmem)
    · intro b hb n hmem
      obtain rfl := Option.some.inj hb
      exact .inl hmem
  | some p =>
    obtain ⟨n, t'⟩ := p
    obtain ⟨ho, rfl⟩ : o.passes = some (n, t') ∧ t' = t := by simpa using hown
    have hslot : o.left given = some (t', none) := by simp [Opening.left, ho, hnew]
    have hleft : o.left ((who.date, t') :: given) = none := by simp [Opening.left, ho]
    have hnumber : (WaitlistCall.offeringOpened o now who t' found given after).number = some n := by
      simp [WaitlistCall.number, ho]
    have hpassed : n ∉ s.passedOn := by
      intro hpassed
      have hnone := hcarries.unspent n hnumber hpassed
      rw [WaitlistCall.slot, hslot] at hnone
      cases hnone
    have hleaves : s.Leaves (some (t', none)) (some n) (s.notify who.id (t', none) [] (some n)) :=
      .notify (.inl rfl) fun _ h => h
    have hsound' : (s.notify who.id (t', none) [] (some n)).Sound := by
      refine hsound.notify (hcarries.stands _ hslot) ?_
      intro n' hn'
      obtain rfl := Option.some.inj hn'
      exact ⟨hcarries.below n hnumber, hcarries.numbered n hnumber, hpassed⟩
    refine move (hsound'.fewer (.settle _ _)) ?_ ?_ ?_ ?_
    · have hmine := hleaves.trans (.settle (some (t', none)) (some n) _)
      simpa [WaitlistCall.slot, WaitlistCall.number, hslot, ho] using hmine
    · intro b hb
      obtain rfl := Option.some.inj hb
      refine ⟨⟨?_, ?_, ?_, ?_, ?_⟩, hknows'⟩
      · simp [WaitlistCall.slot, hleft]
      · simp [WaitlistCall.slot, hleft]
      · intro n' hn'
        exact lt_of_lt_of_le (hcarries.below n' hn') hleaves.offers
      · intro n' hn'
        exact hleaves.numbered n' (hcarries.below n' hn') (hcarries.numbered n' hn')
      · intro _ _ _
        exact hleft
    · intro b hb slot hmem
      obtain rfl := Option.some.inj hb
      rw [WaitlistCall.slot, hleft] at hmem
      cases hmem
    · intro b hb n' hmem
      obtain rfl := Option.some.inj hb
      exact .inl hmem

/-! ### A slot that came free -/

section Calls

variable {k : WaitlistChance} {f : FreedSlot} {o : Opening} {now : ℤ}
  {r : WaitlistBooks × Option WaitlistCall}

theorem detecting (hr : (WaitlistCall.detecting f after).step dayOf k s = some r) :
    (waitlistInv dayOf).Keeps s (some (.detecting f after)) r := by
  intro m hsound hmine
  obtain ⟨hcarries, -⟩ := hmine _ rfl
  simp only [WaitlistCall.step, WaitlistCall.goOn] at hr
  split at hr <;> obtain rfl := Option.some.inj hr
  · exact settles hsound after
  · exact goes hsound hcarries (.refl s) rfl rfl rfl trivial

theorem checkingSlot (hr : (WaitlistCall.checkingSlot f after).step dayOf k s = some r) :
    (waitlistInv dayOf).Keeps s (some (.checkingSlot f after)) r := by
  intro m hsound hmine
  obtain ⟨hcarries, -⟩ := hmine _ rfl
  simp only [WaitlistCall.step, WaitlistCall.goOn] at hr
  split at hr <;> obtain rfl := Option.some.inj hr
  · exact settles hsound after
  · exact goes hsound hcarries (.refl s) rfl rfl rfl trivial

theorem listing (hr : (WaitlistCall.listing f after).step dayOf k s = some r) :
    (waitlistInv dayOf).Keeps s (some (.listing f after)) r := by
  obtain rfl := Option.some.inj hr
  intro m hsound hmine
  exact goes hsound (hmine _ rfl).1 (.refl s) rfl rfl rfl trivial

theorem trying {candidates : List (ℕ × WaitlistEntry)}
    (hr : (WaitlistCall.trying f candidates after).step dayOf k s = some r) :
    (waitlistInv dayOf).Keeps s (some (.trying f candidates after)) r := by
  intro m hsound hmine
  obtain ⟨hcarries, -⟩ := hmine _ rfl
  cases candidates with
  | nil =>
    obtain rfl := Option.some.inj hr
    exact settles hsound after
  | cons row rest =>
    simp only [WaitlistCall.step, WaitlistCall.goOn] at hr
    repeat' split at hr
    all_goals obtain rfl := Option.some.inj hr
    · exact settles hsound after
    · exact goes hsound hcarries (.refl s) rfl rfl rfl trivial
    · exact goes hsound hcarries (.writeIf _ _ fun _ => rfl) rfl rfl rfl trivial
    · exact goes hsound hcarries (.refl s) rfl rfl rfl trivial
    · exact goes hsound hcarries (.refl s) rfl rfl rfl trivial

theorem offering {id : ℕ} {rest : List (ℕ × WaitlistEntry)}
    (hr : (WaitlistCall.offering f id rest after).step dayOf k s = some r) :
    (waitlistInv dayOf).Keeps s (some (.offering f id rest after)) r := by
  intro m hsound hmine
  obtain ⟨hcarries, -⟩ := hmine _ rfl
  simp only [WaitlistCall.step, WaitlistCall.goOn] at hr
  split at hr <;> obtain rfl := Option.some.inj hr
  · exact offers hsound hcarries
  · exact goes hsound hcarries (.refl s) rfl rfl rfl trivial

/-! ### Starts that opened -/

theorem snapshotting {scope : WaitlistOpeningScope}
    (hr : (WaitlistCall.snapshotting scope).step dayOf k s = some r) :
    (waitlistInv dayOf).Keeps s (some (.snapshotting scope)) r := by
  obtain rfl := Option.some.inj hr
  intro m hsound hmine
  exact goes hsound (hmine _ rfl).1 (.refl s) rfl rfl rfl trivial

theorem «opening» (hr : (WaitlistCall.opening o after).step dayOf k s = some r) :
    (waitlistInv dayOf).Keeps s (some (.opening o after)) r := by
  intro m hsound hmine
  obtain ⟨hcarries, -⟩ := hmine _ rfl
  simp only [WaitlistCall.step, WaitlistCall.goOn] at hr
  split at hr <;> obtain rfl := Option.some.inj hr
  · exact settles hsound after
  · refine goes hsound hcarries (.refl s) rfl rfl rfl ⟨by simp, ?_⟩
    intro who hwho t ht
    obtain ⟨row, -, rfl⟩ := List.mem_map.1 hwho
    exact eq_of_beq (List.mem_filter.1 ht).2

theorem giving {found : List OpenFor} {given : List (ℤ × ℤ)}
    (hr : (WaitlistCall.giving o now found given after).step dayOf k s = some r) :
    (waitlistInv dayOf).Keeps s (some (.giving o now found given after)) r := by
  intro m hsound hmine
  obtain ⟨hcarries, hdays, hfound⟩ := hmine _ rfl
  cases found with
  | nil =>
    obtain rfl := Option.some.inj hr
    exact settles hsound after
  | cons who found =>
    have hrest : ∀ x ∈ found, ∀ t ∈ x.slots, dayOf t = x.date :=
      fun x hx => hfound x (List.mem_cons_of_mem _ hx)
    simp only [WaitlistCall.step, WaitlistCall.goOn] at hr
    split at hr
    · obtain rfl := Option.some.inj hr
      exact settles hsound after
    split at hr
    · obtain rfl := Option.some.inj hr
      exact goes hsound hcarries (.refl s) rfl rfl rfl ⟨hdays, hrest⟩
    next t hpick =>
    have hin : t ∈ who.slots := List.mem_of_find?_eq_some hpick
    have hgiven : (who.date, t) ∉ given := by
      have hfits := List.find?_some hpick
      simp only [Bool.and_eq_true, Bool.not_eq_true', List.contains_eq_mem] at hfits
      simpa using hfits.2
    repeat' split at hr
    all_goals obtain rfl := Option.some.inj hr
    · exact goes hsound hcarries (.writeIf _ _ fun _ => rfl) rfl rfl rfl ⟨hdays, hrest⟩
    · exact goes hsound hcarries (.refl s) rfl rfl rfl
        ⟨hdays, hrest, hfound who List.mem_cons_self t hin, hgiven⟩
    · exact goes hsound hcarries (.refl s) rfl rfl rfl ⟨hdays, hrest⟩

theorem offeringOpened {who : OpenFor} {t : ℤ} {found : List OpenFor} {given : List (ℤ × ℤ)}
    (hkeeps : (WaitlistCall.offeringOpened o now who t found given after).keepsOffers s = true)
    (hr : (WaitlistCall.offeringOpened o now who t found given after).step dayOf k s = some r) :
    (waitlistInv dayOf).Keeps s (some (.offeringOpened o now who t found given after)) r := by
  intro m hsound hmine
  obtain ⟨hcarries, hknows⟩ := hmine _ rfl
  simp only [WaitlistCall.step] at hr
  split at hr <;> obtain rfl := Option.some.inj hr
  · exact opens hsound hcarries hknows hkeeps
  · exact goes hsound hcarries (.refl s) rfl rfl rfl ⟨hknows.1, hknows.2.1⟩

/-! ### Offers that are given up or expire -/

theorem passing {p : GivenUp} (hr : (WaitlistCall.passing p after).step dayOf k s = some r) :
    (waitlistInv dayOf).Keeps s (some (.passing p after)) r := by
  intro m hsound hmine
  obtain ⟨hcarries, -⟩ := hmine _ rfl
  obtain ⟨offer, startAt, barberId, serviceIds⟩ := p
  cases barberId with
  | some barberId =>
    simp only [WaitlistCall.step, WaitlistCall.goOn] at hr
    split at hr <;> obtain rfl := Option.some.inj hr
    · exact settles hsound after
    · exact goes hsound hcarries (.refl s) rfl rfl rfl trivial
  | none =>
    simp only [WaitlistCall.step, WaitlistCall.goOn] at hr
    split at hr <;> obtain rfl := Option.some.inj hr
    · exact settles hsound after
    · exact goes hsound hcarries (.refl s) rfl rfl rfl trivial

theorem expiring (hr : WaitlistCall.expiring.step dayOf k s = some r) :
    (waitlistInv dayOf).Keeps s (some .expiring) r := by
  obtain rfl := Option.some.inj hr
  intro m hsound hmine
  exact goes hsound (hmine _ rfl).1 (.refl s) rfl rfl rfl trivial

theorem releasing {rest : List (ℕ × WaitlistEntry)}
    (hkeeps : (WaitlistCall.releasing now rest).keepsOffers s = true)
    (hr : (WaitlistCall.releasing now rest).step dayOf k s = some r) :
    (waitlistInv dayOf).Keeps s (some (.releasing now rest)) r := by
  intro m hsound hmine
  obtain ⟨hcarries, -⟩ := hmine _ rfl
  cases rest with
  | nil =>
    obtain rfl := Option.some.inj hr
    exact goes hsound hcarries (.refl s) rfl rfl rfl trivial
  | cons row rest =>
    obtain ⟨id, seen⟩ := row
    simp only [WaitlistCall.step] at hr
    split at hr
    swap
    · obtain rfl := Option.some.inj hr
      exact goes hsound hcarries (.refl s) rfl rfl rfl trivial
    next startAt e hseen hget =>
    split at hr <;> obtain rfl := Option.some.inj hr
    · next hstart =>
      have hbarber : e.offeredBarberId = seen.offeredBarberId := by
        simpa [WaitlistCall.keepsOffers, hget, hstart, hseen] using hkeeps
      rw [← hbarber]
      exact takes hsound hget hstart rfl (fun _ => rfl) rfl rfl trivial
    · exact goes hsound hcarries (.refl s) rfl rfl rfl trivial

theorem returning {entryId : ℕ} {rest : List (ℕ × WaitlistEntry)}
    (hr : (WaitlistCall.returning entryId now rest).step dayOf k s = some r) :
    (waitlistInv dayOf).Keeps s (some (.returning entryId now rest)) r := by
  obtain rfl := Option.some.inj hr
  intro m hsound hmine
  exact goes hsound (hmine _ rfl).1 (.writeIf _ _ fun _ => rfl) rfl rfl rfl trivial

theorem sweeping (hr : (WaitlistCall.sweeping now).step dayOf k s = some r) :
    (waitlistInv dayOf).Keeps s (some (.sweeping now)) r := by
  obtain rfl := Option.some.inj hr
  intro m hsound _
  refine rests hsound (.modifyAll ?_) rfl idle_none
  intro i e
  split
  · exact .inr rfl
  · exact .inl rfl

theorem finding {id : ℕ} {leaves : Bool}
    (hr : (WaitlistCall.finding id leaves).step dayOf k s = some r) :
    (waitlistInv dayOf).Keeps s (some (.finding id leaves)) r := by
  intro m hsound hmine
  simp only [WaitlistCall.step] at hr
  split at hr
  · obtain rfl := Option.some.inj hr
    exact rests hsound (.refl s) rfl idle_none
  next e hget =>
  split at hr <;> obtain rfl := Option.some.inj hr
  · exact rests hsound (.refl s) rfl idle_none
  · exact goes hsound (hmine _ rfl).1 (.refl s) rfl rfl rfl trivial

theorem dropping {id : ℕ} {seen : WaitlistEntry} {offer : Option ℤ} {leaves : Bool}
    (hkeeps : (WaitlistCall.dropping id seen offer leaves).keepsOffers s = true)
    (hr : (WaitlistCall.dropping id seen offer leaves).step dayOf k s = some r) :
    (waitlistInv dayOf).Keeps s (some (.dropping id seen offer leaves)) r := by
  intro m hsound _
  simp only [WaitlistCall.step] at hr
  split at hr
  · obtain rfl := Option.some.inj hr
    exact rests hsound (.refl s) rfl idle_none
  next e hget =>
  split at hr
  swap
  · obtain rfl := Option.some.inj hr
    refine rests hsound (.refl s) rfl ?_
    split
    · exact idle_some rfl rfl trivial
    · exact idle_none
  next hqueued =>
  cases offer with
  | none =>
    obtain rfl := Option.some.inj hr
    exact rests hsound (.writeIf _ _ fun _ => rfl) rfl idle_none
  | some startAt =>
    obtain rfl := Option.some.inj hr
    have hstart : e.offeredStartAt = some startAt := by simpa using hqueued.2
    have hbarber : e.offeredBarberId = seen.offeredBarberId := by
      simpa [WaitlistCall.keepsOffers, hget, hstart] using hkeeps
    rw [← hbarber]
    exact takes hsound hget hstart hqueued.1 (fun _ => rfl) rfl rfl trivial

theorem leaving {id : ℕ} (hr : (WaitlistCall.leaving id).step dayOf k s = some r) :
    (waitlistInv dayOf).Keeps s (some (.leaving id)) r := by
  obtain rfl := Option.some.inj hr
  intro m hsound _
  exact rests hsound (.writeIf _ _ fun _ => rfl) rfl idle_none

/-! ### Any move -/

theorem step {a : WaitlistCall} (hkeeps : a.keepsOffers s = true)
    (hr : a.step dayOf k s = some r) : (waitlistInv dayOf).Keeps s (some a) r := by
  cases a with
  | detecting f after => exact detecting hr
  | checkingSlot f after => exact checkingSlot hr
  | listing f after => exact listing hr
  | trying f candidates after => exact trying hr
  | offering f id rest after => exact offering hr
  | snapshotting scope => exact snapshotting hr
  | «opening» o after => exact «opening» hr
  | giving o now found given after => exact giving hr
  | offeringOpened o now who t found given after => exact offeringOpened hkeeps hr
  | passing p after => exact passing hr
  | expiring => exact expiring hr
  | releasing now rest => exact releasing hkeeps hr
  | returning entryId now rest => exact returning hr
  | sweeping now => exact sweeping hr
  | finding id leaves => exact finding hr
  | dropping id seen offer leaves => exact dropping hkeeps hr
  | leaving id => exact leaving hr

theorem event {e : WaitlistEvent} (hkeeps : e.keepsOffers s = true) (hr : e.step s = some r) :
    (waitlistInv dayOf).Keeps s none r := by
  intro m hsound _
  cases e with
  | pass time =>
    obtain rfl := Option.some.inj hr
    exact rests hsound (.same rfl rfl rfl) rfl idle_none
  | join barberId serviceId date =>
    obtain rfl := Option.some.inj hr
    refine rests hsound ⟨?_, rfl, rfl⟩ rfl idle_none
    intro i e he hout
    rcases Table.get?_insert_cases he with ⟨-, rfl⟩ | hold
    · cases hout
    · exact ⟨e, hold, rfl, rfl, rfl⟩
  | book startAt barberId =>
    simp only [WaitlistEvent.step] at hr
    split at hr
    · cases hr
    · obtain rfl := Option.some.inj hr
      exact rests hsound (.same rfl rfl rfl) rfl idle_none
  | cancelAppointment startAt barberId serviceIds =>
    simp only [WaitlistEvent.step] at hr
    split at hr
    swap
    · cases hr
    obtain rfl := Option.some.inj hr
    exact frees hsound hkeeps
  | withWaitlistOpening scope =>
    obtain rfl := Option.some.inj hr
    exact rests hsound (.refl s) rfl (idle_some rfl rfl trivial)
  | passExpiredWaitlistOffers =>
    obtain rfl := Option.some.inj hr
    exact rests hsound (.refl s) rfl (idle_some rfl rfl trivial)
  | leaveWaitlist id =>
    obtain rfl := Option.some.inj hr
    exact rests hsound (.refl s) rfl (idle_some rfl rfl trivial)
  | cancelWaitlistEntry id =>
    obtain rfl := Option.some.inj hr
    exact rests hsound (.refl s) rfl (idle_some rfl rfl trivial)
  | closeStale id booked =>
    obtain rfl := Option.some.inj hr
    exact rests hsound (.writeIf _ _ fun _ => rfl) rfl idle_none

end Calls

end OfferKept

end Steps

/-! ## Runs -/

theorem WaitlistBooks.sound_initial (now : ℤ) (agenda : List (ℤ × ℕ)) :
    (WaitlistBooks.initial now agenda).Sound where
  distinct _ _ _ _ _ hi := by cases hi
  numbers _ _ _ _ hi := by cases hi
  below _ _ hi := by cases hi
  passedOn := List.nodup_nil
  passedBelow _ hn := by cases hn
  passedGone _ hn := by cases hn

theorem slot_offered_to_one {dayOf : ℤ → ℤ} {now : ℤ} {agenda : List (ℤ × ℕ)}
    {moves : List (Move WaitlistEvent WaitlistChance)} {x : Calls WaitlistBooks WaitlistCall}
    (hmeets : (waitlist dayOf).machine.Meets (CallSystem.When (fun e s => e.keepsOffers s = true)
      fun _ c s => c.keepsOffers s = true) (.idle (.initial now agenda)) moves)
    (hrun : (waitlist dayOf).machine.run (.idle (.initial now agenda)) moves = some x) :
    x.shared.Exclusive := by
  have hidle : (waitlistInv dayOf).Holds (.idle (.initial now agenda)) :=
    CallInv.holds_idle (WaitlistBooks.sound_initial now agenda)
  have hholds : (waitlistInv dayOf).Holds x := by
    refine hidle.run ?_ ?_ hmeets hrun
    · intro e s r hkeeps hevent
      exact OfferKept.event hkeeps hevent
    · intro k c s r hkeeps hstep
      exact OfferKept.step hkeeps hstep
  exact WaitlistBooks.Sound.exclusive hholds.whole

/-- The next steps of a request. -/
def waitlistSteps (i n : ℕ) : List (Move WaitlistEvent WaitlistChance) := List.replicate n (.step i {})

/-- Two wait for a day, and a slot of it comes free. -/
def slotFreed : List (Move WaitlistEvent WaitlistChance) :=
  [.event (.join none none 0), .event (.join none none 0), .event (.cancelAppointment 1000 7 [])] ++
    waitlistSteps 1 5

/-- The one that it was offered to leaves the list. -/
def offerPassedOn : List (Move WaitlistEvent WaitlistChance) :=
  slotFreed ++ .event (.leaveWaitlist 1) :: waitlistSteps 2 8

/-- Another books the slot, and cancels. -/
def slotFreedTwice : List (Move WaitlistEvent WaitlistChance) :=
  slotFreed ++ [.event (.book 1000 7), .event (.cancelAppointment 1000 7 [])] ++ waitlistSteps 2 5

theorem offer_passed_on : ∃ x,
    (waitlist fun _ => 0).machine.run (.idle (.initial 0 [(1000, 7)])) offerPassedOn = some x ∧
    x.shared.passedOn = [0] ∧
    (x.shared.entries.get? 2).any (·.live x.shared.now (1000, some 7)) = true ∧
    x.shared.Exclusive := by
  have hmeets : (waitlist fun _ => 0).machine.Meets (CallSystem.When
      (fun e s => e.keepsOffers s = true) fun _ c s => c.keepsOffers s = true)
      (.idle (.initial 0 [(1000, 7)])) offerPassedOn := by
    decide +kernel
  have hsome : ((waitlist fun _ => 0).machine.run (.idle (.initial 0 [(1000, 7)]))
      offerPassedOn).any (fun x => x.shared.passedOn == [0] &&
        (x.shared.entries.get? 2).any (·.live x.shared.now (1000, some 7))) = true := by
    decide +kernel
  obtain ⟨x, hrun, hout⟩ := (Option.any_eq_true _ _).1 hsome
  simp only [Bool.and_eq_true, beq_iff_eq] at hout
  exact ⟨x, hrun, hout.1, hout.2, slot_offered_to_one hmeets hrun⟩

/-- A slot that is offered is booked and comes free again, and is offered to the next as well. -/
theorem slot_offered_to_two : ∃ x,
    (waitlist fun _ => 0).machine.run (.idle (.initial 0 [(1000, 7)])) slotFreedTwice = some x ∧
    ¬x.shared.Exclusive := by
  have hsome : ((waitlist fun _ => 0).machine.run (.idle (.initial 0 [(1000, 7)]))
      slotFreedTwice).any (fun x =>
        (x.shared.entries.get? 1).any (·.live x.shared.now (1000, some 7)) &&
        (x.shared.entries.get? 2).any (·.live x.shared.now (1000, some 7))) = true := by
    decide +kernel
  simp only [Option.any_eq_true, Bool.and_eq_true] at hsome
  obtain ⟨x, hrun, ⟨e, he, hlive⟩, e', he', hlive'⟩ := hsome
  refine ⟨x, hrun, fun hexclusive => ?_⟩
  have hsame : 1 = 2 := hexclusive.one 1 2 e e' _ he he' hlive hlive'
  omega

end Barbershop
