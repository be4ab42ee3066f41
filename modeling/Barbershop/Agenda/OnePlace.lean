import Barbershop.Agenda.Public
import Barbershop.Lib.Classes
import Barbershop.Lib.Reservation

/-!
# One customer, one place

A customer is a class of records that share a phone or an account. No two bookings of one customer
overlap and at most `PUBLIC_UPCOMING_LIMIT` of them are to come, in every run of public requests
whose writes see the customer (`SeesCustomer`): a request that writes has looked at every record of
the customer that has a booking, and the bookings are as it saw them. A lock on the phone gives that
between creations with one phone; nothing gives it between a creation and a move, between two moves,
or where the records of a customer have different phones.
-/

namespace Barbershop

open Lib

/-! ## Customers -/

namespace Diary

/-- Two records of a network share a phone, in some way of storing it, or an account. -/
def Shares (d : Diary) (i j : ℕ) : Prop :=
  ∃ r s, d.db.customers.get? i = some r ∧ d.db.customers.get? j = some s ∧
    r.networkId = s.networkId ∧
    ((∃ v ∈ phoneDigitVariants (d.phone i), v ∈ phoneDigitVariants (d.phone j)) ∨
      ∃ account, r.clientAccountId = some account ∧ s.clientAccountId = some account)

/-- The records of one customer. -/
def SameCustomer (d : Diary) : ℕ → ℕ → Prop := Relation.EqvGen d.Shares

theorem Shares.symm {d : Diary} {i j : ℕ} (h : d.Shares i j) : d.Shares j i := by
  obtain ⟨r, s, hr, hs, hnetwork, hshared⟩ := h
  refine ⟨s, r, hs, hr, hnetwork.symm, ?_⟩
  rcases hshared with ⟨v, hi, hj⟩ | ⟨account, hi, hj⟩
  · exact .inl ⟨v, hj, hi⟩
  · exact .inr ⟨account, hj, hi⟩

/-! ## Bookings -/

/-- The bookings of the requests that take their slot. -/
def book (d : Diary) (id : ℕ) : Option Appointment :=
  if id ∈ d.made then (d.db.appointments.get? id).filter (·.status.occupies) else none

/-- Two bookings of one customer, at units of one network, at one time. -/
def Clash (site : Site) (d : Diary) (a b : Appointment) : Prop :=
  site.networkOf a.barbershopId = site.networkOf b.barbershopId ∧
    d.SameCustomer a.customerId b.customerId ∧ a.startAt < b.endAt ∧ b.startAt < a.endAt

/-- The bookings of a customer that are to come. -/
def upcomingOf (site : Site) (d : Diary) (networkId customerId : ℕ) : Set ℕ :=
  {id | ∃ a, d.book id = some a ∧ a.status.upcoming = true ∧ d.now < a.startAt ∧
    site.networkOf a.barbershopId = networkId ∧ d.SameCustomer customerId a.customerId}

theorem book_eq_some {d : Diary} {id : ℕ} {a : Appointment} : d.book id = some a ↔
    id ∈ d.made ∧ d.db.appointments.get? id = some a ∧ a.status.occupies = true := by
  unfold book
  split
  · next hmade => simp [hmade, Option.filter_eq_some_iff]
  · next hmade => simp [hmade]

end Diary

/-- The law: of one customer, no two bookings overlap, and not too many are to come. -/
structure OnePlace (site : Site) (d : Diary) : Prop where
  apart : ClashFree (d.Clash site) d.book
  upcoming : ∀ networkId customerId,
    (d.upcomingOf site networkId customerId).encard ≤ PUBLIC_UPCOMING_LIMIT

/-! ## What a request has to see -/

/-- Whoever shares a phone or an account with the record that is to be created is one customer. -/
def CreateCall.JoinsNone (site : Site) (c : CreateCall) (d : Diary) : Prop :=
  ∀ i j, i ≠ d.db.customers.next → j ≠ d.db.customers.next →
    (c.record site d).Shares i d.db.customers.next →
    (c.record site d).Shares j d.db.customers.next → d.SameCustomer i j

/-- Each booking of a customer, in the network and other than the one that moves, is of a record the
request has looked at, and is as the two queries on appointments saw it. -/
def PublicCustomer.Sees (site : Site) (who : PublicCustomer) (customerId : ℕ)
    (exclude : Option ℕ) (reads : CheckRead → Diary) (d : Diary) : Prop :=
  ∀ id a, d.book id = some a → exclude ≠ some id → site.networkOf a.barbershopId = who.networkId →
    d.SameCustomer customerId a.customerId → a.customerId ∈ who.ids reads ∧
      (reads .overlap).db.appointments.get? id = some a ∧
      (reads .upcoming).db.appointments.get? id = some a

/-- What each step of a request has to meet. -/
def PublicCall.SeesCustomer (site : Site) (k : PublicStep) (c : PublicCall) (s : Front) : Prop :=
  match k, c with
  | .createRecord, .create c => c.found = some none → c.JoinsNone site s.diary
  | .write, .create c => ∀ customerId ∈ c.customerId,
    (c.who site).Sees site customerId none (c.looks.reads s.diary) s.diary
  | .write, .move c => (c.who site).Sees site c.seen.customerId (some c.appointmentId)
    (c.looks.reads s.diary) s.diary
  | _, _ => True

/-- Before the requests: each appointment is of a customer that was there. -/
structure Diary.Start (d : Diary) : Prop where
  made : d.made = []
  customers : ∀ {id a}, d.db.appointments.get? id = some a → a.customerId < d.db.customers.next

/-! ## One write -/

section Write

variable {site : Site} {d d' : Diary} {e : ℕ} {a : Appointment}

theorem Diary.Clash.symm {b : Appointment} (h : d.Clash site a b) : d.Clash site b a :=
  ⟨h.1.symm, .symm _ _ h.2.1, h.2.2.2, h.2.2.1⟩

/-- The check passed and the request sees the customer: the slot is clear and there is room. -/
theorem PublicCustomer.check_ok {who : PublicCustomer} {startAt endAt : ℤ} {exclude : Option ℕ}
    {reads : CheckRead → Diary}
    (h : who.assertPublicCustomerCanBook site startAt endAt exclude reads = .ok ()) :
    (∀ id b, (reads .overlap).db.appointments.get? id = some b →
      who.owns site reads exclude id b = true → b.takes startAt endAt = false) ∧
    ((reads .upcoming).db.appointments.filter fun id b =>
      who.owns site reads exclude id b && b.status.upcoming &&
        decide ((reads .upcoming).now < b.startAt)).length < PUBLIC_UPCOMING_LIMIT := by
  unfold assertPublicCustomerCanBook at h
  split at h
  · next hnone =>
    have howns : ∀ id b, who.owns site reads exclude id b = false := by
      intro id b
      simp [owns, hnone]
    refine ⟨fun id b _ hown => ?_, ?_⟩
    · rw [howns] at hown
      cases hown
    · simp [howns, Table.filter, PUBLIC_UPCOMING_LIMIT]
  · simp only [bind_eq_ok, exists_punit, refuseIf_eq_ok, Bool.not_eq_true, not_le] at h
    refine ⟨fun id b hb hown => ?_, h.2⟩
    have hfree := Table.any_eq_false.1 h.1 id b hb
    rwa [hown, Bool.true_and] at hfree

/-- A booking of a customer is written where the slot is clear and there is room. -/
theorem OnePlace.write (h : OnePlace site d) (hsame : d'.SameCustomer = d.SameCustomer)
    (hnow : d'.now = d.now) (hbook : d'.book = Function.update d.book e (some a))
    (hclear : Clear (d.Clash site) d.book (some e) a)
    (hroom : (d.upcomingOf site (site.networkOf a.barbershopId) a.customerId \ {e}).encard <
      PUBLIC_UPCOMING_LIMIT) : OnePlace site d' := by
  have hclash : d'.Clash site = d.Clash site := by
    unfold Diary.Clash
    rw [hsame]
  constructor
  · rw [hclash, hbook]
    exact h.apart.write (fun _ _ => Diary.Clash.symm) hclear
  · intro networkId customerId
    by_cases hmine : site.networkOf a.barbershopId = networkId ∧
        d.SameCustomer customerId a.customerId
    · obtain ⟨rfl, hcustomer⟩ := hmine
      refine encard_le_succ (e := e) (fun id hid => ?_) hroom
      obtain ⟨b, hb, hup, hlater, hnetwork, hof⟩ := hid
      rw [hbook, Function.update_apply] at hb
      split at hb
      · next heq => exact .inl heq
      · next hne =>
        rw [hnow] at hlater
        rw [hsame] at hof
        exact .inr ⟨⟨b, hb, hup, hlater, hnetwork, .trans _ _ _ (.symm _ _ hcustomer) hof⟩, hne⟩
    · refine (Set.encard_le_encard fun id hid => ?_).trans (h.upcoming networkId customerId)
      obtain ⟨b, hb, hup, hlater, hnetwork, hof⟩ := hid
      rw [hsame] at hof
      rw [hbook, Function.update_apply] at hb
      split at hb
      · obtain rfl := Option.some.inj hb
        exact absurd ⟨hnetwork, hof⟩ hmine
      · rw [hnow] at hlater
        exact ⟨b, hb, hup, hlater, hnetwork, hof⟩

/-- A request that sees its customer finds the slot clear and room for the booking. -/
theorem PublicCustomer.Sees.room {who : PublicCustomer} {exclude : Option ℕ}
    {reads : CheckRead → Diary} (hsees : who.Sees site a.customerId exclude reads d)
    (hnetwork : site.networkOf a.barbershopId = who.networkId) (he : ∀ id ∈ exclude, id = e)
    (hnow : (reads .upcoming).now ≤ d.now)
    (hcheck : who.assertPublicCustomerCanBook site a.startAt a.endAt exclude reads = .ok ()) :
    Clear (d.Clash site) d.book (some e) a ∧
      (d.upcomingOf site (site.networkOf a.barbershopId) a.customerId \ {e}).encard <
        PUBLIC_UPCOMING_LIMIT := by
  obtain ⟨hfree, hcount⟩ := PublicCustomer.check_ok hcheck
  have hother : ∀ {id}, id ≠ e → exclude ≠ some id := fun hne h => hne (he _ h)
  have howns : ∀ {id b}, d.book id = some b → id ≠ e →
      site.networkOf b.barbershopId = who.networkId → d.SameCustomer a.customerId b.customerId →
      who.owns site reads exclude id b = true ∧
        (reads .overlap).db.appointments.get? id = some b ∧
        (reads .upcoming).db.appointments.get? id = some b := by
    intro id b hb hne hnet hof
    obtain ⟨hmem, hoverlap, hupcoming⟩ := hsees id b hb (hother hne) hnet hof
    refine ⟨?_, hoverlap, hupcoming⟩
    simp [PublicCustomer.owns, hmem, hnet, hother hne]
  constructor
  · rintro id b hb hne ⟨hnet, hof, hstart, hend⟩
    have hne' : id ≠ e := fun h => hne (by rw [h])
    obtain ⟨hown, hoverlap, -⟩ := howns hb hne' (hnet.symm.trans hnetwork) hof
    have htakes := hfree id b hoverlap hown
    have hoccupies := (Diary.book_eq_some.1 hb).2.2
    simp [Appointment.takes, hoccupies, hend, hstart] at htakes
  · refine lt_of_le_of_lt (encard_le_length_filter fun id hid => ?_) (by exact_mod_cast hcount)
    obtain ⟨⟨b, hb, hup, hlater, hnet, hof⟩, hne⟩ := hid
    obtain ⟨hown, -, hupcoming⟩ := howns hb hne (hnet.trans hnetwork) hof
    refine ⟨b, hupcoming, ?_⟩
    simp only [hown, hup, Bool.and_self, Bool.true_and, decide_eq_true_eq]
    exact lt_of_le_of_lt hnow hlater

/-- A booking as it was, or moved on without taking its slot back. -/
structure SameBooking (b a : Appointment) : Prop where
  barbershopId : a.barbershopId = b.barbershopId
  customerId : a.customerId = b.customerId
  startAt : a.startAt = b.startAt
  endAt : a.endAt = b.endAt
  upcoming : a.status.upcoming = true → b.status.upcoming = true

theorem SameBooking.refl (a : Appointment) : SameBooking a a := ⟨rfl, rfl, rfl, rfl, id⟩

/-- No booking is added, and no two customers with bookings become one. -/
theorem OnePlace.fewer (h : OnePlace site d) (hnow : d.now ≤ d'.now)
    (hbook : ∀ id a, d'.book id = some a → ∃ b, d.book id = some b ∧ SameBooking b a)
    (hsame : ∀ {id₁ id₂ b₁ b₂}, d.book id₁ = some b₁ → d.book id₂ = some b₂ →
      d'.SameCustomer b₁.customerId b₂.customerId → d.SameCustomer b₁.customerId b₂.customerId) :
    OnePlace site d' := by
  constructor
  · rintro id₁ id₂ a₁ a₂ h₁ h₂ hne ⟨hnetwork, hof, hstart, hend⟩
    obtain ⟨b₁, hb₁, hs₁⟩ := hbook id₁ a₁ h₁
    obtain ⟨b₂, hb₂, hs₂⟩ := hbook id₂ a₂ h₂
    rw [hs₁.customerId, hs₂.customerId] at hof
    rw [hs₁.barbershopId, hs₂.barbershopId] at hnetwork
    rw [hs₁.startAt, hs₂.endAt] at hstart
    rw [hs₁.endAt, hs₂.startAt] at hend
    exact h.apart hb₁ hb₂ hne ⟨hnetwork, hsame hb₁ hb₂ hof, hstart, hend⟩
  · intro networkId customerId
    rcases (d'.upcomingOf site networkId customerId).eq_empty_or_nonempty with hnone | ⟨id₁, hid₁⟩
    · rw [hnone, Set.encard_empty]
      exact zero_le
    · -- any one of the bookings stands for the customer
      obtain ⟨a₁, ha₁, -, -, -, hof₁⟩ := hid₁
      obtain ⟨b₁, hb₁, hs₁⟩ := hbook id₁ a₁ ha₁
      refine (Set.encard_le_encard fun id hid => ?_).trans (h.upcoming networkId b₁.customerId)
      obtain ⟨a, ha, hup, hlater, hnetwork, hof⟩ := hid
      obtain ⟨b, hb, hs⟩ := hbook id a ha
      rw [hs₁.customerId] at hof₁
      rw [hs.customerId] at hof
      rw [hs.startAt] at hlater
      rw [hs.barbershopId] at hnetwork
      exact ⟨b, hb, hs.upcoming hup, lt_of_le_of_lt hnow hlater, hnetwork,
        hsame hb₁ hb (.trans _ _ _ (.symm _ _ hof₁) hof)⟩

end Write

/-! ## The invariant -/

/-- The unit and the customer of an appointment stay. -/
structure SamePlace (a b : Appointment) : Prop where
  barbershopId : b.barbershopId = a.barbershopId
  customerId : b.customerId = a.customerId

theorem SamePlace.trans {a b c : Appointment} (h : SamePlace a b) (h' : SamePlace b c) :
    SamePlace a c :=
  ⟨h'.1.trans h.1, h'.2.trans h.2⟩

/-- What every step does to a diary. -/
structure Diary.Later (d d' : Diary) : Prop where
  now : d.now ≤ d'.now
  customers : d.db.customers.next ≤ d'.db.customers.next
  appointments : d.db.appointments.Evolves SamePlace d'.db.appointments

theorem Diary.Later.refl (d : Diary) : d.Later d :=
  ⟨le_rfl, le_rfl, .refl (fun _ => ⟨rfl, rfl⟩) _⟩

/-- What a request knows of the diary. -/
def PublicCall.Known (d : Diary) : PublicCall → Prop
  | .create c => (∀ id, c.found = some (some id) → id < d.db.customers.next) ∧
    (∀ id ∈ c.customerId, id < d.db.customers.next) ∧ ∀ l ∈ c.looks, l.now ≤ d.now
  | .move c => c.appointmentId < d.db.appointments.next ∧
    (∀ a, d.db.appointments.get? c.appointmentId = some a → SamePlace c.seen a) ∧
    ∀ l ∈ c.looks, l.now ≤ d.now

theorem PublicCall.Known.later {d d' : Diary} {c : PublicCall} (h : c.Known d) (hd : d.Later d') :
    c.Known d' := by
  cases c with
  | create c =>
    obtain ⟨hfound, hcustomer, hlooks⟩ := h
    exact ⟨fun id hid => (hfound id hid).trans_le hd.customers,
      fun id hid => (hcustomer id hid).trans_le hd.customers,
      fun l hl => (hlooks l hl).trans hd.now⟩
  | move c =>
    obtain ⟨hid, hseen, hlooks⟩ := h
    refine ⟨hid.trans_le hd.appointments.next_le, fun a ha => ?_,
      fun l hl => (hlooks l hl).trans hd.now⟩
    obtain ⟨b, hb, hplace⟩ := hd.appointments.row _ a ha hid
    exact (hseen b hb).trans hplace

/-- The law, with every appointment of a customer that is there. -/
structure Diary.Sound (site : Site) (d : Diary) : Prop where
  onePlace : OnePlace site d
  customers : ∀ {id a}, d.db.appointments.get? id = some a → a.customerId < d.db.customers.next

def placeInv (site : Site) : CallInv Front PublicCall ℕ where
  weight _ := 0
  whole s _ := s.diary.Sound site
  each s c := c.Known s.diary

/-- A move leaves the law, what it knows, and a later diary. -/
theorem placeInv_kept {site : Site} {s s' : Front} {c c' : Option PublicCall} {m : ℕ}
    (hsound : s'.diary.Sound site) (hlater : s.diary.Later s'.diary)
    (hmine : ∀ a ∈ c', a.Known s'.diary) : (placeInv site).Kept s c m s' c' where
  whole := hsound
  mine := hmine
  others _ hd _ := PublicCall.Known.later hd hlater
  apart _ _ _ _ _ := trivial

section Steps

variable {site : Site} {d : Diary}

theorem Looks.now_le {looks : Looks} (h : ∀ l ∈ looks, l.now ≤ d.now) (r : CheckRead) :
    (looks.reads d r).now ≤ d.now := by
  have hget : ∀ i, (looks.getD i d).now ≤ d.now := by
    intro i
    rw [List.getD_eq_getElem?_getD]
    cases hi : looks[i]? with
    | none => exact le_rfl
    | some l => exact h l (List.mem_of_getElem? hi)
  cases r <;> exact hget _

theorem Diary.customerIdsByPhone_lt {networkId : ℕ} {phone : PhoneText} {id : ℕ}
    (h : id ∈ d.customerIdsByPhone networkId phone) : id < d.db.customers.next := by
  obtain ⟨⟨k, c⟩, hmem, rfl⟩ := List.mem_map.1 h
  exact Table.lt_next_of_get? (Table.mem_filter.1 hmem).1

/-- The new record is in no booking and, under the condition, joins no two customers. -/
theorem CreateCall.record_sound {c : CreateCall} (h : d.Sound site) (hjoins : c.JoinsNone site d) :
    (c.record site d).Sound site where
  onePlace := by
    refine h.onePlace.fewer le_rfl (fun id a ha => ⟨a, ha, .refl a⟩) ?_
    intro id₁ id₂ b₁ b₂ hb₁ hb₂ hof
    have hold : ∀ {id b}, d.book id = some b → b.customerId ≠ d.db.customers.next :=
      fun hb => Nat.ne_of_lt (h.customers (Diary.book_eq_some.1 hb).2.1)
    refine eqvGen_of_joined (fun hR => Diary.Shares.symm hR) ?_ (fun hi hj => hjoins _ _ hi hj) hof
      (hold hb₁) (hold hb₂)
    rintro i j hi hj ⟨r, s, hr, hs, hshared⟩
    have hget : ∀ {k}, k ≠ d.db.customers.next →
        (c.record site d).db.customers.get? k = d.db.customers.get? k := by
      intro k hk
      exact (Table.get?_insert _ _ _).trans (if_neg hk)
    have hphone : ∀ {k}, k ≠ d.db.customers.next → (c.record site d).phone k = d.phone k :=
      fun hk => Function.update_of_ne hk _ _
    rw [hget hi] at hr
    rw [hget hj] at hs
    rw [hphone hi, hphone hj] at hshared
    exact ⟨r, s, hr, hs, hshared⟩
  customers ha := (h.customers ha).trans (Nat.lt_succ_self _)

theorem CreateCall.record_later (c : CreateCall) : d.Later (c.record site d) where
  now := le_rfl
  customers := Nat.le_succ _
  appointments := .refl (fun _ => ⟨rfl, rfl⟩) _

/-- The diary after a creation. -/
def Diary.withNew (d : Diary) (a : Appointment) : Diary :=
  { d with
    db := { d.db with appointments := d.db.appointments.insert a }
    made := d.db.appointments.next :: d.made }

theorem Diary.book_withNew {a : Appointment} (ha : a.status.occupies = true) :
    (d.withNew a).book = Function.update d.book d.db.appointments.next (some a) := by
  funext id
  by_cases heq : id = d.db.appointments.next
  · subst heq
    simp [book, withNew, ha]
  · simp [book, withNew, heq, Table.get?_insert]

/-- The diary after an appointment was moved. -/
def Diary.withMoved (d : Diary) (id : ℕ) (f : Appointment → Appointment) : Diary :=
  { d with
    db := { d.db with appointments := d.db.appointments.modify id f }
    made := id :: d.made }

theorem Diary.book_withMoved {id : ℕ} {f : Appointment → Appointment} {a : Appointment}
    (ha : d.db.appointments.get? id = some a) (hf : (f a).status.occupies = true) :
    (d.withMoved id f).book = Function.update d.book id (some (f a)) := by
  funext k
  by_cases heq : k = id
  · subst heq
    simp [book, withMoved, ha, hf]
  · simp [book, withMoved, heq, Table.get?_modify]

theorem CreateCall.row_occupies (c : CreateCall) (customerId barberId : ℕ) (now : ℤ) :
    (c.row customerId barberId now).status.occupies = true := by
  unfold row
  split <;> rfl

/-- A creation that sees its customer keeps the law. -/
theorem CreateCall.write_sound {c : CreateCall} {customerId barberId : ℕ} (h : d.Sound site)
    (hknown : (PublicCall.create c).Known d) (hcustomer : c.customerId = some customerId)
    (hsees : (c.who site).Sees site customerId none (c.looks.reads d) d)
    (hcheck : c.check site barberId d = .ok ()) :
    (d.withNew (c.row customerId barberId d.now)).Sound site where
  onePlace := by
    have hpublic : (c.who site).assertPublicCustomerCanBook site c.data.startAt c.data.endAt none
        (c.looks.reads d) = .ok () := by
      simp only [check, bind_eq_ok, exists_punit] at hcheck
      exact hcheck.1
    obtain ⟨hclear, hroom⟩ := PublicCustomer.Sees.room (a := c.row customerId barberId d.now)
      (e := d.db.appointments.next) hsees rfl (by simp) (Looks.now_le hknown.2.2 _) hpublic
    exact h.onePlace.write rfl rfl (Diary.book_withNew (c.row_occupies ..)) hclear hroom
  customers := by
    intro id a ha
    simp only [Diary.withNew, Table.get?_insert] at ha ⊢
    split at ha
    · obtain rfl := Option.some.inj ha
      exact hknown.2.1 customerId hcustomer
    · exact h.customers ha

/-- A move that sees its customer keeps the law. -/
theorem MoveCall.write_sound {c : MoveCall} {a : Appointment} (h : d.Sound site)
    (hknown : (PublicCall.move c).Known d)
    (ha : d.db.appointments.get? c.appointmentId = some a) (hstatus : a.status = .confirmed)
    (hsees : (c.who site).Sees site c.seen.customerId (some c.appointmentId) (c.looks.reads d) d)
    (hcheck : c.check site d = .ok ()) : (d.withMoved c.appointmentId c.row).Sound site where
  onePlace := by
    obtain ⟨-, hseen, hlooks⟩ := hknown
    have hplace := hseen a ha
    have hpublic : (c.who site).assertPublicCustomerCanBook site c.startAt c.endAt
        (some c.appointmentId) (c.looks.reads d) = .ok () := by
      simp only [check, bind_eq_ok, exists_punit] at hcheck
      exact hcheck.1
    have hsees' : (c.who site).Sees site (c.row a).customerId (some c.appointmentId)
        (c.looks.reads d) d := by
      have hid : (c.row a).customerId = c.seen.customerId := hplace.customerId
      rw [hid]
      exact hsees
    have hnetwork : site.networkOf (c.row a).barbershopId = (c.who site).networkId :=
      congrArg site.networkOf hplace.barbershopId
    obtain ⟨hclear, hroom⟩ := hsees'.room (e := c.appointmentId) hnetwork (by simp)
      (Looks.now_le hlooks _) hpublic
    have hoccupies : (c.row a).status.occupies = true := by
      simp [row, hstatus, AppointmentStatus.occupies]
    exact h.onePlace.write rfl rfl (Diary.book_withMoved ha hoccupies) hclear hroom
  customers := by
    intro id b hb
    simp only [Diary.withMoved, Table.get?_modify] at hb ⊢
    split at hb
    · next heq =>
      subst heq
      obtain ⟨b, hb₀, rfl⟩ := Option.map_eq_some_iff.1 hb
      have hlt : b.customerId < d.db.customers.next := h.customers hb₀
      exact hlt
    · exact h.customers hb

theorem Diary.withNew_later (a : Appointment) : d.Later (d.withNew a) :=
  ⟨le_rfl, le_rfl, (Table.Evolves.refl (fun _ => ⟨rfl, rfl⟩) _).insert a⟩

/-- Rows that are changed in place keep their unit and their customer. -/
theorem Diary.later_modify (id : ℕ) {f : Appointment → Appointment} (hf : ∀ a, SamePlace a (f a)) :
    d.db.appointments.Evolves SamePlace (d.db.appointments.modify id f) :=
  Table.Evolves.modify (E := SamePlace) SamePlace.trans (.refl (fun _ => ⟨rfl, rfl⟩) _) fun a _ => hf a

theorem Diary.withMoved_later (c : MoveCall) : d.Later (d.withMoved c.appointmentId c.row) :=
  ⟨le_rfl, le_rfl, Diary.later_modify _ fun _ => ⟨rfl, rfl⟩⟩

/-- A status that takes no slot back. -/
theorem Diary.setStatus_sound {id : ℕ} {status : AppointmentStatus} {a : Appointment}
    (h : d.Sound site) (ha : d.db.appointments.get? id = some a)
    (hstatus : ((a.status.occupies || !status.occupies) && (a.status.upcoming || !status.upcoming)) =
      true) :
    ({ d with db := { d.db with
        appointments := d.db.appointments.modify id fun a => { a with status := status } } } :
      Diary).Sound site := by
  obtain ⟨hoccupies, hupcoming⟩ := Bool.and_eq_true_iff.1 hstatus
  constructor
  · refine h.onePlace.fewer le_rfl ?_ (fun _ _ hof => hof)
    intro k b hb
    obtain ⟨hmade, hget, hocc⟩ := Diary.book_eq_some.1 hb
    simp only [Table.get?_modify] at hget
    split at hget
    · next heq =>
      subst heq
      rw [ha, Option.map_some, Option.some.injEq] at hget
      subst hget
      have hocc' : a.status.occupies = true := by simpa [hocc] using hoccupies
      refine ⟨a, Diary.book_eq_some.2 ⟨hmade, ha, hocc'⟩, rfl, rfl, rfl, rfl, fun hup => ?_⟩
      have hup' : status.upcoming = true := hup
      simpa [hup'] using hupcoming
    · exact ⟨b, Diary.book_eq_some.2 ⟨hmade, hget, hocc⟩, .refl b⟩
  · intro k b hb
    simp only [Table.get?_modify] at hb
    split at hb
    · next heq =>
      subst heq
      rw [ha, Option.map_some, Option.some.injEq] at hb
      subst hb
      have hlt : a.customerId < d.db.customers.next := h.customers ha
      exact hlt
    · exact h.customers hb

theorem Diary.tick_sound {now : ℤ} (h : d.Sound site) (hnow : d.now ≤ now) :
    ({ d with now := now } : Diary).Sound site where
  onePlace := h.onePlace.fewer hnow (fun _ a ha => ⟨a, ha, .refl a⟩) fun _ _ hof => hof
  customers := h.customers

/-! ## Runs -/

theorem PublicEvent.keeps {e : PublicEvent} {s : Front} {r : Front × Option PublicCall}
    (hr : (publicCalls site).event e s = some r) : (placeInv site).Keeps s none r := by
  intro m hwhole _
  have hsound : s.diary.Sound site := hwhole
  cases e with
  | createPublicAppointment data callingCode =>
    obtain ⟨phone, -, rfl⟩ := Option.map_eq_some_iff.1 hr
    refine placeInv_kept hsound (.refl _) fun c hc => ?_
    obtain rfl := Option.mem_some.1 hc
    refine ⟨fun id hid => ?_, fun id hid => ?_, fun l hl => ?_⟩
    · cases hid
    · cases hid
    · cases hl
  | rescheduleManagedAppointment appointmentId startAt =>
    obtain ⟨a, ha, hr⟩ := Option.bind_eq_some_iff.1 hr
    have hget := (Option.filter_eq_some_iff.1 ha).1
    dsimp only at hr
    split at hr
    · cases hr
    · obtain rfl := Option.some.inj hr
      refine placeInv_kept hsound (.refl _) fun c hc => ?_
      obtain rfl := Option.mem_some.1 hc
      refine ⟨Table.lt_next_of_get? hget, fun b hb => ?_, fun l hl => ?_⟩
      · obtain rfl := Option.some.inj (hget.symm.trans hb)
        exact ⟨rfl, rfl⟩
      · cases hl
  | tick now =>
    simp only [publicCalls, step] at hr
    split at hr
    · next hnow =>
      obtain rfl := Option.some.inj hr
      refine placeInv_kept (Diary.tick_sound hsound hnow) ?_ fun c hc => ?_
      · exact ⟨hnow, le_rfl, .refl (fun _ => ⟨rfl, rfl⟩) _⟩
      · cases hc
    · cases hr
  | setStatus appointmentId status =>
    obtain ⟨appointments, hset, rfl⟩ := Option.map_eq_some_iff.1 hr
    obtain ⟨a, ha, hstatus, rfl⟩ := Table.tryModify_eq_some.1 hset
    refine placeInv_kept (Diary.setStatus_sound hsound ha hstatus) ?_ fun c hc => ?_
    · exact ⟨le_rfl, le_rfl, Diary.later_modify appointmentId
        (f := fun a => { a with status := status }) fun _ => ⟨rfl, rfl⟩⟩
    · cases hc

theorem CreateCall.keeps {k : PublicStep} {c : CreateCall} {s : Front}
    {r : Front × Option CreateCall} (hsees : (PublicCall.create c).SeesCustomer site k s)
    (hr : c.step site k s = some r) :
    (placeInv site).Keeps s (some (.create c)) (r.1, r.2.map .create) := by
  intro m hwhole hmine
  have hsound : s.diary.Sound site := hwhole
  have hknown : (PublicCall.create c).Known s.diary := hmine _ rfl
  obtain ⟨hfound, hcustomer, hlooks⟩ := hknown
  cases k with
  | findRecord =>
    simp only [step] at hr
    split at hr
    · obtain rfl := Option.some.inj hr
      refine placeInv_kept hsound (.refl _) fun c' hc' => ?_
      obtain rfl := Option.mem_some.1 hc'
      refine ⟨fun id hid => ?_, hcustomer, hlooks⟩
      exact Diary.customerIdsByPhone_lt (List.min?_mem (Option.some.inj hid))
    · cases hr
  | createRecord =>
    simp only [step] at hr
    split at hr
    · cases hr
    · split at hr
      · cases hr
      · next id hid =>
        obtain rfl := Option.some.inj hr
        refine placeInv_kept hsound (.refl _) fun c' hc' => ?_
        obtain rfl := Option.mem_some.1 hc'
        refine ⟨hfound, fun id' hid' => ?_, hlooks⟩
        obtain rfl := Option.mem_some.1 hid'
        exact hfound _ hid
      · next hnone =>
        obtain rfl := Option.some.inj hr
        refine placeInv_kept (CreateCall.record_sound hsound (hsees hnone)) c.record_later
          fun c' hc' => ?_
        obtain rfl := Option.mem_some.1 hc'
        refine ⟨fun id hid => ?_, fun id hid => ?_, hlooks⟩
        · rw [hnone] at hid
          cases hid
        · obtain rfl := Option.mem_some.1 hid
          exact Nat.lt_succ_self _
  | look =>
    have hmore : ∀ l ∈ c.looks ++ [s.diary], l.now ≤ s.diary.now := by
      intro l hl
      rcases List.mem_append.1 hl with hl | hl
      · exact hlooks l hl
      · rw [List.mem_singleton.1 hl]
    simp only [step] at hr
    split at hr
    · obtain rfl := Option.some.inj hr
      refine placeInv_kept hsound (.refl _) fun c' hc' => ?_
      obtain rfl := Option.mem_some.1 hc'
      exact ⟨hfound, hcustomer, hlooks⟩
    · split at hr
      · obtain rfl := Option.some.inj hr
        refine placeInv_kept hsound (.refl _) fun c' hc' => ?_
        obtain rfl := Option.mem_some.1 hc'
        exact ⟨hfound, hcustomer, hmore⟩
      · cases hr
  | lock =>
    simp only [step] at hr
    split at hr
    · obtain rfl := Option.some.inj hr
      refine placeInv_kept hsound (.refl _) fun c' hc' => ?_
      obtain rfl := Option.mem_some.1 hc'
      exact ⟨hfound, hcustomer, hlooks⟩
    · cases hr
  | write =>
    simp only [step] at hr
    split at hr
    · next customerId barberId free hid hfree =>
      split at hr
      · next hready =>
        obtain rfl := Option.some.inj hr
        refine placeInv_kept ?_ (Diary.withNew_later _) fun c' hc' => ?_
        · exact CreateCall.write_sound hsound ⟨hfound, hcustomer, hlooks⟩ hid (hsees _ hid) hready.2
        · cases hc'
      · cases hr
    · cases hr
  | tryNext =>
    simp only [step] at hr
    split at hr
    · obtain rfl := Option.some.inj hr
      refine placeInv_kept hsound (.refl _) fun c' hc' => ?_
      obtain rfl := Option.mem_some.1 hc'
      exact ⟨hfound, hcustomer, fun l hl => by cases hl⟩
    · cases hr
  | stop =>
    obtain rfl := Option.some.inj hr
    refine placeInv_kept hsound (.refl _) fun c' hc' => ?_
    cases hc'

theorem MoveCall.keeps {k : PublicStep} {c : MoveCall} {s : Front}
    {r : Front × Option MoveCall} (hsees : (PublicCall.move c).SeesCustomer site k s)
    (hr : c.step site k s = some r) :
    (placeInv site).Keeps s (some (.move c)) (r.1, r.2.map .move) := by
  intro m hwhole hmine
  have hsound : s.diary.Sound site := hwhole
  have hknown : (PublicCall.move c).Known s.diary := hmine _ rfl
  cases k with
  | look =>
    simp only [step] at hr
    split at hr
    · obtain rfl := Option.some.inj hr
      refine placeInv_kept hsound (.refl _) fun c' hc' => ?_
      obtain rfl := Option.mem_some.1 hc'
      refine ⟨hknown.1, hknown.2.1, fun l hl => ?_⟩
      rcases List.mem_append.1 hl with hl | hl
      · exact hknown.2.2 l hl
      · rw [List.mem_singleton.1 hl]
    · cases hr
  | write =>
    simp only [step] at hr
    split at hr
    · next hready =>
      obtain ⟨appointments, hmoved, rfl⟩ := Option.map_eq_some_iff.1 hr
      obtain ⟨a, ha, hunmoved, rfl⟩ := Table.tryModify_eq_some.1 hmoved
      have hstatus : a.status = .confirmed := by
        simp only [unmoved, Bool.and_eq_true, beq_iff_eq] at hunmoved
        exact hunmoved.1
      refine placeInv_kept ?_ (Diary.withMoved_later c) fun c' hc' => ?_
      · exact MoveCall.write_sound hsound hknown ha hstatus hsees hready.2
      · cases hc'
    · cases hr
  | stop =>
    obtain rfl := Option.some.inj hr
    refine placeInv_kept hsound (.refl _) fun c' hc' => ?_
    cases hc'
  | findRecord | createRecord | lock | tryNext => cases hr

theorem PublicCall.keeps {k : PublicStep} {c : PublicCall} {s : Front}
    {r : Front × Option PublicCall} (hsees : c.SeesCustomer site k s)
    (hr : (publicCalls site).step k c s = some r) : (placeInv site).Keeps s (some c) r := by
  cases c with
  | create c =>
    obtain ⟨r', hr', rfl⟩ := Option.map_eq_some_iff.1 hr
    exact CreateCall.keeps hsees hr'
  | move c =>
    obtain ⟨r', hr', rfl⟩ := Option.map_eq_some_iff.1 hr
    exact MoveCall.keeps hsees hr'

/-- Before the requests, no customer has a booking of theirs. -/
theorem Diary.Start.sound (h : d.Start) : d.Sound site where
  onePlace := by
    have hnone : ∀ id, d.book id = none := by
      intro id
      simp [Diary.book, h.made]
    constructor
    · intro id₁ id₂ a₁ a₂ h₁
      rw [hnone] at h₁
      cases h₁
    · intro networkId customerId
      have hempty : d.upcomingOf site networkId customerId = ∅ := by
        ext id
        simp [Diary.upcomingOf, hnone]
      rw [hempty, Set.encard_empty]
      exact zero_le
  customers := h.customers

/-- In every run of public requests whose writes see the customer they are for. -/
theorem one_customer_one_place {held : List ℤ} {moves : List (Move PublicEvent PublicStep)}
    {x : Calls Front PublicCall} (hstart : d.Start)
    (hsees : (publicCalls site).machine.Meets (CallSystem.When (fun _ _ => True)
      fun k c s => c.SeesCustomer site k s) (.idle ⟨d, held⟩) moves)
    (hrun : (publicCalls site).machine.run (.idle ⟨d, held⟩) moves = some x) :
    OnePlace site x.shared.diary := by
  have hidle : (placeInv site).Holds (.idle ⟨d, held⟩) := CallInv.holds_idle hstart.sound
  have hend := hidle.run (fun _ he => PublicEvent.keeps he) (fun hk hc => PublicCall.keeps hk hc)
    hsees hrun
  exact hend.whole.onePlace

end Steps

/-! ## Two runs -/

/-- A step that meets the condition whoever the bookings are of. -/
def PublicCall.seesAll (site : Site) (k : PublicStep) (c : PublicCall) (s : Front) : Bool :=
  let saw (who : PublicCustomer) (reads : CheckRead → Diary) : Bool :=
    s.diary.made.all fun id => (s.diary.book id).all fun a =>
      (who.ids reads).contains a.customerId &&
        (reads .overlap).db.appointments.get? id == some a &&
        (reads .upcoming).db.appointments.get? id == some a
  match k, c with
  | .createRecord, .create c => s.diary.db.customers.rows.isEmpty || c.found != some none
  | .write, .create c => saw (c.who site) (c.looks.reads s.diary)
  | .write, .move c => saw (c.who site) (c.looks.reads s.diary)
  | _, _ => true

theorem PublicCall.seesCustomer_of_seesAll {site : Site} {k : PublicStep} {c : PublicCall}
    {s : Front} (h : c.seesAll site k s = true) : c.SeesCustomer site k s := by
  have hsees : ∀ {who : PublicCustomer} {reads : CheckRead → Diary},
      (s.diary.made.all fun id => (s.diary.book id).all fun a =>
        (who.ids reads).contains a.customerId &&
          (reads .overlap).db.appointments.get? id == some a &&
          (reads .upcoming).db.appointments.get? id == some a) = true →
      ∀ customerId exclude, who.Sees site customerId exclude reads s.diary := by
    intro who reads hall customerId exclude id a ha _ _ _
    have hmade := (Diary.book_eq_some.1 ha).1
    have hsaw := List.all_eq_true.1 hall id hmade
    simp only [ha, Option.all_some, Bool.and_eq_true, List.contains_iff_mem, beq_iff_eq] at hsaw
    exact ⟨hsaw.1.1, hsaw.1.2, hsaw.2⟩
  cases c with
  | create c => cases k with
    | createRecord =>
      intro hnone i j hi _ hshares _
      obtain ⟨r, -, hr, -, -⟩ := hshares
      have hempty : s.diary.db.customers.rows = [] := by
        simpa [seesAll, hnone] using h
      have hget : (c.record site s.diary).db.customers.get? i = none := by
        refine (Table.get?_insert _ _ _).trans ?_
        rw [if_neg hi, Table.get?, hempty]
        rfl
      rw [hget] at hr
      cases hr
    | write => exact fun customerId _ => hsees h customerId none
    | findRecord | look | lock | tryNext | stop => exact trivial
  | move c => cases k with
    | write => exact hsees h c.seen.customerId (some c.appointmentId)
    | findRecord | createRecord | look | lock | tryNext | stop => exact trivial

/-- One network, two professionals at its one unit, and one hash for all locks. -/
def oneUnit : Site where
  networkOf _ := 1
  catalog := {
    services _ := none
    products _ := none
    serviceHistories _ := none
    barbers :=
      let barber : Barber := {
        barbershopId := 1
        userId := none
        professionalId := none
        bookable := true
        isActive := true
        accessStartsAt := none
        accessEndsAt := none }
      (Table.empty.insert barber).insert barber }
  hashtext _ _ := 0

def emptyDiary : Diary where
  db := .empty
  phone _ := []
  now := 0
  made := []

theorem emptyDiary_start : emptyDiary.Start where
  made := rfl
  customers h := by cases h

/-- Half an hour with a professional. -/
def visitAt (barberId : ℕ) (startAt : ℤ) : Move PublicEvent PublicStep :=
  .event (.createPublicAppointment {
    barbershopId := 1
    customerPhone := "(11) 99999-0000".toList
    clientAccountId := none
    free := [barberId]
    startAt := startAt
    endAt := startAt + 30
    payOnline := false
    depositAmount := none } DEFAULT_COUNTRY_CODE)

/-- A creation up to its write. -/
def creating (i : ℕ) : List (Move PublicEvent PublicStep) :=
  [.step i .findRecord, .step i .createRecord] ++ List.replicate 4 (.step i .look) ++
    [.step i .lock] ++ List.replicate 5 (.step i .look)

/-- A move up to its write. -/
def moving (i : ℕ) : List (Move PublicEvent PublicStep) := List.replicate 6 (.step i .look)

/-- Two visits are booked, and the first is moved, one after the other. -/
def oneByOne : List (Move PublicEvent PublicStep) :=
  visitAt 1 100 :: creating 1 ++ [.step 1 .write] ++ visitAt 2 200 :: creating 2 ++
    [.step 2 .write] ++ .event (.rescheduleManagedAppointment 1 300) :: moving 3 ++
    [.step 3 .write]

theorem oneByOne_onePlace : ∃ x,
    (publicCalls oneUnit).machine.run (.idle ⟨emptyDiary, []⟩) oneByOne = some x ∧
      x.shared.diary.made = [1, 2, 1] ∧ OnePlace oneUnit x.shared.diary := by
  have hsees : (publicCalls oneUnit).machine.Meets (CallSystem.When (fun _ _ => True)
      fun k c s => c.seesAll oneUnit k s = true) (.idle ⟨emptyDiary, []⟩) oneByOne := by
    decide +kernel
  have hsome : ((publicCalls oneUnit).machine.run (.idle ⟨emptyDiary, []⟩) oneByOne).any
      (fun x => x.shared.diary.made == [1, 2, 1]) = true := by
    decide +kernel
  obtain ⟨x, hrun, hmade⟩ := (Option.any_eq_true _ _).1 hsome
  refine ⟨x, hrun, beq_iff_eq.1 hmade, one_customer_one_place emptyDiary_start ?_ hrun⟩
  refine Machine.Meets.mono _ (fun {y m} hm => ?_) hsees
  cases m with
  | event e => exact trivial
  | step i k => exact fun c hc => PublicCall.seesCustomer_of_seesAll (hm c hc)

/-- A second visit is booked while the first is moved to the same time: each looks before the other
writes. -/
def movedWhileBooking : List (Move PublicEvent PublicStep) :=
  visitAt 1 100 :: creating 1 ++ [.step 1 .write] ++ visitAt 2 200 ::
    .event (.rescheduleManagedAppointment 1 200) :: creating 2 ++ moving 3 ++
    [.step 2 .write, .step 3 .write]

theorem movedWhileBooking_clash : emptyDiary.Start ∧ ∃ x,
    (publicCalls oneUnit).machine.run (.idle ⟨emptyDiary, []⟩) movedWhileBooking = some x ∧
      ¬OnePlace oneUnit x.shared.diary := by
  have hsome : ((publicCalls oneUnit).machine.run (.idle ⟨emptyDiary, []⟩) movedWhileBooking).any
      (fun x => (x.shared.diary.book 1).any fun a => (x.shared.diary.book 2).any fun b =>
        a.customerId == b.customerId && a.startAt == 200 && a.endAt == 230 && b.startAt == 200 &&
          b.endAt == 230) = true := by
    decide +kernel
  obtain ⟨x, hrun, hx⟩ := (Option.any_eq_true _ _).1 hsome
  obtain ⟨a, ha, hx⟩ := (Option.any_eq_true _ _).1 hx
  obtain ⟨b, hb, hx⟩ := (Option.any_eq_true _ _).1 hx
  simp only [Bool.and_eq_true, beq_iff_eq] at hx
  obtain ⟨⟨⟨⟨hcustomer, hastart⟩, haend⟩, hbstart⟩, hbend⟩ := hx
  refine ⟨emptyDiary_start, x, hrun, fun h => ?_⟩
  refine h.apart ha hb (by decide) ⟨rfl, ?_, by omega, by omega⟩
  rw [hcustomer]
  exact .refl _

end Barbershop
