import Barbershop.Agenda.Queue
import Barbershop.Lib.Latest

/-!
# The history of a client account

`getHistory` merges the past appointments, the paid sales and the walk-ins of an account, newest first,
and gives a page of them. Each source is cut to a window that grows with the page. The pages agree with
the whole history exactly when no sale stands too far from its appointment (`pages_agree_iff`).
-/

namespace Barbershop

open Lib

/-! ## Rows -/

structure AccountCustomer where
  id : ℕ
  clientAccountId : Option ℕ
  networkName : Option String

/-- An appointment with what its entry tells: unit, services, professional, review and tips. -/
structure HistoryAppointment where
  id : ℕ
  customerId : ℕ
  startAt : ℤ
  status : AppointmentStatus
  barbershopName : String
  barbershopSlug : String
  currency : String
  services : List (ℕ × Option String)
  barberId : ℕ
  barberName : Option String
  rating : Option ℕ
  tips : List ℚ
  linkVersion : ℕ
  deriving DecidableEq

structure HistorySale where
  id : ℕ
  customerId : Option ℕ
  appointmentId : Option ℕ
  paymentStatus : PaymentStatus
  total : ℚ
  paidAt : Option ℤ
  createdAt : ℤ
  barbershopName : String
  currency : String
  deriving DecidableEq

structure HistoryWalkIn where
  id : ℕ
  customerId : Option ℕ
  createdAt : ℤ
  status : WalkInStatus
  barbershopName : String
  deriving DecidableEq

def HistorySale.date (s : HistorySale) : ℤ := s.paidAt.getD s.createdAt

/-- The order of `paidAt: 'desc'`, in which rows without it come first. -/
def HistorySale.paidFirst (a b : HistorySale) : Bool :=
  match a.paidAt, b.paidAt with
  | none, _ => true
  | some _, none => false
  | some t, some t' => t' ≤ t

structure HistoryDb where
  customers : List AccountCustomer
  appointments : List HistoryAppointment
  sales : List HistorySale
  walkIns : List HistoryWalkIn
  /-- The primary key of the appointments. -/
  ids_nodup : (appointments.map (·.id)).Nodup
  /-- At most one sale for an appointment. -/
  one_sale : ∀ s ∈ sales, ∀ s' ∈ sales, s.appointmentId ≠ none →
    s.appointmentId = s'.appointmentId → s = s'

/-! ## Entries -/

inductive HistoryType where
  | appointment | sale | walkIn
  deriving DecidableEq

inductive HistoryStatus where
  | appointment (status : AppointmentStatus)
  | sale (status : PaymentStatus)
  | walkIn (status : WalkInStatus)
  deriving DecidableEq

structure ClientHistoryEntry where
  id : String
  type : HistoryType
  date : ℤ
  networkName : String
  barbershopName : String
  barbershopSlug : Option String
  detail : Option String
  status : HistoryStatus
  total : Option ℚ
  currency : Option String
  barberName : Option String
  barberId : Option ℕ
  serviceIds : List ℕ
  rating : Option ℕ
  tip : Option ℚ
  reviewUrl : Option String
  deriving DecidableEq

/-- The sale of an appointment among those found; a later row replaces an earlier one. -/
def saleByAppointment (sales : List HistorySale) (appointmentId : ℕ) : Option HistorySale :=
  (sales.filter fun s => s.appointmentId = some appointmentId).getLast?

section Entries

variable (networkName : ℕ → String) (reviewUrl : ℕ → ℕ → String)

def appointmentEntry (sales : List HistorySale) (a : HistoryAppointment) : ClientHistoryEntry :=
  let serviceNames := (a.services.filterMap (·.2)).filter (· ≠ "")
  { id := "apt-" ++ toString a.id
    type := .appointment
    date := a.startAt
    networkName := networkName a.customerId
    barbershopName := a.barbershopName
    barbershopSlug := some a.barbershopSlug
    detail := if serviceNames = [] then none else some (", ".intercalate serviceNames)
    status := .appointment a.status
    total := (saleByAppointment sales a.id).map (·.total)
    currency := some a.currency
    barberName := a.barberName
    barberId := some a.barberId
    serviceIds := a.services.map (·.1)
    rating := a.rating
    tip := if a.tips = [] then none else some a.tips.sum
    reviewUrl := if a.status = .completed then some (reviewUrl a.id a.linkVersion) else none }

def saleEntry (s : HistorySale) : ClientHistoryEntry :=
  { id := "sale-" ++ toString s.id
    type := .sale
    date := s.date
    networkName := (s.customerId.map networkName).getD "Negócio"
    barbershopName := s.barbershopName
    barbershopSlug := none
    detail := none
    status := .sale s.paymentStatus
    total := some s.total
    currency := some s.currency
    barberName := none
    barberId := none
    serviceIds := []
    rating := none
    tip := none
    reviewUrl := none }

def walkInEntry (w : HistoryWalkIn) : ClientHistoryEntry :=
  { id := "walkin-" ++ toString w.id
    type := .walkIn
    date := w.createdAt
    networkName := (w.customerId.map networkName).getD "Negócio"
    barbershopName := w.barbershopName
    barbershopSlug := none
    detail := none
    status := .walkIn w.status
    total := none
    currency := none
    barberName := none
    barberId := none
    serviceIds := []
    rating := none
    tip := none
    reviewUrl := none }

/-- The appointment of the sale is among those found. -/
def HistorySale.shownIn (appointments : List HistoryAppointment) (s : HistorySale) : Bool :=
  appointments.any fun a => s.appointmentId = some a.id

def historyEntries (appointments : List HistoryAppointment) (sales : List HistorySale)
    (walkIns : List HistoryWalkIn) : List ClientHistoryEntry :=
  appointments.map (appointmentEntry networkName reviewUrl sales) ++
    (sales.filter fun s => !s.shownIn appointments).map (saleEntry networkName) ++
    walkIns.map (walkInEntry networkName)

end Entries

/-! ## Pages -/

namespace HistoryDb

variable (db : HistoryDb) (clientAccountId : ℕ) (now : ℤ)

def customersOf : List AccountCustomer :=
  db.customers.filter fun c => c.clientAccountId = some clientAccountId

def customerIds : List ℕ := (db.customersOf clientAccountId).map (·.id)

/-- What the appointments' query finds, before it is cut. -/
def pastAppointments : List HistoryAppointment :=
  newestFirst (·.startAt) (db.appointments.filter fun a =>
    a.customerId ∈ db.customerIds clientAccountId ∧ a.startAt < now)

def paidSales : List HistorySale :=
  (db.sales.filter fun s => (∃ c ∈ db.customerIds clientAccountId, s.customerId = some c) ∧
    s.paymentStatus = .paid).insertionSort fun a b => a.paidFirst b = true

def ownWalkIns : List HistoryWalkIn :=
  newestFirst (·.createdAt) (db.walkIns.filter fun w =>
    ∃ c ∈ db.customerIds clientAccountId, w.customerId = some c)

/-- `networkNameByCustomer`; a later row replaces an earlier one. -/
def networkName (customerId : ℕ) : String :=
  (((db.customersOf clientAccountId).filter (·.id = customerId)).getLast?.map fun c =>
    c.networkName.getD "Negócio").getD "Negócio"

def getHistory (reviewUrl : ℕ → ℕ → String) (limit offset : ℤ) : List ClientHistoryEntry :=
  if db.customersOf clientAccountId = [] then []
  else
    let first := (max offset 0).toNat
    let count := (min (max limit 1) 200).toNat
    let window := min (first + count) 200
    let entries := historyEntries (db.networkName clientAccountId) reviewUrl
      ((db.pastAppointments clientAccountId now).take window)
      ((db.paidSales clientAccountId).take window) ((db.ownWalkIns clientAccountId).take window)
    ((newestFirst (·.date) entries).take (first + count)).drop first

end HistoryDb

/-! ## Windows of the sources -/

section Windows

variable {A : List HistoryAppointment} {S : List HistorySale} {K : List HistoryWalkIn}
  {networkName : ℕ → String} {reviewUrl : ℕ → ℕ → String} {w : ℕ}

/-- The entries of a window of the sources. -/
abbrev windowEntries (networkName : ℕ → String) (reviewUrl : ℕ → ℕ → String)
    (A : List HistoryAppointment) (S : List HistorySale) (K : List HistoryWalkIn) (w : ℕ) :
    List ClientHistoryEntry :=
  historyEntries networkName reviewUrl (A.take w) (S.take w) (K.take w)

theorem shownIn_iff {s : HistorySale} :
    s.shownIn A = true ↔ ∃ a ∈ A, s.appointmentId = some a.id := by
  simp [HistorySale.shownIn]

theorem mem_historyEntries {e : ClientHistoryEntry} :
    e ∈ historyEntries networkName reviewUrl A S K ↔
      (∃ a ∈ A, appointmentEntry networkName reviewUrl S a = e) ∨
      (∃ s ∈ S, s.shownIn A = false ∧ saleEntry networkName s = e) ∨
      ∃ k ∈ K, walkInEntry networkName k = e := by
  simp [historyEntries, and_assoc]

/-- How many records of the whole history are listed with a later date. -/
def listedAfter (A : List HistoryAppointment) (S : List HistorySale) (K : List HistoryWalkIn)
    (d : ℤ) : ℕ :=
  (A.countP fun a => d < a.startAt) + (S.countP fun s => !s.shownIn A && d < s.date) +
    K.countP fun k => d < k.createdAt

theorem later_historyEntries (d : ℤ) :
    later (·.date) (historyEntries networkName reviewUrl A S K) d = listedAfter A S K d := by
  unfold later historyEntries listedAfter
  rw [List.countP_append, List.countP_append, List.countP_map, List.countP_map, List.countP_map,
    List.countP_filter]
  simp only [Function.comp_def, appointmentEntry, saleEntry, walkInEntry, Bool.and_comm]
  rfl

/-- The dates of all records. -/
def sourceDates (A : List HistoryAppointment) (S : List HistorySale) (K : List HistoryWalkIn) :
    List ℤ := A.map (·.startAt) ++ S.map (·.date) ++ K.map (·.createdAt)

theorem entries_nodup (h : (sourceDates A S K).Nodup) (w : ℕ) :
    ((windowEntries networkName reviewUrl A S K w).map (·.date)).Nodup := by
  have hdates : (windowEntries networkName reviewUrl A S K w).map (·.date) =
      (A.take w).map (·.startAt) ++ ((S.take w).filter fun s => !s.shownIn (A.take w)).map (·.date) ++
        (K.take w).map (·.createdAt) := by
    simp [windowEntries, historyEntries, Function.comp_def, appointmentEntry, saleEntry, walkInEntry]
  rw [hdates]
  refine h.sublist (((List.Sublist.map _ (List.take_sublist w A)).append ?_).append
    (List.Sublist.map _ (List.take_sublist w K)))
  exact List.Sublist.map _ (List.filter_sublist.trans (List.take_sublist w S))

/-- The records of an account, each source newest first and with dates of their own. -/
structure SourcesSound (A : List HistoryAppointment) (S : List HistorySale)
    (K : List HistoryWalkIn) : Prop where
  dates : (sourceDates A S K).Nodup
  ids : (A.map (·.id)).Nodup
  one_sale : ∀ s ∈ S, ∀ s' ∈ S, s.appointmentId ≠ none → s.appointmentId = s'.appointmentId → s = s'
  appointments : A.Pairwise fun a b => b.startAt < a.startAt
  walkIns : K.Pairwise fun a b => b.createdAt < a.createdAt

namespace SourcesSound

variable (h : SourcesSound A S K)

include h

theorem appointment_of_date {a b : HistoryAppointment} (ha : a ∈ A) (hb : b ∈ A)
    (heq : a.startAt = b.startAt) : a = b := by
  have hnodup := (List.nodup_append.1 (List.nodup_append.1 h.dates).1).1
  exact List.inj_on_of_nodup_map hnodup ha hb heq

theorem sale_of_date {s s' : HistorySale} (hs : s ∈ S) (hs' : s' ∈ S) (heq : s.date = s'.date) :
    s = s' := by
  have hnodup := (List.nodup_append.1 (List.nodup_append.1 h.dates).1).2.1
  exact List.inj_on_of_nodup_map hnodup hs hs' heq

theorem appointment_of_id {a b : HistoryAppointment} (ha : a ∈ A) (hb : b ∈ A)
    (heq : a.id = b.id) : a = b :=
  List.inj_on_of_nodup_map h.ids ha hb heq

/-- The sale of an appointment is found when it is in the window. -/
theorem saleByAppointment_eq {a : HistoryAppointment} {s : HistorySale} (hs : s ∈ S)
    (hlink : s.appointmentId = some a.id) : saleByAppointment (S.take w) a.id =
      if s ∈ S.take w then some s else none := by
  have hall : ∀ s' ∈ (S.take w).filter fun s => s.appointmentId = some a.id, s' = s := by
    intro s' hs'
    obtain ⟨hin, hlink'⟩ := List.mem_filter.1 hs'
    have hlink' : s'.appointmentId = some a.id := of_decide_eq_true hlink'
    exact h.one_sale s' (List.mem_of_mem_take hin) s hs (by simp [hlink']) (hlink'.trans hlink.symm)
  unfold saleByAppointment
  by_cases hin : s ∈ S.take w
  · rw [if_pos hin]
    have hmem : s ∈ (S.take w).filter fun s => s.appointmentId = some a.id :=
      List.mem_filter.2 ⟨hin, decide_eq_true hlink⟩
    cases hlast : ((S.take w).filter fun s => s.appointmentId = some a.id).getLast? with
    | none => rw [List.getLast?_eq_none_iff.1 hlast] at hmem; cases hmem
    | some s' => rw [hall s' (List.mem_of_getLast? hlast)]
  · rw [if_neg hin, List.getLast?_eq_none_iff]
    refine List.eq_nil_iff_forall_not_mem.2 fun s' hs' => hin ?_
    rw [← hall s' hs']
    exact (List.mem_filter.1 hs').1

theorem saleByAppointment_congr {n : ℕ} (hw : w ≤ n) {a : HistoryAppointment}
    (hpriced : ∀ s ∈ S.take n, s.appointmentId = some a.id → s ∈ S.take w) :
    saleByAppointment (S.take w) a.id = saleByAppointment (S.take n) a.id := by
  by_cases hsale : ∃ s ∈ S, s.appointmentId = some a.id
  · obtain ⟨s, hs, hlink⟩ := hsale
    rw [h.saleByAppointment_eq hs hlink, h.saleByAppointment_eq hs hlink]
    refine if_congr ⟨fun hin => ?_, fun hin => hpriced s hin hlink⟩ rfl rfl
    exact (List.take_subset_take_left S hw) hin
  · have hnone : ∀ m, saleByAppointment (S.take m) a.id = none := by
      intro m
      refine List.getLast?_eq_none_iff.2 (List.filter_eq_nil_iff.2 fun s hs hlink => hsale ?_)
      exact ⟨s, List.mem_of_mem_take hs, of_decide_eq_true hlink⟩
    rw [hnone, hnone]

end SourcesSound

/-- What a window needs of the sources to have the first entries of the whole history: the sales that
give a total or are listed are in it, and a sale whose appointment is not comes late enough. -/
structure WindowFits (A : List HistoryAppointment) (S : List HistorySale) (K : List HistoryWalkIn)
    (n w : ℕ) : Prop where
  priced : ∀ a ∈ A.take n, ∀ s ∈ S.take n, s.appointmentId = some a.id →
    listedAfter (A.take n) (S.take n) (K.take n) a.startAt < w → s ∈ S.take w
  listed : ∀ s ∈ S.take n, s.shownIn (A.take n) = false →
    listedAfter (A.take n) (S.take n) (K.take n) s.date < w → s ∈ S.take w
  late : ∀ a ∈ A.take n, ∀ s ∈ S.take w, s.appointmentId = some a.id → a ∉ A.take w →
    w ≤ listedAfter (A.take n) (S.take n) (K.take n) s.date

section Fits

variable (h : SourcesSound A S K) {n : ℕ} (hw : w ≤ n)

include h

theorem appointmentEntry_mem {a : HistoryAppointment} (ha : a ∈ A)
    (hmem : appointmentEntry networkName reviewUrl (S.take n) a ∈
      windowEntries networkName reviewUrl A S K w) :
    saleByAppointment (S.take n) a.id = none ∨ saleByAppointment (S.take w) a.id ≠ none := by
  rcases mem_historyEntries.1 hmem with ⟨a', ha', heq⟩ | ⟨s', -, -, heq⟩ | ⟨k', -, heq⟩
  · have hdate : a'.startAt = a.startAt := congrArg ClientHistoryEntry.date heq
    obtain rfl := h.appointment_of_date (List.mem_of_mem_take ha') ha hdate
    have htotal : (saleByAppointment (S.take w) a'.id).map (·.total) =
        (saleByAppointment (S.take n) a'.id).map (·.total) :=
      congrArg ClientHistoryEntry.total heq
    cases hn : saleByAppointment (S.take n) a'.id with
    | none => exact .inl rfl
    | some s =>
      refine .inr fun hnone => ?_
      rw [hn, hnone] at htotal
      cases htotal
  · cases congrArg ClientHistoryEntry.type heq
  · cases congrArg ClientHistoryEntry.type heq

theorem saleEntry_mem {s : HistorySale} (hs : s ∈ S) {m : ℕ} :
    saleEntry networkName s ∈ windowEntries networkName reviewUrl A S K m ↔
      s ∈ S.take m ∧ s.shownIn (A.take m) = false := by
  constructor
  · intro hmem
    rcases mem_historyEntries.1 hmem with ⟨a', -, heq⟩ | ⟨s', hs', hfree, heq⟩ | ⟨k', -, heq⟩
    · cases congrArg ClientHistoryEntry.type heq
    · have hdate : s'.date = s.date := congrArg ClientHistoryEntry.date heq
      obtain rfl := h.sale_of_date (List.mem_of_mem_take hs') hs hdate
      exact ⟨hs', hfree⟩
    · cases congrArg ClientHistoryEntry.type heq
  · rintro ⟨hin, hfree⟩
    exact mem_historyEntries.2 (.inr (.inl ⟨s, hin, hfree, rfl⟩))

/-- A window that fits has the first entries of the whole history. -/
theorem WindowFits.entries_mem (hfits : WindowFits A S K n w) (hw : w ≤ n) :
    ∀ e ∈ windowEntries networkName reviewUrl A S K n,
      listedAfter (A.take n) (S.take n) (K.take n) e.date < w →
        e ∈ windowEntries networkName reviewUrl A S K w := by
  intro e he hfew
  rcases mem_historyEntries.1 he with ⟨a, ha, rfl⟩ | ⟨s, hs, hfree, rfl⟩ | ⟨k, hk, rfl⟩
  · have hbefore : A.idxOf a ≤ listedAfter (A.take n) (S.take n) (K.take n) a.startAt := by
      have hle : A.idxOf a ≤ (A.take n).countP fun b => a.startAt < b.startAt :=
        idxOf_le_later h.appointments ha
      unfold listedAfter
      omega
    have hin : a ∈ A.take w :=
      (List.mem_take_iff_idxOf_lt (List.mem_of_mem_take ha)).2 (hbefore.trans_lt hfew)
    refine mem_historyEntries.2 (.inl ⟨a, hin, ?_⟩)
    unfold appointmentEntry
    rw [h.saleByAppointment_congr hw fun s hs hlink => hfits.priced a ha s hs hlink hfew]
  · have hin : s ∈ S.take w := hfits.listed s hs hfree hfew
    refine (saleEntry_mem h (List.mem_of_mem_take hs)).2 ⟨hin, ?_⟩
    rw [Bool.eq_false_iff, Ne, shownIn_iff] at hfree ⊢
    rintro ⟨a, ha, hlink⟩
    exact hfree ⟨a, List.take_subset_take_left A hw ha, hlink⟩
  · have hbefore : K.idxOf k ≤ listedAfter (A.take n) (S.take n) (K.take n) k.createdAt := by
      have hle : K.idxOf k ≤ (K.take n).countP fun l => k.createdAt < l.createdAt :=
        idxOf_le_later h.walkIns hk
      unfold listedAfter
      omega
    have hin : k ∈ K.take w :=
      (List.mem_take_iff_idxOf_lt (List.mem_of_mem_take hk)).2 (hbefore.trans_lt hfew)
    exact mem_historyEntries.2 (.inr (.inr ⟨k, hin, rfl⟩))

include hw

/-- A window within another has the same first entries exactly when it fits. -/
theorem window_fits_iff :
    (newestFirst (·.date) (windowEntries networkName reviewUrl A S K w)).take w =
        (newestFirst (·.date) (windowEntries networkName reviewUrl A S K n)).take w ↔
      WindowFits A S K n w := by
  rw [latest_eq_iff (entries_nodup h.dates w) (entries_nodup h.dates n)]
  simp only [later_historyEntries]
  constructor
  · rintro ⟨hin, hout⟩
    refine ⟨?_, ?_, ?_⟩
    · intro a ha s hs hlink hfew
      have hmem := hin (appointmentEntry networkName reviewUrl (S.take n) a)
        (mem_historyEntries.2 (.inl ⟨a, ha, rfl⟩)) hfew
      have hsale := h.saleByAppointment_eq (w := w) (List.mem_of_mem_take hs) hlink
      have hsale' := h.saleByAppointment_eq (w := n) (List.mem_of_mem_take hs) hlink
      rcases appointmentEntry_mem h (List.mem_of_mem_take ha) hmem with hnone | hsome
      · rw [hsale', if_pos hs] at hnone
        cases hnone
      · by_contra hgone
        exact hsome (hsale.trans (if_neg hgone))
    · intro s hs hfree hfew
      have hmem := hin (saleEntry networkName s) ((saleEntry_mem h (List.mem_of_mem_take hs)).2
        ⟨hs, hfree⟩) hfew
      exact ((saleEntry_mem h (List.mem_of_mem_take hs)).1 hmem).1
    · intro a ha s hs hlink hgone
      have hsale := List.mem_of_mem_take hs
      refine hout (saleEntry networkName s) ((saleEntry_mem h hsale).2 ⟨hs, ?_⟩) ?_
      · rw [Bool.eq_false_iff, Ne, shownIn_iff]
        rintro ⟨a', ha', hlink'⟩
        have hid : a'.id = a.id := Option.some.inj (hlink'.symm.trans hlink)
        exact hgone (h.appointment_of_id (List.mem_of_mem_take ha') (List.mem_of_mem_take ha) hid ▸ ha')
      · intro hmem
        have hfree := ((saleEntry_mem h hsale).1 hmem).2
        rw [shownIn_iff.2 ⟨a, ha, hlink⟩] at hfree
        cases hfree
  · intro hfits
    refine ⟨hfits.entries_mem h hw, fun e he hout => ?_⟩
    rcases mem_historyEntries.1 he with ⟨a, ha, rfl⟩ | ⟨s, hs, hfree, rfl⟩ | ⟨k, hk, rfl⟩
    · by_contra hfew
      have hwhole : appointmentEntry networkName reviewUrl (S.take n) a ∈
          windowEntries networkName reviewUrl A S K n :=
        mem_historyEntries.2 (.inl ⟨a, List.take_subset_take_left A hw ha, rfl⟩)
      have hpart := hfits.entries_mem h hw _ hwhole (not_le.1 hfew)
      have hsame := List.inj_on_of_nodup_map (entries_nodup h.dates w) he hpart rfl
      exact hout (hsame ▸ hwhole)
    · have hin := List.take_subset_take_left S hw hs
      have hshown : s.shownIn (A.take n) = true := by
        by_contra hfree'
        rw [Bool.not_eq_true] at hfree'
        exact hout ((saleEntry_mem h (List.mem_of_mem_take hs)).2 ⟨hin, hfree'⟩)
      obtain ⟨a, ha, hlink⟩ := shownIn_iff.1 hshown
      refine hfits.late a ha s hs hlink fun hgone => ?_
      rw [shownIn_iff.2 ⟨a, hgone, hlink⟩] at hfree
      cases hfree
    · exact absurd (mem_historyEntries.2
        (.inr (.inr ⟨k, List.take_subset_take_left K hw hk, rfl⟩))) hout

end Fits

end Windows

/-! ## Pages and the whole history -/

/-- No sale stands too far from its appointment: no more sales come before the one of an appointment
than records are listed later than that, no more before a listed sale than are listed later than it, and
a sale that comes before its appointment does so after enough listed records. -/
structure SalesNear (A : List HistoryAppointment) (S : List HistorySale) (K : List HistoryWalkIn)
    (n : ℕ) : Prop where
  priced : ∀ a ∈ A.take n, ∀ s ∈ S.take n, s.appointmentId = some a.id →
    S.idxOf s ≤ listedAfter (A.take n) (S.take n) (K.take n) a.startAt
  listed : ∀ s ∈ S.take n, s.shownIn (A.take n) = false →
    S.idxOf s ≤ listedAfter (A.take n) (S.take n) (K.take n) s.date
  late : ∀ a ∈ A.take n, ∀ s ∈ S.take n, s.appointmentId = some a.id → S.idxOf s < A.idxOf a →
    A.idxOf a ≤ listedAfter (A.take n) (S.take n) (K.take n) s.date

/-- Every window fits exactly when the sales are near their appointments. -/
theorem windows_fit_iff {A : List HistoryAppointment} {S : List HistorySale}
    {K : List HistoryWalkIn} {n : ℕ} :
    (∀ w, 1 ≤ w → w ≤ n → WindowFits A S K n w) ↔ SalesNear A S K n := by
  have hidx : ∀ {s : HistorySale} {m : ℕ}, s ∈ S.take n → (s ∈ S.take m ↔ S.idxOf s < m) :=
    fun hs => List.mem_take_iff_idxOf_lt (List.mem_of_mem_take hs)
  have hidx' : ∀ {a : HistoryAppointment} {m : ℕ}, a ∈ A.take n → (a ∈ A.take m ↔ A.idxOf a < m) :=
    fun ha => List.mem_take_iff_idxOf_lt (List.mem_of_mem_take ha)
  constructor
  · intro h
    -- the window that ends with the entry in question is the one that may miss the sale
    have hwithin : ∀ {s : HistorySale} {d : ℤ}, s ∈ S.take n →
        (∀ w, 1 ≤ w → w ≤ n → listedAfter (A.take n) (S.take n) (K.take n) d < w → s ∈ S.take w) →
          S.idxOf s ≤ listedAfter (A.take n) (S.take n) (K.take n) d := by
      intro s d hs hin
      by_contra hfar
      have hlast := (hidx hs).1 hs
      have hmem := hin (listedAfter (A.take n) (S.take n) (K.take n) d + 1) (by omega) (by omega)
        (Nat.lt_succ_self _)
      have hlt := (hidx hs).1 hmem
      omega
    refine ⟨fun a ha s hs hlink => ?_, fun s hs hfree => ?_, fun a ha s hs hlink hlt => ?_⟩
    · exact hwithin hs fun w hw hwn => (h w hw hwn).priced a ha s hs hlink
    · exact hwithin hs fun w hw hwn => (h w hw hwn).listed s hs hfree
    · have hlast := (hidx' ha).1 ha
      refine (h (A.idxOf a) (by omega) (by omega)).late a ha s ((hidx hs).2 hlt) hlink ?_
      rw [hidx' ha]
      omega
  · intro h w hw hwn
    refine ⟨fun a ha s hs hlink hfew => ?_, fun s hs hfree hfew => ?_, fun a ha s hs hlink hgone => ?_⟩
    · exact (hidx hs).2 ((h.priced a ha s hs hlink).trans_lt hfew)
    · exact (hidx hs).2 ((h.listed s hs hfree).trans_lt hfew)
    · have hin := List.take_subset_take_left S hwn hs
      rw [hidx' ha, not_lt] at hgone
      have hbefore := (hidx hin).1 hs
      exact hgone.trans (h.late a ha s hin hlink (by omega))

namespace HistoryDb

variable (db : HistoryDb) (clientAccountId : ℕ) (now : ℤ) (reviewUrl : ℕ → ℕ → String)

/-- The dates of all records of an account. -/
def dates : List ℤ :=
  sourceDates (db.pastAppointments clientAccountId now) (db.paidSales clientAccountId)
    (db.ownWalkIns clientAccountId)

theorem sources_sound (h : (db.dates clientAccountId now).Nodup) :
    SourcesSound (db.pastAppointments clientAccountId now) (db.paidSales clientAccountId)
      (db.ownWalkIns clientAccountId) where
  dates := h
  ids := by
    have hperm := (List.perm_insertionSort (fun a b => b.startAt ≤ a.startAt)
      (db.appointments.filter fun a =>
        a.customerId ∈ db.customerIds clientAccountId ∧ a.startAt < now)).map (·.id)
    exact hperm.nodup_iff.2 (db.ids_nodup.sublist (List.filter_sublist.map _))
  one_sale s hs s' hs' := db.one_sale s (List.mem_filter.1 ((List.mem_insertionSort _).1 hs)).1 s'
    (List.mem_filter.1 ((List.mem_insertionSort _).1 hs')).1
  appointments := by
    apply newestFirst_pairwise
    have hnodup := (List.nodup_append.1 (List.nodup_append.1 h).1).1
    exact ((List.perm_insertionSort _ _).map _).nodup_iff.1 hnodup
  walkIns := by
    apply newestFirst_pairwise
    have hnodup := (List.nodup_append.1 h).2.1
    exact ((List.perm_insertionSort _ _).map _).nodup_iff.1 hnodup

/-- A page within the first two hundred entries. -/
theorem getHistory_eq {limit offset : ℤ} (hlimit : 1 ≤ limit) (hoffset : 0 ≤ offset)
    (hlast : offset + limit ≤ 200) : db.getHistory clientAccountId now reviewUrl limit offset =
      ((newestFirst (·.date) (windowEntries (db.networkName clientAccountId) reviewUrl
        (db.pastAppointments clientAccountId now) (db.paidSales clientAccountId)
        (db.ownWalkIns clientAccountId) (offset + limit).toNat)).take (offset + limit).toNat).drop
          offset.toNat := by
  have hfirst : (max offset 0).toNat = offset.toNat := by omega
  have hcount : (min (max limit 1) 200).toNat = limit.toNat := by omega
  have hwindow : min (offset.toNat + limit.toNat) 200 = (offset + limit).toNat := by omega
  have hend : offset.toNat + limit.toNat = (offset + limit).toNat := by omega
  unfold getHistory
  dsimp only
  rw [hfirst, hcount, hwindow, hend]
  split
  next hnone =>
    have hids : db.customerIds clientAccountId = [] := by rw [customerIds, hnone]; rfl
    have hempty : ∀ w, windowEntries (db.networkName clientAccountId) reviewUrl
        (db.pastAppointments clientAccountId now) (db.paidSales clientAccountId)
        (db.ownWalkIns clientAccountId) w = [] := by
      intro w
      simp [windowEntries, historyEntries, pastAppointments, paidSales, ownWalkIns, hids, newestFirst]
    rw [hempty]
    simp [newestFirst]
  next => rfl

/-- Each page is the slice of the whole history. -/
def PagesAgree : Prop :=
  ∀ limit offset : ℤ, 1 ≤ limit → limit ≤ 200 → 0 ≤ offset → offset + limit ≤ 200 →
    db.getHistory clientAccountId now reviewUrl limit offset =
      ((db.getHistory clientAccountId now reviewUrl 200 0).take (offset + limit).toNat).drop
        offset.toNat

end HistoryDb

/-- The pages agree with the whole history exactly when the sales are near their appointments. -/
theorem pages_agree_iff (db : HistoryDb) (clientAccountId : ℕ) (now : ℤ)
    (reviewUrl : ℕ → ℕ → String) (h : (db.dates clientAccountId now).Nodup) :
    db.PagesAgree clientAccountId now reviewUrl ↔
      SalesNear (db.pastAppointments clientAccountId now) (db.paidSales clientAccountId)
        (db.ownWalkIns clientAccountId) 200 := by
  have hsound := db.sources_sound clientAccountId now h
  have hwhole : db.getHistory clientAccountId now reviewUrl 200 0 = (newestFirst (·.date)
      (windowEntries (db.networkName clientAccountId) reviewUrl
        (db.pastAppointments clientAccountId now) (db.paidSales clientAccountId)
        (db.ownWalkIns clientAccountId) 200)).take 200 :=
    db.getHistory_eq clientAccountId now reviewUrl (by decide) (by decide) (by decide)
  rw [← windows_fit_iff]
  constructor
  · intro hpages w hw hwn
    have hpage := hpages w 0 (by omega) (by omega) le_rfl (by omega)
    have hlast : (0 + (w : ℤ)).toNat = w := by omega
    rw [db.getHistory_eq clientAccountId now reviewUrl (by omega) le_rfl (by omega), hwhole, hlast,
      List.take_take, Nat.min_eq_left hwn] at hpage
    exact (window_fits_iff hsound hwn).1 hpage
  · intro hfits limit offset hlimit hlimit' hoffset hlast
    have hwindow : (offset + limit).toNat ≤ 200 := by omega
    rw [db.getHistory_eq clientAccountId now reviewUrl hlimit hoffset hlast, hwhole, List.take_take,
      Nat.min_eq_left hwindow,
      (window_fits_iff hsound hwindow).2 (hfits _ (by omega) hwindow)]

/-! ## A sale before its appointment in the pages -/

def plainAppointment (id : ℕ) (startAt : ℤ) : HistoryAppointment :=
  { id := id, customerId := 1, startAt := startAt, status := .completed,
    barbershopName := "Unidade", barbershopSlug := "unidade", currency := "BRL", services := [],
    barberId := 1, barberName := none, rating := none, tips := [], linkVersion := 0 }

/-- An appointment that was paid after the next one. -/
def paidAfterNext : HistoryDb where
  customers := [⟨1, some 7, none⟩]
  appointments := [plainAppointment 1 1000, plainAppointment 2 2000]
  sales := [{ id := 1, customerId := some 1, appointmentId := some 1, paymentStatus := .paid,
              total := 45, paidAt := some 3000, createdAt := 3000, barbershopName := "Unidade",
              currency := "BRL" }]
  walkIns := []
  ids_nodup := by decide
  one_sale := by decide

/-- The pages are about the same sale twice, and never about the other appointment. -/
theorem paidAfterNext_pages :
    (paidAfterNext.dates 7 5000).Nodup ∧
    (paidAfterNext.getHistory 7 5000 (fun _ _ => "") 200 0).map (fun e => (e.id, e.total)) =
      [("apt-2", none), ("apt-1", some 45)] ∧
    (paidAfterNext.getHistory 7 5000 (fun _ _ => "") 1 0).map (fun e => (e.id, e.total)) =
      [("sale-1", some 45)] ∧
    (paidAfterNext.getHistory 7 5000 (fun _ _ => "") 1 1).map (fun e => (e.id, e.total)) =
      [("apt-1", some 45)] ∧
    ¬ paidAfterNext.PagesAgree 7 5000 fun _ _ => "" := by
  refine ⟨by decide +kernel, by decide +kernel, by decide +kernel, by decide +kernel, fun hpages => ?_⟩
  have hpage := hpages 1 0 (by decide) (by decide) (by decide) (by decide)
  revert hpage
  decide +kernel

theorem paidAfterNext_pages_iff : paidAfterNext.PagesAgree 7 5000 (fun _ _ => "") ↔
    SalesNear (paidAfterNext.pastAppointments 7 5000) (paidAfterNext.paidSales 7) (paidAfterNext.ownWalkIns 7) 200 :=
  pages_agree_iff paidAfterNext 7 5000 (fun _ _ => "") (by decide +kernel)

end Barbershop
