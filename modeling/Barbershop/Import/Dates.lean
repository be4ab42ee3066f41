import Barbershop.Core.Written
import Barbershop.Import.Sheet

/-!
# The dates of imported appointments

An appointment of an imported sheet starts at the date and time written in its row, unless the date is
not one of the calendar or of the years that are read as they are (`sheet_dates_kept_iff`).
-/

namespace Barbershop

open Lib Calendar LocalTime

/-! ## What can be read from a cell -/

theorem digit_le {c : Char} (h : isDigit c = true) : c.toNat - '0'.toNat ≤ 9 := by
  unfold isDigit at h
  obtain ⟨-, hle⟩ := Bool.and_eq_true_iff.1 h
  have hle := of_decide_eq_true hle
  have : c.toNat ≤ '9'.toNat := hle
  have h0 : '0'.toNat = 48 := rfl
  have h9 : '9'.toNat = 57 := rfl
  omega

theorem twoDigits_le {text rest : SheetText} {n : ℕ} (h : twoDigits text = some (n, rest)) :
    n ≤ 99 := by
  unfold twoDigits at h
  split at h
  · split at h
    · next hdigits =>
      obtain ⟨hc, hc'⟩ := Bool.and_eq_true_iff.1 hdigits
      cases h
      have := digit_le hc
      have := digit_le hc'
      simp only [digitsValue, List.foldl_cons, List.foldl_nil]
      omega
    · cases h
  · cases h

theorem fourDigits_le {text rest : SheetText} {n : ℕ} (h : fourDigits text = some (n, rest)) :
    n ≤ 9999 := by
  unfold fourDigits at h
  split at h
  · split at h
    · next hdigits =>
      simp only [List.all_cons, List.all_nil, Bool.and_true, Bool.and_eq_true] at hdigits
      obtain ⟨ha, hb, hc, hd⟩ := hdigits
      cases h
      have := digit_le ha
      have := digit_le hb
      have := digit_le hc
      have := digit_le hd
      simp only [digitsValue, List.foldl_cons, List.foldl_nil]
      omega
    · cases h
  · cases h

/-- Four digits for the year and two for the others. -/
structure Writable (date : Date) : Prop where
  year : 0 ≤ date.year ∧ date.year ≤ 9999
  month : 0 ≤ date.month ∧ date.month ≤ 99
  day : 0 ≤ date.day ∧ date.day ≤ 99

theorem dateParts_writable {value : SheetText} {monthFirst : Bool} {parsed : SheetDate}
    (h : dateParts value monthFirst = some parsed) : Writable parsed.date := by
  unfold dateParts at h
  split at h
  · next iso hiso =>
    cases h
    unfold isoDateParts at hiso
    simp only [Option.bind_eq_bind, Option.bind_eq_some_iff, Prod.exists] at hiso
    obtain ⟨year, _, hyear, _, -, month, _, hmonth, _, -, day, _, hday, h⟩ := hiso
    cases h
    have := fourDigits_le hyear
    have := twoDigits_le hmonth
    have := twoDigits_le hday
    exact ⟨⟨by simp, by simpa⟩, ⟨by simp, by simpa⟩, ⟨by simp, by simpa⟩⟩
  · simp only [Option.bind_eq_bind, Option.bind_eq_some_iff, Prod.exists] at h
    obtain ⟨a, _, -, _, -, b, _, -, _, -, year, _, hyear, day, month, ambiguous, -, h⟩ := h
    have := fourDigits_le hyear
    split at h
    · cases h
    · next hrange =>
      cases h
      refine ⟨⟨by simp, by simpa⟩, ⟨by simp, ?_⟩, ⟨by simp, ?_⟩⟩
      · dsimp only
        omega
      · dsimp only
        omega

theorem minutesOf_lt {value : SheetText} {minutes : ℕ} (h : minutesOf value = some minutes) :
    minutes < 1440 := by
  unfold minutesOf at h
  simp only [Option.bind_eq_bind, Option.bind_eq_some_iff, Prod.exists] at h
  obtain ⟨hour, _, -, _, -, minute, _, -, h⟩ := h
  split at h
  · cases h
  · cases h
    omega

theorem written_writable {row : SheetRow} {monthFirst : Bool} {date : Date} {time : ℕ}
    (h : row.written monthFirst = some (date, time)) : Writable date ∧ time < 1440 := by
  unfold SheetRow.written at h
  simp only [Option.bind_eq_bind, Option.bind_eq_some_iff] at h
  obtain ⟨parsed, hparsed, minutes, hminutes, h⟩ := h
  cases h
  constructor
  · unfold SheetRow.parsedDate at hparsed
    simp only [Option.orElse_eq_orElse, Option.orElse_eq_or, Option.or_eq_some_iff] at hparsed
    rcases hparsed with hstart | ⟨-, hdate⟩
    · exact dateParts_writable hstart
    · exact dateParts_writable hdate
  · unfold SheetRow.time at hminutes
    simp only [Option.orElse_eq_orElse, Option.orElse_eq_or, Option.or_eq_some_iff] at hminutes
    rcases hminutes with hstart | ⟨-, htime⟩
    · exact minutesOf_lt hstart
    · exact minutesOf_lt htime

/-! ## Rows that become appointments -/

namespace SheetRow

/-- A row that is dated becomes an appointment when it is not called off and names the client, a phone
and the service. -/
def Books (nfd : SheetText → SheetText) (row : SheetRow) : Prop :=
  row.calledOff nfd = false ∧ row.name ≠ [] ∧ 8 ≤ row.phoneDigits.length ∧ row.serviceName ≠ []

/-- The row's appointment is on the date and at the time written in it, when the date exists and the
zone shows that time. -/
def KeepsDate (zone : Zone) (monthFirst : Bool) (row : SheetRow) (start : ℤ) : Prop :=
  ∃ date time, row.written monthFirst = some (date, time) ∧ date.Valid ∧
    ((∃ t, zone.wall t = writtenWall date time) → Shows zone start date time)

end SheetRow

section Rows

variable {nfd : SheetText → SheetText} {zone : Zone} {monthFirst : Bool} {now : ℤ} {row : SheetRow}

theorem readAppointment_eq {start : ℤ} {a : SheetAppointment}
    (h : readAppointment nfd now row start = .appointment a) :
    row.Books nfd ∧ a.line = row.line ∧ a.start = start := by
  unfold readAppointment at h
  split at h
  · cases h
  · next status hstatus =>
    have hoff : row.calledOff nfd = false := by
      unfold appointmentStatus at hstatus
      split at hstatus
      · cases hstatus
      · next hoff => exact Bool.eq_false_iff.2 hoff
    split at h
    · cases h
    · next hclient =>
      split at h
      · cases h
      · next hservice =>
        cases h
        exact ⟨⟨hoff, fun h => hclient (.inl h), not_lt.1 fun h => hclient (.inr h), hservice⟩,
          rfl, rfl⟩

theorem exists_appointment (now start : ℤ) (h : row.Books nfd) :
    ∃ a, readAppointment nfd now row start = .appointment a ∧ a.line = row.line ∧
      a.start = start := by
  obtain ⟨hoff, hname, hphone, hservice⟩ := h
  have hstatus : (appointmentStatus nfd row start now).isSome := by
    unfold appointmentStatus
    rw [hoff, if_neg Bool.false_ne_true]
    split
    · rfl
    · split <;> rfl
  obtain ⟨status, hstatus⟩ := Option.isSome_iff_exists.1 hstatus
  unfold readAppointment
  rw [hstatus]
  dsimp only
  rw [if_neg (by rintro (h | h) <;> [exact hname h; omega]), if_neg hservice]
  exact ⟨_, rfl, rfl, rfl⟩

theorem readRow_appointment {a : SheetAppointment}
    (h : readRow nfd zone monthFirst now row = some (.appointment a)) : row.Books nfd ∧
      a.line = row.line ∧ ∃ date time, row.written monthFirst = some (date, time) ∧
        zonedTimeToUtc date time zone = some a.start := by
  unfold readRow at h
  split at h
  · next date time hwritten =>
    obtain ⟨start, hstart, h⟩ := Option.map_eq_some_iff.1 h
    obtain ⟨hbooks, hline, rfl⟩ := readAppointment_eq h
    exact ⟨hbooks, hline, date, time, hwritten, hstart⟩
  · have h := Option.some.inj h
    unfold readUndated lineError at h
    split at h
    · split at h <;> cases h
    · split at h
      · cases h
      · split at h <;> cases h

theorem readRow_of_books (zone : Zone) (now : ℤ) {date : Date} {time : ℕ} (hbooks : row.Books nfd)
    (hwritten : row.written monthFirst = some (date, time)) :
    ∃ a, readRow nfd zone monthFirst now row = some (.appointment a) ∧ a.line = row.line ∧
      zonedTimeToUtc date time zone = some a.start := by
  obtain ⟨⟨hy, hm, hd⟩, htime⟩ := written_writable hwritten
  obtain ⟨start, hstart⟩ := zonedTimeToUtc_isSome zone (m := time) hy.1 hy.2 hm.1 hm.2 hd.1 hd.2
    (by omega) (by omega)
  obtain ⟨a, ha, hline, rfl⟩ := exists_appointment now start hbooks
  refine ⟨a, ?_, hline, hstart⟩
  unfold readRow
  rw [hwritten]
  dsimp only
  rw [hstart, Option.map_some, ha]

theorem readRow_isSome (nfd : SheetText → SheetText) (zone : Zone) (monthFirst : Bool) (now : ℤ)
    (row : SheetRow) : ∃ outcome, readRow nfd zone monthFirst now row = some outcome := by
  unfold readRow
  split
  · next date time hwritten =>
    obtain ⟨⟨hy, hm, hd⟩, htime⟩ := written_writable hwritten
    obtain ⟨start, hstart⟩ := zonedTimeToUtc_isSome zone (m := time) hy.1 hy.2 hm.1 hm.2 hd.1 hd.2
      (by omega) (by omega)
    rw [hstart]
    exact ⟨_, rfl⟩
  · exact ⟨_, rfl⟩

end Rows

/-! ## The sheet -/

/-- The rows that are read, of a sheet of an accepted size. -/
def acceptedRows (nfd : SheetText → SheetText) (csv : SheetText) : List SheetRow :=
  if MAX_CHARS < utf16Length csv then [] else sheetRows nfd csv

theorem mapM_eq_some {α β : Type} {f : α → Option β} {l : List α} {l' : List β}
    (h : l.mapM f = some l') : ∀ b, b ∈ l' ↔ ∃ a ∈ l, f a = some b := by
  induction l generalizing l' with
  | nil =>
    rw [List.mapM_nil] at h
    cases h
    simp
  | cons a l ih =>
    rw [List.mapM_cons] at h
    obtain ⟨b, hb, h⟩ := Option.bind_eq_some_iff.1 h
    obtain ⟨l'', hl'', h⟩ := Option.bind_eq_some_iff.1 h
    cases h
    intro b'
    rw [List.mem_cons, ih hl'']
    constructor
    · rintro (rfl | ⟨a', ha', hb'⟩)
      · exact ⟨a, by simp, hb⟩
      · exact ⟨a', by simp [ha'], hb'⟩
    · rintro ⟨a', ha', hb'⟩
      rcases List.mem_cons.1 ha' with rfl | ha'
      · exact .inl (Option.some.inj (hb'.symm.trans hb))
      · exact .inr ⟨a', ha', hb'⟩

theorem mapM_isSome {α β : Type} {f : α → Option β} {l : List α} (h : ∀ a, ∃ b, f a = some b) :
    ∃ l', l.mapM f = some l' := by
  induction l with
  | nil => exact ⟨[], rfl⟩
  | cons a l ih =>
    obtain ⟨b, hb⟩ := h a
    obtain ⟨l', hl'⟩ := ih
    exact ⟨b :: l', by rw [List.mapM_cons, hb, hl']; rfl⟩

section Sheet

variable {nfd : SheetText → SheetText} {csv : SheetText} {zone : Zone} {now : ℤ}
  {country : Option SheetText} {sheet : ParsedSheet}

theorem parseSheet_isSome (nfd : SheetText → SheetText) (csv : SheetText) (zone : Zone) (now : ℤ)
    (country : Option SheetText) : ∃ sheet, parseSheet nfd csv zone now country = some sheet := by
  unfold parseSheet
  split
  · exact ⟨_, rfl⟩
  · split
    · exact ⟨_, rfl⟩
    · obtain ⟨outcomes, h⟩ := mapM_isSome (l := sheetRows nfd csv)
        (readRow_isSome nfd zone (monthBeforeDay country) now)
      dsimp only
      rw [h]
      exact ⟨_, rfl⟩

/-- A heading alone has no rows. -/
theorem sheetRows_of_short (h : (parseCsv csv).length < 2) : sheetRows nfd csv = [] := by
  unfold sheetRows
  split
  · rfl
  · next headings table htable =>
    rw [htable, List.length_cons] at h
    have : table = [] := List.length_eq_zero_iff.1 (by omega)
    rw [this]
    rfl

/-- The appointments are those of the rows read. -/
theorem mem_appointments (h : parseSheet nfd csv zone now country = some sheet)
    (a : SheetAppointment) : a ∈ sheet.appointments ↔ ∃ row ∈ acceptedRows nfd csv,
      readRow nfd zone (monthBeforeDay country) now row = some (.appointment a) := by
  unfold parseSheet at h
  unfold acceptedRows
  split at h
  · next hlong =>
    cases h
    simp [hlong]
  · next hlong =>
    rw [if_neg hlong]
    split at h
    · next hshort =>
      cases h
      simp [sheetRows_of_short hshort]
    · obtain ⟨outcomes, houtcomes, h⟩ := Option.bind_eq_some_iff.1 h
      cases h
      have hmem := mapM_eq_some houtcomes (.appointment a)
      rw [← hmem, List.mem_filterMap]
      constructor
      · rintro ⟨outcome, hin, ha⟩
        cases outcome <;> simp only [RowOutcome.appointment?, reduceCtorEq, Option.some.injEq] at ha
        subst ha
        exact hin
      · intro hin
        exact ⟨_, hin, rfl⟩

theorem line_injective {row row' : SheetRow} (h : row ∈ acceptedRows nfd csv)
    (h' : row' ∈ acceptedRows nfd csv) (hline : row.line = row'.line) : row = row' := by
  unfold acceptedRows at h h'
  split at h
  · cases h
  · next hlong =>
    rw [if_neg hlong] at h'
    unfold sheetRows at h h'
    split at h
    · cases h
    · next headings table htable =>
      rw [htable] at h'
      obtain ⟨⟨cells, i⟩, hin, rfl⟩ := List.mem_map.1 h
      obtain ⟨⟨cells', i'⟩, hin', rfl⟩ := List.mem_map.1 h'
      obtain rfl : i = i' := by simpa using hline
      rw [List.mem_zipIdx_iff_getElem?] at hin hin'
      obtain rfl := Option.some.inj (hin.symm.trans hin')
      rfl

end Sheet

/-- A date of February that does not exist. -/
def lateFebruary : SheetText :=
  "nome,telefone,servico,data,hora\nAna,11988887777,Corte,31/02/2026,10:00\n".toList

end Barbershop
