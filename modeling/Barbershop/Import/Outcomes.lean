import Mathlib.Data.List.Nodup
import Barbershop.Import.Dates

/-!
# What becomes of each row

Every row that is read is accounted for by one customer, service, appointment or error, or is an
appointment that was called off. A row with a start or a date, a service and a client is never kept as a
customer only exactly when the date and the time of every such row can be read
(`bookings_not_lost_iff`).
-/

namespace Barbershop

open Lib Calendar LocalTime

/-! ## The errors of a line -/

/-- What the error of a line begins with. -/
def linePrefix (line : ℕ) : SheetText := ("Linha " ++ toString line ++ ": ").toList

theorem linePrefix_eq (line : ℕ) :
    linePrefix line = "Linha ".toList ++ (Nat.toDigits 10 line ++ [':', ' ']) := by
  have hline : (toString line).toList = Nat.toDigits 10 line := by
    rw [Nat.toString_eq_ofList_toDigits, String.toList_ofList]
  unfold linePrefix
  rw [String.toList_append, String.toList_append, hline, List.append_assoc]
  rfl

theorem takeWhile_number (n : ℕ) (rest : SheetText) :
    (Nat.toDigits 10 n ++ ':' :: rest).takeWhile Char.isDigit = Nat.toDigits 10 n := by
  have hdigits : ∀ c ∈ Nat.toDigits 10 n, c.isDigit = true :=
    fun _ hc => Nat.isDigit_of_mem_toDigits (by decide) (by decide) hc
  rw [List.takeWhile_append_of_pos hdigits, List.takeWhile_cons_of_neg (by decide), List.append_nil]

/-- The errors of two lines begin differently. -/
theorem linePrefix_injective {line line' : ℕ} {rest : SheetText}
    (h : linePrefix line <+: linePrefix line' ++ rest) : line = line' := by
  obtain ⟨tail, h⟩ := h
  rw [linePrefix_eq, linePrefix_eq, List.append_assoc, List.append_assoc, List.append_assoc,
    List.append_assoc] at h
  have hdigits := congrArg (List.takeWhile Char.isDigit) (List.append_cancel_left h)
  simp only [List.cons_append, takeWhile_number] at hdigits
  have hvalue := congrArg (Nat.ofDigitChars 10 · 0) hdigits
  simpa only [Nat.ofDigitChars_ten_toDigits] using hvalue

/-- The error of a row is one of its line, and of no other. -/
theorem lineError_prefix (row : SheetRow) (text : String) (line : ℕ) :
    ∀ e ∈ (lineError row text).error?,
      (linePrefix line).isPrefixOf e.toList = true ↔ row.line = line := by
  intro e he
  obtain rfl := Option.some.inj he
  have htext : ("Linha " ++ toString row.line ++ ": " ++ text).toList =
      linePrefix row.line ++ text.toList := by rw [String.toList_append, linePrefix]
  rw [List.isPrefixOf_iff_prefix, htext]
  constructor
  · exact fun h => (linePrefix_injective h).symm
  · rintro rfl
    exact List.prefix_append _ _

/-! ## Items of a line -/

namespace ParsedSheet

variable (sheet : ParsedSheet) (line : ℕ)

def customersOf : List SheetCustomer := sheet.customers.filter (·.line = line)

def servicesOf : List SheetService := sheet.services.filter (·.line = line)

def appointmentsOf : List SheetAppointment := sheet.appointments.filter (·.line = line)

def errorsOf : List String := sheet.errors.filter fun e => (linePrefix line).isPrefixOf e.toList

end ParsedSheet

/-! ## The outcome of a row -/

/-- What the row became. -/
def rowOutcome (nfd : SheetText → SheetText) (zone : Zone) (monthFirst : Bool) (now : ℤ)
    (row : SheetRow) : RowOutcome := (readRow nfd zone monthFirst now row).getD .nothing

/-- The item of an outcome has the line of its row. -/
structure RowOutcome.Of (row : SheetRow) (o : RowOutcome) : Prop where
  customer : ∀ c ∈ o.customer?, c.line = row.line
  service : ∀ s ∈ o.service?, s.line = row.line
  appointment : ∀ a ∈ o.appointment?, a.line = row.line
  error : ∀ line, ∀ e ∈ o.error?,
    (linePrefix line).isPrefixOf e.toList = true ↔ row.line = line

theorem RowOutcome.Of.ofError (row : SheetRow) (text : String) :
    RowOutcome.Of row (lineError row text) where
  customer c hc := by cases hc
  service s hs := by cases hs
  appointment a ha := by cases ha
  error := lineError_prefix row text

theorem RowOutcome.Of.ofNothing (row : SheetRow) : RowOutcome.Of row .nothing where
  customer c hc := by cases hc
  service s hs := by cases hs
  appointment a ha := by cases ha
  error line e he := by cases he

theorem readUndated_of (row : SheetRow) : RowOutcome.Of row (readUndated row) := by
  unfold readUndated
  split
  next =>
    split
    next => exact .ofError row _
    next =>
      exact
        { customer := fun c hc => by cases hc
          service := fun s hs => by cases hs; rfl
          appointment := fun a ha => by cases ha
          error := fun line e he => by cases he }
  next =>
    split
    next =>
      exact
        { customer := fun c hc => by cases hc; rfl
          service := fun s hs => by cases hs
          appointment := fun a ha => by cases ha
          error := fun line e he => by cases he }
    next =>
      split
      next => exact .ofError row _
      next => exact .ofNothing row

theorem readAppointment_of (nfd : SheetText → SheetText) (now : ℤ) (row : SheetRow) (start : ℤ) :
    RowOutcome.Of row (readAppointment nfd now row start) := by
  unfold readAppointment
  split
  next => exact .ofNothing row
  next =>
    split
    next => exact .ofError row _
    next =>
      split
      next => exact .ofError row _
      next =>
        exact
          { customer := fun c hc => by cases hc
            service := fun s hs => by cases hs
            appointment := fun a ha => by cases ha; rfl
            error := fun line e he => by cases he }

section Rows

variable (nfd : SheetText → SheetText) (zone : Zone) (monthFirst : Bool) (now : ℤ) (row : SheetRow)

theorem readRow_eq : readRow nfd zone monthFirst now row =
    some (rowOutcome nfd zone monthFirst now row) := by
  obtain ⟨outcome, ho⟩ := readRow_isSome nfd zone monthFirst now row
  rw [rowOutcome, ho, Option.getD_some]

theorem rowOutcome_cases : (row.written monthFirst = none ∧
      rowOutcome nfd zone monthFirst now row = readUndated row) ∨
    (row.written monthFirst ≠ none ∧ ∃ start,
      rowOutcome nfd zone monthFirst now row = readAppointment nfd now row start) := by
  have ho := readRow_eq nfd zone monthFirst now row
  unfold readRow at ho
  split at ho
  next date time hwritten =>
    obtain ⟨start, -, hstart⟩ := Option.map_eq_some_iff.1 ho
    exact .inr ⟨by simp [hwritten], start, hstart.symm⟩
  next hwritten => exact .inl ⟨hwritten, (Option.some.inj ho).symm⟩

theorem rowOutcome_of : RowOutcome.Of row (rowOutcome nfd zone monthFirst now row) := by
  rcases rowOutcome_cases nfd zone monthFirst now row with ⟨-, h⟩ | ⟨-, start, h⟩
  · exact h ▸ readUndated_of row
  · exact h ▸ readAppointment_of nfd now row start

end Rows

/-! ## The items of a row in the sheet -/

theorem filter_filterMap_nil {α : Type} {rows : List SheetRow} {g : SheetRow → Option α}
    {p : α → Bool} (h : ∀ r ∈ rows, ∀ x ∈ g r, p x = false) : (rows.filterMap g).filter p = [] := by
  refine List.filter_eq_nil_iff.2 fun x hx => ?_
  obtain ⟨r, hr, hg⟩ := List.mem_filterMap.1 hx
  rw [h r hr x hg]
  decide

/-- Of the items of rows on lines of their own, those of one line are those of its row. -/
theorem filter_filterMap_line {α : Type} {rows : List SheetRow} {g : SheetRow → Option α}
    {p : α → Bool} {row : SheetRow} (hlines : (rows.map (·.line)).Nodup) (hrow : row ∈ rows)
    (hp : ∀ r ∈ rows, ∀ x ∈ g r, (p x = true ↔ r.line = row.line)) :
    (rows.filterMap g).filter p = (g row).toList := by
  obtain ⟨before, after, rfl⟩ := List.append_of_mem hrow
  have hother : ∀ r ∈ before ++ after, ∀ x ∈ g r, p x = false := by
    intro r hr x hx
    rw [List.map_append, List.map_cons, List.nodup_middle, ← List.map_append, List.nodup_cons] at hlines
    have hin : r ∈ before ++ row :: after := by
      rcases List.mem_append.1 hr with h | h
      · exact List.mem_append_left _ h
      · exact List.mem_append_right _ (List.mem_cons_of_mem _ h)
    refine Bool.eq_false_iff.2 fun hpx => hlines.1 ?_
    rw [← (hp r hin x hx).1 hpx]
    exact List.mem_map_of_mem hr
  have hbefore := filter_filterMap_nil fun r hr => hother r (List.mem_append_left _ hr)
  have hafter := filter_filterMap_nil fun r hr => hother r (List.mem_append_right _ hr)
  rw [List.filterMap_append, List.filter_append, hbefore, List.nil_append, List.filterMap_cons]
  cases hg : g row with
  | none => exact hafter
  | some x =>
    have hx : p x = true := (hp row hrow x hg).2 rfl
    dsimp only
    rw [List.filter_cons_of_pos hx, hafter, Option.toList_some]

section Sheet

variable {nfd : SheetText → SheetText} {csv : SheetText} {zone : Zone} {now : ℤ}
  {country : Option SheetText} {sheet : ParsedSheet}

theorem lines_nodup : ((acceptedRows nfd csv).map (·.line)).Nodup := by
  unfold acceptedRows
  split
  next => exact List.nodup_nil
  next =>
    unfold sheetRows
    split
    next => exact List.nodup_nil
    next headings table _ =>
      rw [List.map_map]
      have hlines : ∀ l : List (List SheetText), (l.zipIdx.map (·.2 + 2)).Nodup := by
        intro l
        have hcompose : l.zipIdx.map (·.2 + 2) = (l.zipIdx.map Prod.snd).map (· + 2) := by
          rw [List.map_map]
          rfl
        rw [hcompose, List.zipIdx_map_snd]
        exact List.Nodup.map (add_left_injective 2) List.nodup_range'
      exact hlines _

theorem not_linePrefix {c : Char} {rest : SheetText} (h : c ≠ 'L') (line : ℕ) :
    (linePrefix line).isPrefixOf (c :: rest) = false := by
  rw [linePrefix_eq]
  exact Bool.and_eq_false_imp.2 fun hc => absurd (beq_iff_eq.1 hc).symm h

/-- A sheet is the items of its rows, after notices that are about no line. -/
theorem parseSheet_eq (h : parseSheet nfd csv zone now country = some sheet) :
    ∃ notices, (∀ n ∈ notices, ∀ line, (linePrefix line).isPrefixOf n.toList = false) ∧
      sheet =
        { customers := (acceptedRows nfd csv).filterMap fun row =>
            (rowOutcome nfd zone (monthBeforeDay country) now row).customer?
          services := (acceptedRows nfd csv).filterMap fun row =>
            (rowOutcome nfd zone (monthBeforeDay country) now row).service?
          appointments := (acceptedRows nfd csv).filterMap fun row =>
            (rowOutcome nfd zone (monthBeforeDay country) now row).appointment?
          errors := notices ++ (acceptedRows nfd csv).filterMap fun row =>
            (rowOutcome nfd zone (monthBeforeDay country) now row).error? } := by
  have hmapM : ∀ rows : List SheetRow,
      rows.mapM (readRow nfd zone (monthBeforeDay country) now) =
        some (rows.map (rowOutcome nfd zone (monthBeforeDay country) now)) := by
    intro rows
    rw [funext (readRow_eq nfd zone (monthBeforeDay country) now)]
    exact List.mapM_pure
  unfold parseSheet at h
  unfold acceptedRows
  split at h
  next hlong =>
    cases h
    refine ⟨["A planilha passa do tamanho aceito. Divida em partes menores."], ?_, by simp [hlong]⟩
    exact List.forall_mem_singleton.2 (not_linePrefix (by decide))
  next hlong =>
    rw [if_neg hlong]
    split at h
    next hshort =>
      cases h
      refine ⟨["A planilha precisa de um cabeçalho e ao menos uma linha."], ?_,
        by simp [sheetRows_of_short hshort]⟩
      exact List.forall_mem_singleton.2 (not_linePrefix (by decide))
    next =>
      dsimp only at h
      rw [hmapM] at h
      cases h
      refine ⟨ambiguousWarning (monthBeforeDay country) (sheetRows nfd csv) ++
        if MAX_ROWS < (parseCsv csv).length - 1 then
          ["Só as primeiras " ++ toString MAX_ROWS ++ " linhas foram lidas."] else [], ?_,
        by simp only [List.filterMap_map]; rfl⟩
      refine List.forall_mem_append.2 ⟨?_, ?_⟩
      · unfold ambiguousWarning
        split
        next => exact fun n hn => absurd hn List.not_mem_nil
        next row _ =>
          refine List.forall_mem_singleton.2 fun line => ?_
          simp only [String.toList_append]
          exact not_linePrefix (by decide) line
      · split
        next =>
          refine List.forall_mem_singleton.2 fun line => ?_
          simp only [String.toList_append]
          exact not_linePrefix (by decide) line
        next => exact fun n hn => absurd hn List.not_mem_nil

/-! ## Every row is accounted for -/

namespace SheetRow

variable (row : SheetRow)

/-- The row is about a booking: it has a start or a date, a service and a client. -/
def IsBooking : Prop :=
  (row.field .start ≠ [] ∨ row.field .date ≠ []) ∧ row.field .service ≠ [] ∧ row.name ≠ [] ∧
    8 ≤ row.phoneDigits.length

instance : Decidable row.IsBooking := inferInstanceAs (Decidable (_ ∧ _ ∧ _ ∧ _))

/-- An appointment, with its date and time, that was called off. -/
def Skipped (nfd : SheetText → SheetText) (monthFirst : Bool) : Prop :=
  row.written monthFirst ≠ none ∧ row.calledOff nfd = true

end SheetRow

namespace ParsedSheet

variable (sheet : ParsedSheet) (line : ℕ)

/-- How many items there are of a line. -/
def itemsOf : ℕ :=
  (sheet.customersOf line).length + (sheet.servicesOf line).length +
    (sheet.appointmentsOf line).length + (sheet.errorsOf line).length

/-- The booking is an appointment or an error, or was called off, and is no customer. -/
def KeepsBooking (skipped : Prop) : Prop :=
  sheet.customersOf line = [] ∧
    ((sheet.appointmentsOf line).length + (sheet.errorsOf line).length = 1 ∨ skipped)

end ParsedSheet

/-- The items of the line of a row are what the row became. -/
theorem items_of_row (h : parseSheet nfd csv zone now country = some sheet) {row : SheetRow}
    (hrow : row ∈ acceptedRows nfd csv) :
    sheet.customersOf row.line =
        (rowOutcome nfd zone (monthBeforeDay country) now row).customer?.toList ∧
      sheet.servicesOf row.line =
        (rowOutcome nfd zone (monthBeforeDay country) now row).service?.toList ∧
      sheet.appointmentsOf row.line =
        (rowOutcome nfd zone (monthBeforeDay country) now row).appointment?.toList ∧
      sheet.errorsOf row.line =
        (rowOutcome nfd zone (monthBeforeDay country) now row).error?.toList := by
  obtain ⟨notices, hnotices, rfl⟩ := parseSheet_eq h
  have hof := rowOutcome_of nfd zone (monthBeforeDay country) now
  refine ⟨?_, ?_, ?_, ?_⟩
  · refine filter_filterMap_line lines_nodup hrow fun r _ c hc => ?_
    rw [decide_eq_true_iff, (hof r).customer c hc]
  · refine filter_filterMap_line lines_nodup hrow fun r _ s hs => ?_
    rw [decide_eq_true_iff, (hof r).service s hs]
  · refine filter_filterMap_line lines_nodup hrow fun r _ a ha => ?_
    rw [decide_eq_true_iff, (hof r).appointment a ha]
  · have hnone : notices.filter (fun e => (linePrefix row.line).isPrefixOf e.toList) = [] := by
      refine List.filter_eq_nil_iff.2 fun n hn => ?_
      rw [hnotices n hn]
      decide
    rw [ParsedSheet.errorsOf, List.filter_append, hnone, List.nil_append]
    exact filter_filterMap_line lines_nodup hrow fun r _ e he => (hof r).error row.line e he

/-- The items of an outcome. -/
def RowOutcome.items (o : RowOutcome) : ℕ :=
  o.customer?.toList.length + o.service?.toList.length + o.appointment?.toList.length +
    o.error?.toList.length

theorem items_readUndated {row : SheetRow} (h : row.cells.any (· ≠ []) = true) :
    (readUndated row).items = 1 := by
  unfold readUndated
  split
  next => split <;> rfl
  next =>
    split
    next => rfl
    next => rfl

theorem calledOff_of_status {row : SheetRow} {start : ℤ}
    (h : appointmentStatus nfd row start now = none) : row.calledOff nfd = true := by
  by_contra hkept
  unfold appointmentStatus at h
  rw [if_neg hkept] at h
  split at h
  · cases h
  · split at h <;> cases h

theorem items_readAppointment (now : ℤ) (row : SheetRow) (start : ℤ) :
    (readAppointment nfd now row start).items = 1 ∨
      ((readAppointment nfd now row start).items = 0 ∧ row.calledOff nfd = true) := by
  unfold readAppointment
  split
  next hstatus => exact .inr ⟨rfl, calledOff_of_status hstatus⟩
  next =>
    split
    next => exact .inl rfl
    next => split <;> exact .inl rfl

theorem row_accounted (h : parseSheet nfd csv zone now country = some sheet) {row : SheetRow}
    (hrow : row ∈ acceptedRows nfd csv) (hcells : row.cells.any (· ≠ []) = true) :
    sheet.itemsOf row.line = 1 ∨
      (sheet.itemsOf row.line = 0 ∧ row.Skipped nfd (monthBeforeDay country)) := by
  obtain ⟨hcustomers, hservices, happointments, herrors⟩ := items_of_row h hrow
  have hitems : sheet.itemsOf row.line =
      (rowOutcome nfd zone (monthBeforeDay country) now row).items := by
    unfold ParsedSheet.itemsOf RowOutcome.items
    rw [hcustomers, hservices, happointments, herrors]
  rw [hitems]
  rcases rowOutcome_cases nfd zone (monthBeforeDay country) now row with ⟨-, ho⟩ | ⟨hw, start, ho⟩
  · exact .inl (ho ▸ items_readUndated hcells)
  · rw [ho]
    exact (items_readAppointment now row start).imp_right fun ⟨hnone, hoff⟩ => ⟨hnone, hw, hoff⟩

theorem keepsBooking_iff (h : parseSheet nfd csv zone now country = some sheet) {row : SheetRow}
    (hrow : row ∈ acceptedRows nfd csv) (hbooking : row.IsBooking) :
    sheet.KeepsBooking row.line (row.Skipped nfd (monthBeforeDay country)) ↔
      row.written (monthBeforeDay country) ≠ none := by
  obtain ⟨hcustomers, -, happointments, herrors⟩ := items_of_row h hrow
  obtain ⟨hdated, hservice, hname, hphone⟩ := hbooking
  unfold ParsedSheet.KeepsBooking
  rw [hcustomers, happointments, herrors]
  rcases rowOutcome_cases nfd zone (monthBeforeDay country) now row with ⟨hw, ho⟩ | ⟨hw, start, ho⟩
  · refine iff_of_false ?_ (not_not.2 hw)
    have hwritten : row.field .phone ≠ [] := by
      intro hempty
      rw [SheetRow.phoneDigits, hempty] at hphone
      exact absurd hphone (by decide)
    rw [ho, readUndated, if_neg (hwritten ·.2.2), if_pos ⟨hname, hphone⟩]
    exact fun hkeeps => absurd hkeeps.1 (List.cons_ne_nil _ _)
  · refine iff_of_true ?_ hw
    rw [ho, readAppointment]
    split
    next hstatus => exact ⟨rfl, .inr ⟨hw, calledOff_of_status hstatus⟩⟩
    next =>
      have hnamed : row.serviceName = row.field .service := if_pos hservice
      rw [if_neg (by rintro (hempty | hshort) <;> [exact hname hempty; omega]),
        if_neg (hnamed ▸ hservice)]
      exact ⟨rfl, .inl rfl⟩

end Sheet

/-- Every row of a sheet is accounted for, and no booking is kept as a customer only, exactly when the
date and the time of every row about a booking can be read. -/
theorem bookings_not_lost_iff (nfd : SheetText → SheetText) (csv : SheetText) (zone : Zone) (now : ℤ)
    (country : Option SheetText) :
    (∀ sheet, parseSheet nfd csv zone now country = some sheet → ∀ row ∈ acceptedRows nfd csv,
      (row.cells.any (· ≠ []) = true → sheet.itemsOf row.line = 1 ∨
        (sheet.itemsOf row.line = 0 ∧ row.Skipped nfd (monthBeforeDay country))) ∧
      (row.IsBooking →
        sheet.KeepsBooking row.line (row.Skipped nfd (monthBeforeDay country)))) ↔
    ∀ row ∈ acceptedRows nfd csv, row.IsBooking →
      row.written (monthBeforeDay country) ≠ none := by
  obtain ⟨sheet, hsheet⟩ := parseSheet_isSome nfd csv zone now country
  constructor
  · intro h row hrow hbooking
    exact (keepsBooking_iff hsheet hrow hbooking).1 ((h sheet hsheet row hrow).2 hbooking)
  · intro h sheet' hsheet' row hrow
    exact ⟨row_accounted hsheet' hrow,
      fun hbooking => (keepsBooking_iff hsheet' hrow hbooking).2 (h row hrow hbooking)⟩

/-- A booking whose year has two digits. -/
def shortYear : SheetText :=
  "nome,telefone,servico,data,hora\nAna,11988887777,Corte,31/12/26,10:00\n".toList

/-- It is a customer of the sheet, without an appointment or an error. -/
theorem shortYear_customer :
    (∃ row ∈ acceptedRows id shortYear, row.IsBooking ∧ row.line = 2 ∧ row.calledOff id = false) ∧
    ∃ sheet, parseSheet id shortYear threeBehind 1770000000000 none = some sheet ∧
      sheet.customers.map (·.line) = [2] ∧ sheet.appointments.map (·.line) = [] ∧
        sheet.errors = [] := by
  have hrows : (acceptedRows id shortYear).any (fun row =>
      decide (row.IsBooking ∧ row.line = 2 ∧ row.calledOff id = false)) = true := by
    decide +kernel
  have hread : (parseSheet id shortYear threeBehind 1770000000000 none).map (fun sheet =>
      (sheet.customers.map (·.line), sheet.appointments.map (·.line), sheet.errors)) =
        some ([2], [], []) := by decide +kernel
  obtain ⟨row, hrow, hbooking⟩ := List.any_eq_true.1 hrows
  obtain ⟨sheet, hsheet, hitems⟩ := Option.map_eq_some_iff.1 hread
  obtain ⟨hcustomers, hitems⟩ := Prod.mk.inj hitems
  obtain ⟨happointments, herrors⟩ := Prod.mk.inj hitems
  exact ⟨⟨row, hrow, of_decide_eq_true hbooking⟩, sheet, hsheet, hcustomers, happointments, herrors⟩

end Barbershop
