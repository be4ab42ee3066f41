import Mathlib.Logic.Function.Basic
import Barbershop.Core.Timezone
import Barbershop.Import.Cells

/-!
# An imported sheet

`parseSheet` reads the rows of a sheet as customers, services and appointments. `nfd` is
`normalize('NFD')` of the headings and the statuses.
-/

namespace Barbershop

open Lib Calendar LocalTime

/-! ## Rows -/

/-- A row of the sheet: the line it stands on, its cells, and the cells by column. -/
structure SheetRow where
  line : ℕ
  cells : List SheetText
  values : SheetColumn → SheetText

/-- The first cell of each column that is not empty counts. -/
def valuesOf (header : List (Option SheetColumn)) (cells : List SheetText) :
    SheetColumn → SheetText :=
  header.zipIdx.foldl (fun row column =>
    match column.1 with
    | some key => if row key = [] then Function.update row key (cells.getD column.2 []) else row
    | none => row) fun _ => []

def MAX_CHARS : ℕ := 80000

def MAX_ROWS : ℕ := 500

/-- `length` of a JavaScript string: in units of UTF-16. -/
def utf16Length (text : SheetText) : ℕ := (text.map fun c => if 0x10000 ≤ c.toNat then 2 else 1).sum

/-- The rows that are read. -/
def sheetRows (nfd : SheetText → SheetText) (csv : SheetText) : List SheetRow :=
  match parseCsv csv with
  | [] => []
  | headings :: table =>
    let header := headings.map fun cell => ALIASES.lookup (sheetKey nfd cell)
    (table.take MAX_ROWS).zipIdx.map fun row =>
      { line := row.2 + 2, cells := row.1, values := valuesOf header row.1 }

namespace SheetRow

variable (row : SheetRow)

def field (key : SheetColumn) : SheetText := trimmed (row.values key)

def name : SheetText :=
  if row.field .name ≠ [] then row.field .name
  else [' '].intercalate ([row.field .first, row.field .last].filter (· ≠ []))

def phoneDigits : SheetText := digitsOf (row.field .phone)

def serviceName : SheetText :=
  if row.field .service ≠ [] then row.field .service
  else if row.field .start = [] ∧ row.field .date = [] then row.name
  else []

def duration : Option ℕ := durationOf (row.field .duration)

def price : ℚ := sheetMoney (row.field .price)

def rawDate : SheetText := if row.field .start ≠ [] then row.field .start else row.field .date

def parsedDate (monthFirst : Bool) : Option SheetDate :=
  dateParts (row.field .start) monthFirst <|> dateParts (row.field .date) monthFirst

def time : Option ℕ :=
  minutesOf (afterFirstWord (row.field .start)) <|> minutesOf (row.field .time)

/-- The date and the time of day that are written in the row. -/
def written (monthFirst : Bool) : Option (Date × ℕ) := do
  let parsed ← row.parsedDate monthFirst
  let time ← row.time
  return (parsed.date, time)

/-- The status says that the appointment was called off. -/
def calledOff (nfd : SheetText → SheetText) : Bool :=
  ["cancelado", "cancelled", "canceled", "cancelada"].contains (sheetKey nfd (row.field .status))

end SheetRow

/-! ## What a row becomes -/

inductive SheetStatus where
  | confirmed | completed | noShow
  deriving DecidableEq

inductive SheetSource where
  | imported | history
  deriving DecidableEq

structure SheetAppointment where
  line : ℕ
  name : SheetText
  phone : SheetText
  phoneDigits : SheetText
  serviceName : SheetText
  start : ℤ
  durationMinutes : ℕ
  price : ℚ
  barberName : Option SheetText
  status : SheetStatus
  source : SheetSource

structure SheetService where
  line : ℕ
  name : SheetText
  durationMinutes : ℕ
  price : ℚ

structure SheetCustomer where
  line : ℕ
  name : SheetText
  phone : SheetText
  phoneDigits : SheetText
  email : Option SheetText
  notes : Option SheetText

inductive RowOutcome where
  | appointment (a : SheetAppointment)
  | service (s : SheetService)
  | customer (c : SheetCustomer)
  | error (message : String)
  | nothing

/-- An empty text is `undefined`. -/
def givenText (text : SheetText) : Option SheetText := if text = [] then none else some text

/-- `appointmentStatus`; `none` is `'SKIP'`. An hour that has not come is confirmed whatever the sheet
says. -/
def appointmentStatus (nfd : SheetText → SheetText) (row : SheetRow) (start now : ℤ) :
    Option SheetStatus :=
  if row.calledOff nfd then none
  else if now ≤ start then some .confirmed
  else if ["faltou", "no_show", "noshow"].contains (sheetKey nfd (row.field .status)) then
    some .noShow
  else some .completed

def lineError (row : SheetRow) (text : String) : RowOutcome :=
  .error ("Linha " ++ toString row.line ++ ": " ++ text)

/-- The row with a date and a time. -/
def readAppointment (nfd : SheetText → SheetText) (now : ℤ) (row : SheetRow) (start : ℤ) :
    RowOutcome :=
  match appointmentStatus nfd row start now with
  | none => .nothing
  | some status =>
    if row.name = [] ∨ row.phoneDigits.length < 8 then
      lineError row "agendamento sem cliente e telefone."
    else if row.serviceName = [] then lineError row "agendamento sem serviço."
    else .appointment
      { line := row.line
        name := row.name
        phone := row.field .phone
        phoneDigits := row.phoneDigits
        serviceName := row.serviceName
        start := start
        durationMinutes := (row.duration.filter (0 < ·)).getD 30
        price := row.price
        barberName := givenText (row.field .barber)
        status := status
        source := if start < now then .history else .imported }

/-- The row without them. -/
def readUndated (row : SheetRow) : RowOutcome :=
  if (row.duration.isSome ∨ row.field .price ≠ []) ∧ row.serviceName ≠ [] ∧
      row.field .phone = [] then
    match row.duration.filter (0 < ·) with
    | none => lineError row "serviço sem duração em minutos."
    | some duration =>
      .service
        { line := row.line
          name := row.serviceName
          durationMinutes := duration
          price := row.price }
  else if row.name ≠ [] ∧ 8 ≤ row.phoneDigits.length then
    .customer
      { line := row.line
        name := row.name
        phone := row.field .phone
        phoneDigits := row.phoneDigits
        email := givenText (row.field .email)
        notes := givenText (row.field .notes) }
  else if row.cells.any (· ≠ []) then
    lineError row "não deu para reconhecer cliente, serviço ou agendamento."
  else .nothing

/-- One turn of the loop; `none` is the `RangeError` of a date that cannot be reckoned with. -/
def readRow (nfd : SheetText → SheetText) (zone : Zone) (monthFirst : Bool) (now : ℤ)
    (row : SheetRow) : Option RowOutcome :=
  match row.written monthFirst with
  | some (date, time) => (zonedTimeToUtc date time zone).map (readAppointment nfd now row)
  | none => some (readUndated row)

/-! ## The sheet -/

structure ParsedSheet where
  customers : List SheetCustomer
  services : List SheetService
  appointments : List SheetAppointment
  errors : List String

/-- The countries that write the month before the day. -/
def MONTH_FIRST_COUNTRIES : List SheetText :=
  ["US".toList, "PH".toList, "FM".toList, "PW".toList, "MH".toList]

def monthBeforeDay (country : Option SheetText) : Bool :=
  MONTH_FIRST_COUNTRIES.contains ((trimmed (country.getD [])).map Char.toUpper)

def RowOutcome.appointment? : RowOutcome → Option SheetAppointment
  | appointment a => some a
  | _ => none

def RowOutcome.service? : RowOutcome → Option SheetService
  | service s => some s
  | _ => none

def RowOutcome.customer? : RowOutcome → Option SheetCustomer
  | customer c => some c
  | _ => none

def RowOutcome.error? : RowOutcome → Option String
  | error message => some message
  | _ => none

/-- The warning of the first date that could be read both ways. -/
def ambiguousWarning (monthFirst : Bool) (rows : List SheetRow) : List String :=
  match rows.find? fun row => (row.parsedDate monthFirst).any (·.ambiguous) with
  | none => []
  | some row =>
    ["A data " ++ String.ofList row.rawDate ++
      (if monthFirst then " foi lida como mês/dia, no formato deste país. "
        else " foi lida como dia/mês. ") ++
      "Confira se as outras datas parecidas estão certas."]

def parseSheet (nfd : SheetText → SheetText) (csv : SheetText) (zone : Zone) (now : ℤ)
    (country : Option SheetText) : Option ParsedSheet :=
  if MAX_CHARS < utf16Length csv then
    some ⟨[], [], [], ["A planilha passa do tamanho aceito. Divida em partes menores."]⟩
  else if (parseCsv csv).length < 2 then
    some ⟨[], [], [], ["A planilha precisa de um cabeçalho e ao menos uma linha."]⟩
  else do
    let monthFirst := monthBeforeDay country
    let rows := sheetRows nfd csv
    let outcomes ← rows.mapM (readRow nfd zone monthFirst now)
    let long := if MAX_ROWS < (parseCsv csv).length - 1 then
      ["Só as primeiras " ++ toString MAX_ROWS ++ " linhas foram lidas."] else []
    return {
      customers := outcomes.filterMap (·.customer?)
      services := outcomes.filterMap (·.service?)
      appointments := outcomes.filterMap (·.appointment?)
      errors := ambiguousWarning monthFirst rows ++ long ++ outcomes.filterMap (·.error?) }

end Barbershop
