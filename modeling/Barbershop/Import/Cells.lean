import Barbershop.Agenda.Hours
import Barbershop.Agenda.Phone
import Barbershop.Lib.Calendar

/-!
# The cells of an imported sheet

A sheet is a text of comma- or semicolon-separated values from another system. `parseCsv` cuts it into
cells; the other readers take a date, a time of day, an amount or a duration from the text of a cell.
-/

namespace Barbershop

open Lib Calendar

/-- The text of a sheet or of a cell. -/
abbrev SheetText := List Char

/-! ## Rows and cells -/

/-- `/\r\n/` and then `/\r/` replaced by a line feed. -/
def lineFeeds : SheetText → SheetText
  | '\r' :: '\n' :: rest => '\n' :: lineFeeds rest
  | '\r' :: rest => '\n' :: lineFeeds rest
  | c :: rest => c :: lineFeeds rest
  | [] => []

/-- The byte order mark at the start is dropped. -/
def withoutMark : SheetText → SheetText
  | c :: rest => if c.toNat = 0xfeff then rest else c :: rest
  | [] => []

structure CsvState where
  rows : List (List SheetText)
  row : List SheetText
  cell : SheetText

namespace CsvState

def push (s : CsvState) (c : Char) : CsvState := { s with cell := s.cell ++ [c] }

def endCell (s : CsvState) : CsvState := { s with row := s.row ++ [trimmed s.cell], cell := [] }

/-- A row of empty cells is not kept. -/
def endRow (s : CsvState) : CsvState :=
  let row := s.row ++ [trimmed s.cell]
  { rows := if row.any (· ≠ []) then s.rows ++ [row] else s.rows, row := [], cell := [] }

end CsvState

/-- The loop of `parseCsv`; the flag says that it is inside quotes. -/
def csvLoop (delim : Char) : Bool → CsvState → SheetText → CsvState
  | true, s, '"' :: '"' :: rest => csvLoop delim true (s.push '"') rest
  | true, s, '"' :: rest => csvLoop delim false s rest
  | true, s, c :: rest => csvLoop delim true (s.push c) rest
  | false, s, c :: rest =>
    if c = '"' then csvLoop delim true s rest
    else if c = delim then csvLoop delim false s.endCell rest
    else if c = '\n' then csvLoop delim false s.endRow rest
    else csvLoop delim false (s.push c) rest
  | _, s, [] => s

def parseCsv (text : SheetText) : List (List SheetText) :=
  let src := lineFeeds (withoutMark text)
  let header := src.takeWhile (· != '\n')
  let delim := if header.count ',' < header.count ';' then ';' else ','
  (csvLoop delim false { rows := [], row := [], cell := [] } src).endRow.rows

example : parseCsv "a;\"x;\"\"y\"\"\"\r\n\n b ;c".toList =
    ["a", "x;\"y\""].map String.toList :: [["b", "c"].map String.toList] := by decide +kernel

/-! ## Headings -/

inductive SheetColumn where
  | name | first | last | phone | email | notes | service | duration | price | start | date | time
  | barber | status
  deriving DecidableEq

/-- `ALIASES` -/
def ALIASES : List (String × SheetColumn) :=
  [("nome", .name), ("name", .name), ("cliente", .name), ("client", .name), ("customer", .name),
    ("first_name", .first), ("firstname", .first), ("nome_completo", .name),
    ("sobrenome", .last), ("last_name", .last), ("lastname", .last),
    ("telefone", .phone), ("phone", .phone), ("celular", .phone), ("cell_phone", .phone),
    ("cellphone", .phone), ("mobile", .phone), ("whatsapp", .phone), ("fone", .phone),
    ("email", .email), ("e_mail", .email),
    ("notas", .notes), ("notes", .notes), ("observacao", .notes), ("obs", .notes),
    ("servico", .service), ("service", .service), ("tratamento", .service),
    ("duracao", .duration), ("duracao_minutos", .duration), ("duration", .duration),
    ("duration_minutes", .duration), ("tempo", .duration),
    ("preco", .price), ("price", .price), ("valor", .price),
    ("inicio", .start), ("start", .start), ("data_hora", .start), ("datetime", .start),
    ("booking_date", .date), ("data", .date), ("date", .date), ("dia", .date),
    ("hora", .time), ("time", .time), ("horario", .time),
    ("profissional", .barber), ("barbeiro", .barber), ("staff", .barber), ("staffer", .barber),
    ("employee", .barber), ("status", .status), ("situacao", .status)]

/-- `[a-z0-9]` -/
def isKeyChar (c : Char) : Bool := isDigit c || ('a' ≤ c && c ≤ 'z')

/-- Each run of other characters becomes one underscore; the flag says that a run is going on. -/
def underscoreRuns : Bool → SheetText → SheetText
  | _, [] => []
  | running, c :: rest =>
    if isKeyChar c then c :: underscoreRuns false rest
    else if running then underscoreRuns true rest
    else '_' :: underscoreRuns true rest

/-- `sheetKey`. `nfd` is `normalize('NFD')`; beyond ASCII, no letter it leaves is one in lower case. -/
def sheetKey (nfd : SheetText → SheetText) (value : SheetText) : String :=
  let plain := (nfd value).filter fun c => !(0x300 ≤ c.toNat && c.toNat ≤ 0x36f)
  let text := underscoreRuns false (plain.map Char.toLower)
  .ofList ((text.dropWhile (· == '_')).reverse.dropWhile (· == '_')).reverse

/-! ## Amounts and durations -/

/-- `Number` of a text of digits, points, commas and minus signs; `none` is `NaN`. -/
def decimalValue (text : SheetText) : Option ℚ :=
  let negative := text.head? = some '-'
  let rest := if negative then text.tail else text
  let whole := rest.takeWhile isDigit
  let fraction := (rest.dropWhile isDigit).tail
  let point := (rest.dropWhile isDigit).head?
  if text = [] then some 0
  else if (point = none ∨ point = some '.') ∧ fraction.all isDigit ∧ whole ++ fraction ≠ [] then
    let value := (digitsValue (whole ++ fraction) : ℚ) / 10 ^ fraction.length
    some (if negative then -value else value)
  else none

/-- `/^\d{1,3}(\.\d{3})+$/` -/
def isThousands (text : SheetText) : Bool :=
  match text.splitOn '.' with
  | first :: second :: rest =>
    1 ≤ first.length && first.length ≤ 3 && first.all isDigit &&
      (second :: rest).all fun group => group.length == 3 && group.all isDigit
  | _ => false

def replaceFirstComma : SheetText → SheetText
  | [] => []
  | c :: rest => if c = ',' then '.' :: rest else c :: replaceFirstComma rest

/-- `money`: the last of comma and point is the decimal one. -/
def sheetMoney (value : SheetText) : ℚ :=
  let cleaned := (trimmed value).filter fun c => isDigit c || c == ',' || c == '.' || c == '-'
  let number :=
    if cleaned = [] then some 0
    else if ',' ∈ cleaned ∧ '.' ∈ cleaned then
      if (cleaned.reverse.find? fun c => c == ',' || c == '.') = some ',' then
        decimalValue (replaceFirstComma (cleaned.filter (· != '.')))
      else decimalValue (cleaned.filter (· != ','))
    else if ',' ∈ cleaned then decimalValue (replaceFirstComma cleaned)
    else if isThousands cleaned then decimalValue (cleaned.filter (· != '.'))
    else decimalValue cleaned
  number.getD 0

example : ["1.200", "1.20", "1.200,50", "R$ 45,00", "-"].map (sheetMoney ·.toList) =
    [1200, 6 / 5, 2401 / 2, 45, 0] := by decide +kernel

/-- One or two digits at the start of a text. -/
def oneOrTwoDigits : SheetText → Option (ℕ × SheetText)
  | [] => none
  | [c] => if isDigit c then some (digitsValue [c], []) else none
  | c :: c' :: rest =>
    if isDigit c then
      if isDigit c' then some (digitsValue [c, c'], rest) else some (digitsValue [c], c' :: rest)
    else none

def twoDigits : SheetText → Option (ℕ × SheetText)
  | c :: c' :: rest => if isDigit c && isDigit c' then some (digitsValue [c, c'], rest) else none
  | _ => none

def fourDigits : SheetText → Option (ℕ × SheetText)
  | a :: b :: c :: d :: rest =>
    if [a, b, c, d].all isDigit then some (digitsValue [a, b, c, d], rest) else none
  | _ => none

/-- One of some characters at the start of a text. -/
def oneOf (chars : List Char) : SheetText → Option SheetText
  | c :: rest => if c ∈ chars then some rest else none
  | [] => none

/-- `durationOf`: `1h30`, `1:30` below twelve hours, or the first number. -/
def durationOf (value : SheetText) : Option ℕ :=
  let text := (trimmed value).map Char.toLower
  let digits := text.takeWhile isDigit
  let unit := (text.dropWhile isDigit).dropWhile isBlank
  let clock := do
    let (hour, rest) ← oneOrTwoDigits text
    let rest ← oneOf [':'] rest
    let (minute, rest) ← twoDigits rest
    if rest = [] ∧ hour < 12 then some (hour * 60 + minute) else none
  let first := (text.dropWhile fun c => !isDigit c).takeWhile isDigit
  if digits ≠ [] ∧ unit.head? = some 'h' then
    some (digitsValue digits * 60 +
      digitsValue ((unit.tail.dropWhile isBlank).takeWhile isDigit))
  else match clock with
    | some minutes => some minutes
    | none => if first = [] then none else some (digitsValue first)

/-! ## Dates and times -/

structure SheetDate where
  date : Date
  ambiguous : Bool
  deriving DecidableEq

/-- A date in the order of ISO at the start of a text, day and month unchecked. -/
def isoDateParts (value : SheetText) : Option SheetDate := do
  let (year, rest) ← fourDigits value
  let rest ← oneOf ['-'] rest
  let (month, rest) ← twoDigits rest
  let rest ← oneOf ['-'] rest
  let (day, _) ← twoDigits rest
  return { date := ⟨year, month, day⟩, ambiguous := false }

/-- Which of two numbers is the day and which the month, and whether both could be either. -/
def dayAndMonth (monthFirst : Bool) (a b : ℕ) : Option (ℕ × ℕ × Bool) :=
  if 12 < a ∧ 1 ≤ b ∧ b ≤ 12 then some (a, b, false)
  else if 12 < b ∧ 1 ≤ a ∧ a ≤ 12 then some (b, a, false)
  else if 1 ≤ a ∧ a ≤ 12 ∧ 1 ≤ b ∧ b ≤ 12 then
    if monthFirst then some (b, a, true) else some (a, b, true)
  else none

/-- `dateParts` -/
def dateParts (value : SheetText) (monthFirst : Bool) : Option SheetDate :=
  match isoDateParts value with
  | some iso => some iso
  | none => do
    let (a, rest) ← oneOrTwoDigits value
    let rest ← oneOf ['/', '-', '.'] rest
    let (b, rest) ← oneOrTwoDigits rest
    let rest ← oneOf ['/', '-', '.'] rest
    let (year, _) ← fourDigits rest
    let (day, month, ambiguous) ← dayAndMonth monthFirst a b
    if month < 1 ∨ 12 < month ∨ day < 1 ∨ 31 < day then none
    else some { date := ⟨year, month, day⟩, ambiguous := ambiguous }

def minutesOf (value : SheetText) : Option ℕ := do
  let (hour, rest) ← oneOrTwoDigits (trimmed value)
  let rest ← oneOf [':', 'h'] rest
  let (minute, _) ← twoDigits rest
  if 23 < hour ∨ 59 < minute then none else some (hour * 60 + minute)

/-- `split(/\s+/).slice(1).join(' ')` of a trimmed text. -/
def afterFirstWord (text : SheetText) : SheetText :=
  [' '].intercalate (((text.splitOnP isBlank).filter (· ≠ [])).drop 1)

end Barbershop
