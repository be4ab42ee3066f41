import Barbershop.Lib.Guard
import Barbershop.Model.Db

/-!
# Opening hours and shifts

Times of a day are texts `HH:MM`. What is stored has passed `TIME`; the minutes of other texts are
not numbers in the source and are never asked for.
-/

namespace Barbershop

open Lib

/-! ## Times -/

abbrev TimeText := List Char

def isDigit (c : Char) : Bool := '0' ≤ c && c ≤ '9'

/-- `/^([01]\d|2[0-3]):[0-5]\d$/` -/
def isTime : TimeText → Bool
  | [a, b, ':', c, d] =>
    (((a == '0' || a == '1') && isDigit b) || (a == '2' && '0' ≤ b && b ≤ '3')) &&
      ('0' ≤ c && c ≤ '5') && isDigit d
  | _ => false

/-- `Number` of a text of digits. -/
def digitsValue (text : List Char) : ℕ :=
  text.foldl (fun n c => 10 * n + (c.toNat - '0'.toNat)) 0

/-- `minutesOfDay`, `minutesOfTime` -/
def minutesOfDay (hhmm : TimeText) : ℕ :=
  let hour := hhmm.takeWhile (· != ':')
  let minute := (hhmm.dropWhile (· != ':')).drop 1
  digitsValue hour * 60 + digitsValue minute

structure Hours where
  start : TimeText
  finish : TimeText
  deriving DecidableEq

/-- The hours of a weekday; `none`: closed. -/
abbrev DayHours := Option Hours

/-- Sunday first. -/
abbrev Week := List DayHours

def WEEKDAY_KEYS : List String :=
  ["sunday", "monday", "tuesday", "wednesday", "thursday", "friday", "saturday"]

def weekdayKey (dayOfWeek : ℤ) : String := WEEKDAY_KEYS.getD dayOfWeek.toNat ""

def DEFAULT_WORKING_HOURS : Week :=
  let day := some { start := "09:00".toList, finish := "18:00".toList }
  [none, day, day, day, day, day, some { start := "09:00".toList, finish := "17:00".toList }]

/-- `shopHoursOn`: the hours of a unit, its own or the default. -/
def shopHoursOn (businessHours : Option Week) (dayOfWeek : ℤ) : DayHours :=
  (businessHours.getD DEFAULT_WORKING_HOURS).getD dayOfWeek.toNat none

/-- A shift of one's own is within the hours; on a closed day none is. -/
def fitsShopHours (start finish : TimeText) (shop : DayHours) : Bool :=
  shop.any fun hours =>
    decide (minutesOfDay start < minutesOfDay finish) &&
      decide (minutesOfDay hours.start ≤ minutesOfDay start) &&
      decide (minutesOfDay finish ≤ minutesOfDay hours.finish)

/-- Two shifts of a day cross. -/
def shiftsOverlap (aStart aEnd bStart bEnd : TimeText) : Bool :=
  decide (minutesOfDay aStart < minutesOfDay bEnd) &&
    decide (minutesOfDay bStart < minutesOfDay aEnd)

theorem shiftsOverlap_comm (aStart aEnd bStart bEnd : TimeText) :
    shiftsOverlap aStart aEnd bStart bEnd = shiftsOverlap bStart bEnd aStart aEnd :=
  Bool.and_comm ..

/-! ## Checks of an input -/

/-- `checkRange` -/
def checkRange (start finish : Option TimeText) (label : String) : Result Hours :=
  match start, finish with
  | some start, some finish =>
    if isTime start && isTime finish && decide (start < finish) then
      .ok { start := start, finish := finish }
    else .error (.badRequest (label ++ ": horário inválido (use HH:MM, início antes do fim)"))
  | _, _ => .error (.badRequest (label ++ ": horário inválido (use HH:MM, início antes do fim)"))

/-- `checkDays` -/
def checkDays : List ℤ → List ℤ → Result Unit
  | _, [] => .ok ()
  | seen, d :: days => do
    refuseIf (d < 0 ∨ 6 < d) (.badRequest "Dia da semana inválido")
    refuseIf (d ∈ seen) (.badRequest "Dia da semana repetido")
    checkDays (d :: seen) days

/-- The loop of a check over the days sent. -/
def eachDay {α : Type} (check : α → Result Unit) : List α → Result Unit
  | [] => .ok ()
  | d :: days => do
    check d
    eachDay check days

theorem eachDay_ok {α : Type} {check : α → Result Unit} {days : List α} :
    eachDay check days = .ok () ↔ ∀ d ∈ days, check d = .ok () := by
  induction days with
  | nil => simp [eachDay]
  | cons d days ih => simp [eachDay, ih]

end Barbershop
