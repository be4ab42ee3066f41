import Barbershop.Agenda.Shifts
import Barbershop.Core.LocalDays

/-!
# Working windows

When a barber works on a date (`getWorkingWindowOn`). A barber's own day counts within the hours of the
unit, and a barber without one has these; a closure narrows them, closes the date, or opens it to those
who have no day of their own. `toMinutes` of the source is `minutesOfDay`.
-/

namespace Barbershop

open Lib Calendar

/-! ## Rows -/

/-- Special hours of a date, or none: closed. -/
structure BarbershopClosure where
  barbershopId : ℕ
  date : Date
  openTime : Option TimeText
  closeTime : Option TimeText

structure BarberTimeOff where
  barberId : ℕ
  startAt : ℤ
  endAt : ℤ

/-- The agendas of all units. -/
structure Agenda where
  cat : Catalog
  db : Db
  businessHours : ℕ → Option Week
  schedules : Table BarberSchedule
  closures : Table BarbershopClosure
  timeOffs : Table BarberTimeOff
  /-- `parseBusinessHours` keeps what passes `TIME`. -/
  hoursTimed : ∀ shop, ∀ week ∈ businessHours shop, ∀ hours, some hours ∈ week →
    isTime hours.start = true ∧ isTime hours.finish = true
  /-- A closure is stored after `TIME`. -/
  closuresTimed : ∀ k c, closures.get? k = some c →
    (∀ time ∈ c.openTime, isTime time = true) ∧ ∀ time ∈ c.closeTime, isTime time = true

structure DayWindow where
  start : TimeText
  finish : TimeText
  breakStart : Option TimeText
  breakEnd : Option TimeText

/-! ## Windows -/

/-- A number in two digits at least. -/
def padTime (n : ℕ) : List Char :=
  let digits := Nat.toDigits 10 n
  List.replicate (2 - digits.length) '0' ++ digits

def hhmm (minutes : ℕ) : TimeText := padTime (minutes / 60) ++ ':' :: padTime (minutes % 60)

/-- A window within hours given in minutes. -/
def DayWindow.clip (window : DayWindow) (opening closing : ℕ) : Option DayWindow :=
  let start := max (minutesOfDay window.start) opening
  let finish := min (minutesOfDay window.finish) closing
  if finish ≤ start then none
  else some { window with start := hhmm start, finish := hhmm finish }

def clipToShopHours (window : DayWindow) (shop : DayHours) : Option DayWindow :=
  shop.bind fun hours => window.clip (minutesOfDay hours.start) (minutesOfDay hours.finish)

/-- The hours of a unit have no break. -/
def Hours.window (hours : Hours) : DayWindow :=
  { start := hours.start, finish := hours.finish, breakStart := none, breakEnd := none }

namespace Agenda

variable (a : Agenda)

/-- The row of a barber's own week. -/
def ownDay (barberId : ℕ) (dayOfWeek : ℤ) : Option BarberSchedule :=
  (a.schedules.find? fun _ r => r.barberId == barberId && r.dayOfWeek == dayOfWeek).map (·.2)

def getWorkingWindow (barbershopId barberId : ℕ) (dayOfWeek : ℤ) : Option DayWindow :=
  let shop := shopHoursOn (a.businessHours barbershopId) dayOfWeek
  match a.ownDay barberId dayOfWeek with
  | some schedule =>
    if schedule.isActive then
      clipToShopHours
        { start := schedule.startTime
          finish := schedule.endTime
          breakStart := schedule.breakStart
          breakEnd := schedule.breakEnd } shop
    else none
  | none => shop.map Hours.window

def getWorkingWindowOn (barbershopId barberId : ℕ) (dateStr : Date) : Option DayWindow := do
  let dayOfWeek ← dayOfWeekOf dateStr
  let window := a.getWorkingWindow barbershopId barberId dayOfWeek
  match a.closures.find? fun _ c => c.barbershopId == barbershopId && c.date == dateStr with
  | none => window
  | some (_, closure) =>
    let openTime ← given closure.openTime
    let closeTime ← given closure.closeTime
    match window with
    | some window => window.clip (minutesOfDay openTime) (minutesOfDay closeTime)
    | none =>
      -- a day off in the barber's own week stays one
      if (a.ownDay barberId dayOfWeek).isSome then none
      else some (Hours.window { start := openTime, finish := closeTime })

end Agenda

/-! ## They end before midnight -/

/-- A character from `'0'` to another is not the colon, and its digit is bounded. -/
theorem timeDigit_le {c last : Char} (h : '0' ≤ c ∧ c ≤ last) (hlast : last ≤ '9') :
    (c != ':') = true ∧ c.toNat - '0'.toNat ≤ last.toNat - '0'.toNat := by
  have hle : c.toNat ≤ last.toNat := h.2
  have hle' : last.toNat ≤ '9'.toNat := hlast
  refine ⟨?_, by omega⟩
  rw [bne_iff_ne]
  rintro rfl
  exact absurd (hle.trans hle') (by decide)

theorem minutesOfDay_lt {time : TimeText} (h : isTime time = true) : minutesOfDay time < 1440 := by
  unfold isTime isDigit at h
  split at h
  · next a b c d =>
    simp only [Bool.and_eq_true, Bool.or_eq_true, beq_iff_eq, decide_eq_true_eq] at h
    obtain ⟨⟨hhour, hc⟩, hd⟩ := h
    obtain ⟨-, hc⟩ := timeDigit_le hc (by decide)
    obtain ⟨-, hd⟩ := timeDigit_le hd (by decide)
    have hhour : (a != ':') = true ∧ (b != ':') = true ∧
        10 * (a.toNat - '0'.toNat) + (b.toNat - '0'.toNat) ≤ 23 := by
      rcases hhour with ⟨rfl | rfl, hb⟩ | ⟨⟨rfl, hb⟩, hb'⟩
      · obtain ⟨hne, hb⟩ := timeDigit_le hb (by decide)
        exact ⟨by decide, hne, by simp at hb ⊢; omega⟩
      · obtain ⟨hne, hb⟩ := timeDigit_le hb (by decide)
        exact ⟨by decide, hne, by simp at hb ⊢; omega⟩
      · obtain ⟨hne, hb⟩ := timeDigit_le ⟨hb, hb'⟩ (by decide)
        exact ⟨by decide, hne, by simp at hb ⊢; omega⟩
    obtain ⟨ha, hb, hhour⟩ := hhour
    have hvalue : minutesOfDay [a, b, ':', c, d] =
        (10 * (a.toNat - '0'.toNat) + (b.toNat - '0'.toNat)) * 60 +
          (10 * (c.toNat - '0'.toNat) + (d.toNat - '0'.toNat)) := by
      simp [minutesOfDay, digitsValue, List.takeWhile, List.dropWhile, ha, hb]
    rw [hvalue]
    have : '5'.toNat - '0'.toNat = 5 := rfl
    have : '9'.toNat - '0'.toNat = 9 := rfl
    omega
  · exact absurd h (by decide)

theorem minutesOfDay_hhmm {m : ℕ} (h : m < 1440) : minutesOfDay (hhmm m) = m := by
  have hall : ∀ m < 1440, minutesOfDay (hhmm m) = m := by decide +kernel
  exact hall m h

theorem isTime_hhmm {m : ℕ} (h : m < 1440) : isTime (hhmm m) = true := by
  have hall : ∀ m < 1440, isTime (hhmm m) = true := by decide +kernel
  exact hall m h

/-- A window ends before midnight. -/
def DayWindow.Timed (window : DayWindow) : Prop := minutesOfDay window.finish < 1440

theorem DayWindow.clip_timed {window clipped : DayWindow} {opening closing : ℕ}
    (h : window.clip opening closing = some clipped) (hclosing : closing < 1440) :
    clipped.Timed := by
  unfold clip at h
  dsimp only at h
  split at h
  · cases h
  · cases h
    show minutesOfDay (hhmm _) < 1440
    rw [minutesOfDay_hhmm (by omega)]
    omega

namespace Agenda

variable {a : Agenda}

theorem shopHoursOn_timed {shop : ℕ} {dayOfWeek : ℤ} {hours : Hours}
    (h : shopHoursOn (a.businessHours shop) dayOfWeek = some hours) :
    minutesOfDay hours.finish < 1440 := by
  unfold shopHoursOn at h
  have hmem : some hours ∈ (a.businessHours shop).getD DEFAULT_WORKING_HOURS := by
    rw [List.getD_eq_getElem?_getD] at h
    cases hday : ((a.businessHours shop).getD DEFAULT_WORKING_HOURS)[dayOfWeek.toNat]? with
    | none => rw [hday] at h; cases h
    | some day =>
      rw [hday] at h
      cases h
      exact List.mem_of_getElem? hday
  cases hweek : a.businessHours shop with
  | none =>
    rw [hweek] at hmem
    have hdefault : ∀ day ∈ DEFAULT_WORKING_HOURS, ∀ hours ∈ day,
        minutesOfDay hours.finish < 1440 := by decide
    exact hdefault _ hmem hours rfl
  | some week =>
    rw [hweek] at hmem
    exact minutesOfDay_lt (a.hoursTimed shop week hweek hours hmem).2

theorem getWorkingWindow_timed {shop barberId : ℕ} {dayOfWeek : ℤ} {window : DayWindow}
    (h : a.getWorkingWindow shop barberId dayOfWeek = some window) : window.Timed := by
  unfold getWorkingWindow at h
  dsimp only at h
  split at h
  · next schedule _ =>
    split at h
    · obtain ⟨hours, hhours, hclip⟩ := Option.bind_eq_some_iff.1 h
      exact DayWindow.clip_timed hclip (shopHoursOn_timed hhours)
    · cases h
  · obtain ⟨hours, hhours, rfl⟩ := Option.map_eq_some_iff.1 h
    exact shopHoursOn_timed hhours

theorem getWorkingWindowOn_timed {shop barberId : ℕ} {dateStr : Date} {window : DayWindow}
    (h : a.getWorkingWindowOn shop barberId dateStr = some window) : window.Timed := by
  obtain ⟨dayOfWeek, -, h⟩ := Option.bind_eq_some_iff.1 h
  dsimp only at h
  split at h
  · exact getWorkingWindow_timed h
  · next k closure hclosure =>
    obtain ⟨openTime, -, h⟩ := Option.bind_eq_some_iff.1 h
    obtain ⟨closeTime, hclose, h⟩ := Option.bind_eq_some_iff.1 h
    have hstored := (a.closuresTimed k closure (Table.find?_some hclosure).1).2 closeTime
      (Option.filter_eq_some_iff.1 hclose).1
    split at h
    · exact DayWindow.clip_timed h (minutesOfDay_lt hstored)
    · split at h
      · cases h
      · cases h
        exact minutesOfDay_lt hstored

end Agenda

end Barbershop
