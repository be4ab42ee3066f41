import Barbershop.Import.Cells
import Barbershop.Lib.Folding

/-!
# Calendar files

`buildCalendar` writes events as an iCalendar file: content lines of a name and a value, folded at 75
octets. User text stands in the values of some properties, escaped, and in the names of people. The
lines that were built, and the texts in them, are read back from the file (`calendar_wellFormed`).
-/

namespace Barbershop

open Lib Calendar Folding

/-- The text of a calendar. -/
abbrev IcsText := List Char

/-- `Buffer.byteLength(line, 'utf8')` -/
def octets (line : IcsText) : ℕ := (line.map Char.utf8Size).sum

/-! ## Values -/

def padded (width n : ℕ) : IcsText :=
  List.replicate (width - (Nat.toDigits 10 n).length) '0' ++ Nat.toDigits 10 n

/-- Years of four digits, or a sign and six. -/
def isoYear (year : ℤ) : IcsText :=
  if 0 ≤ year ∧ year ≤ 9999 then padded 4 year.toNat
  else (if year < 0 then '-' else '+') :: padded 6 year.natAbs

/-- `toISOString` -/
def toISOString (t : ℤ) : IcsText :=
  let date := civil (t / 86400000)
  let ms := (t % 86400000).toNat
  isoYear date.year ++ '-' :: padded 2 date.month.toNat ++ '-' :: padded 2 date.day.toNat ++
    'T' :: padded 2 (ms / 3600000) ++ ':' :: padded 2 (ms / 60000 % 60) ++
    ':' :: padded 2 (ms / 1000 % 60) ++ '.' :: padded 3 (ms % 1000) ++ ['Z']

/-- `.replace(/\.\d{3}/, '')` -/
def dropMilliseconds : IcsText → IcsText
  | '.' :: a :: b :: c :: rest =>
    if [a, b, c].all isDigit then rest else '.' :: dropMilliseconds (a :: b :: c :: rest)
  | c :: rest => c :: dropMilliseconds rest
  | [] => []

def stamp (d : ℤ) : IcsText :=
  dropMilliseconds ((toISOString d).filter fun c => c != '-' && c != ':')

example : stamp 1790263800000 = "20260924T153000Z".toList := by decide +kernel

def replaceAll (c : Char) (replacement value : IcsText) : IcsText :=
  value.flatMap fun x => if x = c then replacement else [x]

/-- `.replace(/\r\n|\r|\n/g, '\\n')` -/
def escapeBreaks : IcsText → IcsText
  | '\r' :: '\n' :: rest => '\\' :: 'n' :: escapeBreaks rest
  | c :: rest =>
    if c = '\r' ∨ c = '\n' then '\\' :: 'n' :: escapeBreaks rest else c :: escapeBreaks rest
  | [] => []

def text (value : IcsText) : IcsText :=
  escapeBreaks (replaceAll ',' ['\\', ','] (replaceAll ';' ['\\', ';']
    (replaceAll '\\' ['\\', '\\'] value)))

def paramValue (value : IcsText) : IcsText :=
  '"' :: trimmed (value.map fun c => if c ∈ ['"', '\r', '\n'] then ' ' else c) ++ ['"']

/-- `${n}` of a whole number. -/
def wholeText (n : ℤ) : IcsText :=
  if n < 0 then '-' :: Nat.toDigits 10 n.natAbs else Nat.toDigits 10 n.natAbs

/-! ## Folding -/

/-- A part after the first follows a space. -/
def partLimit (first : Bool) : ℕ := if first then 75 else 74

/-- The loop of `fold`; the flag says that no part is complete yet. -/
def foldParts (first : Bool) (current : IcsText) (size : ℕ) : IcsText → List IcsText
  | ch :: rest =>
    let n := ch.utf8Size
    if partLimit first < size + n then current :: foldParts false [ch] n rest
    else foldParts first (current ++ [ch]) (size + n) rest
  | [] => [current]

/-- The parts of a line that fits are the line. -/
def lineParts (line : IcsText) : List IcsText :=
  if octets line ≤ 75 then [line] else foldParts true [] 0 line

def fold (line : IcsText) : IcsText := joinParts (lineParts line)

/-! ## Events -/

structure IcsPerson where
  name : IcsText
  email : IcsText

structure IcsEvent where
  uid : IcsText
  start : ℤ
  finish : ℤ
  summary : IcsText
  description : Option IcsText
  location : Option IcsText
  url : Option IcsText
  sequence : Option ℤ
  cancelled : Bool
  updatedAt : Option ℤ
  organizer : Option IcsPerson
  attendee : Option IcsPerson

/-- A text that is there and is not empty. -/
def filled (value : Option IcsText) : Option IcsText := value.filter (· ≠ [])

def organizerLine (p : IcsPerson) : IcsText :=
  "ORGANIZER;CN=".toList ++ (paramValue p.name ++ (":mailto:".toList ++ p.email))

def attendeeLine (p : IcsPerson) : IcsText :=
  "ATTENDEE;CN=".toList ++ (paramValue p.name ++
    (";ROLE=REQ-PARTICIPANT;PARTSTAT=ACCEPTED;RSVP=FALSE:mailto:".toList ++ p.email))

def eventLines (e : IcsEvent) (now : ℤ) : List IcsText :=
  ["BEGIN:VEVENT".toList, "UID:".toList ++ e.uid, "DTSTAMP:".toList ++ stamp now,
      "DTSTART:".toList ++ stamp e.start, "DTEND:".toList ++ stamp e.finish,
      "SUMMARY:".toList ++ text e.summary] ++
    (filled e.description).toList.map ("DESCRIPTION:".toList ++ text ·) ++
    (filled e.location).toList.map ("LOCATION:".toList ++ text ·) ++
    (filled e.url).toList.map ("URL:".toList ++ ·) ++
    e.organizer.toList.map organizerLine ++ e.attendee.toList.map attendeeLine ++
    e.updatedAt.toList.map ("LAST-MODIFIED:".toList ++ stamp ·) ++
    ["SEQUENCE:".toList ++ wholeText (e.sequence.getD 0),
      "STATUS:".toList ++ (if e.cancelled then "CANCELLED" else "CONFIRMED").toList,
      "END:VEVENT".toList]

inductive IcsMethod where
  | publish | request | cancel
  deriving DecidableEq

def IcsMethod.name : IcsMethod → String
  | publish => "PUBLISH"
  | request => "REQUEST"
  | cancel => "CANCEL"

structure IcsOptions where
  name : Option IcsText
  method : Option IcsMethod
  refreshHours : Option ℤ

def PRODID : String := "-//Barbershop//Agenda//PT"

/-- The lines before the events. -/
def headLines (opts : IcsOptions) : List IcsText :=
  ["BEGIN:VCALENDAR".toList, "VERSION:2.0".toList, "PRODID:".toList ++ PRODID.toList,
      "CALSCALE:GREGORIAN".toList, "METHOD:".toList ++ (opts.method.getD .publish).name.toList] ++
    (filled opts.name).toList.flatMap (fun name =>
      ["X-WR-CALNAME:".toList ++ text name, "NAME:".toList ++ text name]) ++
    (opts.refreshHours.filter (· ≠ 0)).toList.flatMap fun hours =>
      ["REFRESH-INTERVAL;VALUE=DURATION:PT".toList ++ (wholeText hours ++ ['H']),
        "X-PUBLISHED-TTL:PT".toList ++ (wholeText hours ++ ['H'])]

/-- The lines that `buildCalendar` folds. -/
def calendarLines (events : List IcsEvent) (opts : IcsOptions) (now : ℤ) : List IcsText :=
  headLines opts ++ events.flatMap (eventLines · now) ++ ["END:VCALENDAR".toList]

def buildCalendar (events : List IcsEvent) (opts : IcsOptions) (now : ℤ) : IcsText :=
  CRLF.intercalate ((calendarLines events opts now).map fold) ++ CRLF

/-! ## Folded lines -/

theorem octets_append (a b : IcsText) : octets (a ++ b) = octets a + octets b := by
  simp [octets]

theorem octets_singleton (ch : Char) : octets [ch] = ch.utf8Size := by
  simp [octets]

/-- The first part fits within a limit, and the others after a space. -/
def PartsFit (limit : ℕ) (parts : List IcsText) : Prop :=
  ∃ part rest, parts = part :: rest ∧ octets part ≤ limit ∧ ∀ p ∈ rest, octets p ≤ 74

theorem foldParts_fit (first : Bool) (current : IcsText) (rest : IcsText)
    (hcurrent : octets current ≤ partLimit first) :
    PartsFit (partLimit first) (foldParts first current (octets current) rest) := by
  induction rest generalizing first current with
  | nil => exact ⟨current, [], rfl, hcurrent, by simp⟩
  | cons ch rest ih =>
    have hsmall := ch.utf8Size_le_four
    rw [foldParts]
    by_cases hfull : partLimit first < octets current + ch.utf8Size
    · rw [if_pos hfull, ← octets_singleton]
      have hch : octets [ch] ≤ partLimit false := by
        rw [octets_singleton]
        exact hsmall.trans (by decide)
      obtain ⟨part, parts, hparts, hpart, hrest⟩ := ih false [ch] hch
      exact ⟨current, _, rfl, hcurrent, hparts ▸ List.forall_mem_cons.2 ⟨hpart, hrest⟩⟩
    · have hnext : octets (current ++ [ch]) = octets current + ch.utf8Size := by
        rw [octets_append, octets_singleton]
      rw [if_neg hfull, ← hnext]
      exact ih first (current ++ [ch]) (by omega)

theorem foldParts_flatten (first : Bool) (current : IcsText) (size : ℕ) (rest : IcsText) :
    (foldParts first current size rest).flatten = current ++ rest := by
  induction rest generalizing first current size with
  | nil => simp [foldParts]
  | cons ch rest ih =>
    rw [foldParts]
    split
    next => rw [List.flatten_cons, ih, List.singleton_append]
    next => rw [ih, List.append_assoc, List.singleton_append]

theorem lineParts_flatten (line : IcsText) : (lineParts line).flatten = line := by
  unfold lineParts
  split
  next => simp
  next => rw [foldParts_flatten, List.nil_append]

theorem lineParts_fit (line : IcsText) : PartsFit 75 (lineParts line) := by
  unfold lineParts
  split
  next hfits => exact ⟨line, [], rfl, hfits, by simp⟩
  next => exact foldParts_fit true [] line (by simp [octets])

theorem lineParts_ne_nil (line : IcsText) : lineParts line ≠ [] := by
  obtain ⟨part, rest, h, -⟩ := lineParts_fit line
  simp [h]

theorem lineParts_unbroken {line : IcsText} (h : Unbroken line) :
    ∀ part ∈ lineParts line, Unbroken part := by
  intro part hpart c hc
  rw [← lineParts_flatten line] at h
  exact h c (List.mem_flatten_of_mem hpart hc)

/-- The physical lines of a line fit within 75 octets. -/
theorem octets_physical {line p : IcsText} (h : p ∈ physical (lineParts line)) : octets p ≤ 75 := by
  obtain ⟨part, rest, hparts, hpart, hrest⟩ := lineParts_fit line
  rw [hparts] at h
  rcases List.mem_cons.1 h with rfl | h
  · exact hpart
  · obtain ⟨q, hq, rfl⟩ := List.mem_map.1 h
    have hspace : octets (' ' :: q) = 1 + octets q := by simp [octets]; decide
    have hsmall := hrest q hq
    omega

theorem head_foldParts (first : Bool) (c : Char) (current : IcsText) (size : ℕ) (rest : IcsText) :
    (joinParts (foldParts first (c :: current) size rest)).head? = some c := by
  induction rest generalizing current size with
  | nil => simp [foldParts, joinParts]
  | cons ch rest ih =>
    rw [foldParts]
    split
    next =>
      cases hparts : foldParts false [ch] ch.utf8Size rest with
      | nil => simp [joinParts]
      | cons next parts => simp [joinParts]
    next => exact ih (current ++ [ch]) (size + ch.utf8Size)

/-- A line begins as it was built. -/
theorem head_fold (c : Char) (line : IcsText) : (fold (c :: line)).head? = some c := by
  have hsmall := c.utf8Size_le_four
  unfold fold lineParts
  split
  next => simp [joinParts]
  next =>
    rw [foldParts, if_neg (by unfold partLimit; simp; omega)]
    exact head_foldParts true c [] _ line

/-! ## Escaped text -/

/-- What the first three replacements write for a character. -/
def escapeMark (c : Char) : IcsText := if c = '\\' ∨ c = ';' ∨ c = ',' then ['\\', c] else [c]

theorem replaceAll_marks (value : IcsText) :
    replaceAll ',' ['\\', ','] (replaceAll ';' ['\\', ';'] (replaceAll '\\' ['\\', '\\'] value)) =
      value.flatMap escapeMark := by
  unfold replaceAll
  rw [List.flatMap_assoc, List.flatMap_assoc]
  congr 1
  funext c
  unfold escapeMark
  by_cases hslash : c = '\\'
  · subst hslash; decide
  by_cases hsemicolon : c = ';'
  · subst hsemicolon; decide
  by_cases hcomma : c = ','
  · subst hcomma; decide
  simp [hslash, hsemicolon, hcomma]

/-- What `text` writes for a character other than a carriage return. -/
def escapeChar (c : Char) : IcsText := if c = '\n' then ['\\', 'n'] else escapeMark c

theorem escapeMark_cons {c : Char} (h : c = '\r' ∨ c = '\n') : escapeMark c = [c] := by
  rcases h with rfl | rfl <;> rfl

theorem escapeBreaks_mark {c : Char} (hr : c ≠ '\r') (hn : c ≠ '\n') (rest : IcsText) :
    escapeBreaks (escapeMark c ++ rest) = escapeMark c ++ escapeBreaks rest := by
  have hone : ∀ {x : Char} (l : IcsText), x ≠ '\r' → x ≠ '\n' →
      escapeBreaks (x :: l) = x :: escapeBreaks l := by
    intro x l hx hx'
    rw [escapeBreaks, if_neg (by simp [hx, hx'])]
    rintro l' rfl
    exact absurd rfl hx
  unfold escapeMark
  split
  next => simp only [List.cons_append, List.nil_append, hone _ hr hn,
    hone (x := '\\') _ (by decide) (by decide)]
  next => simp only [List.cons_append, List.nil_append, hone _ hr hn]

theorem head_marks {rest : IcsText} (h : ∀ r, rest ≠ '\n' :: r) :
    ∀ r, rest.flatMap escapeMark ≠ '\n' :: r := by
  cases rest with
  | nil => simp
  | cons c rest =>
    intro r heq
    rw [List.flatMap_cons, escapeMark] at heq
    split at heq
    next => cases heq
    next =>
      obtain ⟨rfl, -⟩ := List.cons.inj heq
      exact h rest rfl

/-- The four replacements write each character of the text whose breaks are line feeds. -/
theorem text_eq (value : IcsText) : text value = (lineFeeds value).flatMap escapeChar := by
  unfold text
  rw [replaceAll_marks]
  induction value using lineFeeds.induct with
  | case1 rest ih =>
    rw [lineFeeds, List.flatMap_cons, List.flatMap_cons, List.flatMap_cons, ← ih,
      escapeMark_cons (.inl rfl), escapeMark_cons (.inr rfl)]
    rfl
  | case2 rest hrest ih =>
    rw [lineFeeds, List.flatMap_cons, List.flatMap_cons, ← ih, escapeMark_cons (.inl rfl),
      List.singleton_append, escapeBreaks, if_pos (.inl rfl)]
    · rfl
    · exact fun r _ heq => head_marks hrest r heq
    · exact hrest
  | case3 c rest hcrlf hcr ih =>
    rw [lineFeeds, List.flatMap_cons, List.flatMap_cons, ← ih]
    · by_cases hn : c = '\n'
      · subst hn
        rfl
      · rw [escapeBreaks_mark hcr hn, escapeChar, if_neg hn]
    · exact hcrlf
    · exact hcr
  | case4 => rfl

/-- The reader's side: a backslash and `n` are a line feed, and before any other character the
backslash goes. -/
def unescape : IcsText → IcsText
  | '\\' :: c :: rest => (if c = 'n' ∨ c = 'N' then '\n' else c) :: unescape rest
  | c :: rest => c :: unescape rest
  | [] => []

theorem unescape_escapeChar (c : Char) (rest : IcsText) :
    unescape (escapeChar c ++ rest) = c :: unescape rest := by
  unfold escapeChar escapeMark
  split
  next h => subst h; rfl
  next =>
    split
    next h => rcases h with rfl | rfl | rfl <;> rfl
    next h =>
      rw [List.singleton_append, unescape]
      rintro c' rest' rfl
      exact absurd (.inl rfl) h

theorem unescape_text (value : IcsText) : unescape (text value) = lineFeeds value := by
  rw [text_eq]
  induction lineFeeds value with
  | nil => rfl
  | cons c rest ih => rw [List.flatMap_cons, unescape_escapeChar, ih]

/-! ## Lines without breaks -/

theorem unbroken_of_digits {t : IcsText} (h : ∀ c ∈ t, c.isDigit = true) : Unbroken t := by
  intro c hc
  have hdigit := h c hc
  constructor
  · rintro rfl
    exact absurd hdigit (by decide)
  · rintro rfl
    exact absurd hdigit (by decide)

theorem unbroken_digits (n : ℕ) : Unbroken (Nat.toDigits 10 n) :=
  unbroken_of_digits fun _ => Nat.isDigit_of_mem_toDigits (by decide) (by decide)

theorem unbroken_padded (width n : ℕ) : Unbroken (padded width n) := by
  refine Unbroken.append (fun c hc => ?_) (unbroken_digits n)
  rw [List.eq_of_mem_replicate hc]
  decide

theorem unbroken_isoYear (year : ℤ) : Unbroken (isoYear year) := by
  unfold isoYear
  split
  next => exact unbroken_padded 4 _
  next =>
    refine unbroken_cons.2 ⟨?_, unbroken_padded 6 _⟩
    split <;> decide

theorem unbroken_wholeText (n : ℤ) : Unbroken (wholeText n) := by
  unfold wholeText
  split
  next => exact unbroken_cons.2 ⟨by decide, unbroken_digits _⟩
  next => exact unbroken_digits _

theorem unbroken_toISOString (t : ℤ) : Unbroken (toISOString t) := by
  have hpart : ∀ {text : IcsText} {c : Char} (width n : ℕ), c ≠ '\r' ∧ c ≠ '\n' → Unbroken text →
      Unbroken (text ++ c :: padded width n) :=
    fun width n hc h => h.append (unbroken_cons.2 ⟨hc, unbroken_padded width n⟩)
  unfold toISOString
  refine Unbroken.append ?_ (by decide)
  repeat apply hpart _ _ (by decide)
  exact unbroken_isoYear _

theorem mem_of_mem_dropMilliseconds {c : Char} {t : IcsText} (h : c ∈ dropMilliseconds t) : c ∈ t := by
  induction t using dropMilliseconds.induct with
  | case1 a b d rest hdigits =>
    rw [dropMilliseconds, if_pos hdigits] at h
    simp [h]
  | case2 a b d rest hdigits ih =>
    rw [dropMilliseconds, if_neg hdigits] at h
    rcases List.mem_cons.1 h with rfl | h
    · simp
    · exact List.mem_cons_of_mem _ (ih h)
  | case3 x rest hx ih =>
    rw [dropMilliseconds] at h
    · rcases List.mem_cons.1 h with rfl | h
      · simp
      · exact List.mem_cons_of_mem _ (ih h)
    · exact hx
  | case4 => cases h

theorem unbroken_stamp (d : ℤ) : Unbroken (stamp d) :=
  (unbroken_toISOString d).mono fun _ hc =>
    List.mem_of_mem_filter (mem_of_mem_dropMilliseconds hc)

theorem ne_cr_of_mem_lineFeeds {value : IcsText} : ∀ c ∈ lineFeeds value, c ≠ '\r' := by
  induction value using lineFeeds.induct with
  | case1 rest ih =>
    rw [lineFeeds]
    exact List.forall_mem_cons.2 ⟨by decide, ih⟩
  | case2 rest hrest ih =>
    rw [lineFeeds]
    · exact List.forall_mem_cons.2 ⟨by decide, ih⟩
    · exact hrest
  | case3 c rest hcrlf hcr ih =>
    rw [lineFeeds]
    · exact List.forall_mem_cons.2 ⟨hcr, ih⟩
    · exact hcrlf
    · exact hcr
  | case4 => simp [lineFeeds]

theorem unbroken_text (value : IcsText) : Unbroken (text value) := by
  rw [text_eq]
  intro x hx
  obtain ⟨c, hc, hmem⟩ := List.mem_flatMap.1 hx
  have hcr := ne_cr_of_mem_lineFeeds c hc
  have hescape : ∀ {y z : Char}, y ∈ ['\\', z] → z ≠ '\r' → z ≠ '\n' → y ≠ '\r' ∧ y ≠ '\n' := by
    intro y z hy hz hz'
    simp only [List.mem_cons, List.not_mem_nil, or_false] at hy
    rcases hy with rfl | rfl
    · decide
    · exact ⟨hz, hz'⟩
  unfold escapeChar escapeMark at hmem
  split at hmem
  next => exact hescape hmem (by decide) (by decide)
  next hn =>
    split at hmem
    next => exact hescape hmem hcr hn
    next =>
      rw [List.mem_singleton.1 hmem]
      exact ⟨hcr, hn⟩

theorem mem_of_mem_trimmed {c : Char} {value : IcsText} (h : c ∈ trimmed value) : c ∈ value := by
  unfold trimmed at h
  have hback := (List.dropWhile_sublist _).subset (List.mem_reverse.1 h)
  exact (List.dropWhile_sublist _).subset (List.mem_reverse.1 hback)

theorem unbroken_paramValue (value : IcsText) : Unbroken (paramValue value) := by
  unfold paramValue
  refine Unbroken.append (unbroken_cons.2 ⟨by decide, fun c hc => ?_⟩) (by decide)
  obtain ⟨x, -, rfl⟩ := List.mem_map.1 (mem_of_mem_trimmed hc)
  split
  next => decide
  next h =>
    simp only [List.mem_cons, List.not_mem_nil, or_false, not_or] at h
    exact h.2

/-- A content line begins with no space and has no break. -/
def ContentLine (line : IcsText) : Prop := Unbroken line ∧ line ≠ [] ∧ line.head? ≠ some ' '

instance (line : IcsText) : Decidable (ContentLine line) :=
  inferInstanceAs (Decidable (_ ∧ _ ∧ _))

/-- A name that is a content line, with a value after it. -/
theorem ContentLine.append {name value : IcsText} (hname : ContentLine name)
    (hvalue : Unbroken value) : ContentLine (name ++ value) := by
  obtain ⟨hunbroken, hne, hhead⟩ := hname
  refine ⟨hunbroken.append hvalue, by simp [hne], ?_⟩
  rwa [List.head?_append_of_ne_nil _ hne]

theorem head_fold_ne {line : IcsText} (h : ContentLine line) :
    (joinParts (lineParts line)).head? ≠ some ' ' := by
  obtain ⟨-, hne, hhead⟩ := h
  cases line with
  | nil => exact absurd rfl hne
  | cons c line =>
    rw [← fold, head_fold]
    exact hhead

/-- The parts of an event that stand in it as they are have no breaks. -/
structure IcsEvent.Plain (e : IcsEvent) : Prop where
  uid : Unbroken e.uid
  url : ∀ u ∈ e.url, Unbroken u
  organizer : ∀ p ∈ e.organizer, Unbroken p.email
  attendee : ∀ p ∈ e.attendee, Unbroken p.email

/-- The lines of a value that may be missing. -/
theorem contentLine_map {α : Type*} {value : Option α} {line : α → IcsText}
    (h : ∀ v ∈ value, ContentLine (line v)) : ∀ l ∈ value.toList.map line, ContentLine l := by
  intro l hl
  obtain ⟨v, hv, rfl⟩ := List.mem_map.1 hl
  exact h v (Option.mem_toList.1 hv)

theorem contentLine_event {e : IcsEvent} (h : e.Plain) (now : ℤ) :
    ∀ line ∈ eventLines e now, ContentLine line := by
  have hfilled : ∀ {value : Option IcsText} {v : IcsText}, v ∈ filled value → v ∈ value :=
    fun hv => (Option.mem_filter_iff.1 hv).1
  unfold eventLines
  simp only [List.forall_mem_append, List.forall_mem_cons, List.not_mem_nil, IsEmpty.forall_iff,
    implies_true, and_true]
  refine ⟨⟨⟨⟨⟨⟨⟨⟨?begin, ?uid, ?stamp, ?start, ?finish, ?summary⟩, ?description⟩, ?location⟩, ?url⟩,
    ?organizer⟩, ?attendee⟩, ?updated⟩, ?sequence, ?status, ?close⟩
  case begin => decide
  case uid => exact .append (by decide) h.uid
  case stamp => exact .append (by decide) (unbroken_stamp now)
  case start => exact .append (by decide) (unbroken_stamp e.start)
  case finish => exact .append (by decide) (unbroken_stamp e.finish)
  case summary => exact .append (by decide) (unbroken_text e.summary)
  case description => exact contentLine_map fun v _ => .append (by decide) (unbroken_text v)
  case location => exact contentLine_map fun v _ => .append (by decide) (unbroken_text v)
  case url => exact contentLine_map fun v hv => .append (by decide) (h.url v (hfilled hv))
  case organizer =>
    exact contentLine_map fun p hp => .append (by decide)
      ((unbroken_paramValue p.name).append (.append (by decide) (h.organizer p hp)))
  case attendee =>
    exact contentLine_map fun p hp => .append (by decide)
      ((unbroken_paramValue p.name).append (.append (by decide) (h.attendee p hp)))
  case updated => exact contentLine_map fun t _ => .append (by decide) (unbroken_stamp t)
  case sequence => exact .append (by decide) (unbroken_wholeText _)
  case status => cases e.cancelled <;> decide
  case close => decide

theorem contentLine_head (opts : IcsOptions) : ∀ line ∈ headLines opts, ContentLine line := by
  have hflat : ∀ {α : Type} {value : Option α} {lines : α → List IcsText},
      (∀ v, ∀ l ∈ lines v, ContentLine l) → ∀ l ∈ value.toList.flatMap lines, ContentLine l := by
    intro α value lines h l hl
    obtain ⟨v, -, hmem⟩ := List.mem_flatMap.1 hl
    exact h v l hmem
  have hhours : ∀ hours, Unbroken (wholeText hours ++ ['H']) :=
    fun hours => (unbroken_wholeText hours).append (by decide)
  unfold headLines
  refine List.forall_mem_append.2 ⟨List.forall_mem_append.2 ⟨?_, hflat fun name => ?_⟩,
    hflat fun hours => ?_⟩
  · simp only [List.forall_mem_cons, List.not_mem_nil, IsEmpty.forall_iff,
    implies_true, and_true]
    refine ⟨by decide, by decide, by decide, by decide, ?_⟩
    cases opts.method.getD .publish <;> decide
  · simp only [List.forall_mem_cons, List.not_mem_nil, IsEmpty.forall_iff,
    implies_true, and_true]
    exact ⟨.append (by decide) (unbroken_text name), .append (by decide) (unbroken_text name)⟩
  · simp only [List.forall_mem_cons, List.not_mem_nil, IsEmpty.forall_iff,
    implies_true, and_true]
    exact ⟨.append (by decide) (hhours hours), .append (by decide) (hhours hours)⟩

theorem contentLine_calendar {events : List IcsEvent} (h : ∀ e ∈ events, e.Plain)
    (opts : IcsOptions) (now : ℤ) :
    ∀ line ∈ calendarLines events opts now, ContentLine line := by
  unfold calendarLines
  refine List.forall_mem_append.2 ⟨List.forall_mem_append.2 ⟨contentLine_head opts, ?_⟩, by decide⟩
  intro line hline
  obtain ⟨e, he, hmem⟩ := List.mem_flatMap.1 hline
  exact contentLine_event (h e he) now line hmem

/-! ## What is read back -/

/-- What follows a name at the start of a line. -/
def afterName : IcsText → IcsText → Option IcsText
  | c :: name, d :: line => if c = d then afterName name line else none
  | [], line => some line
  | _ :: _, [] => none

/-- The values of a property, in the order of their lines. -/
def propertyValues (name calendar : IcsText) : List IcsText :=
  (linesOf (unfold calendar)).filterMap (afterName name)

section Values

variable {α : Type*} {value : Option α} {line : α → IcsText} {name : IcsText}

theorem values_none (h : ∀ v, afterName name (line v) = none) :
    (value.toList.map line).filterMap (afterName name) = [] := by
  cases value with
  | none => rfl
  | some v => simp [h v]

theorem values_some {read : α → IcsText} (h : ∀ v, afterName name (line v) = some (read v)) :
    (value.toList.map line).filterMap (afterName name) = value.toList.map read := by
  cases value with
  | none => rfl
  | some v => simp [h v]

/-- Lines without a value of the property change nothing, after or before the others. -/
theorem values_skip {a b x : List IcsText} (ha : a.filterMap (afterName name) = x)
    (hb : b.filterMap (afterName name) = []) : (a ++ b).filterMap (afterName name) = x := by
  rw [List.filterMap_append, ha, hb, List.append_nil]

theorem values_after {a b x : List IcsText} (ha : a.filterMap (afterName name) = [])
    (hb : b.filterMap (afterName name) = x) : (a ++ b).filterMap (afterName name) = x := by
  rw [List.filterMap_append, ha, hb, List.nil_append]

end Values

section Properties

variable (e : IcsEvent) (now : ℤ) (opts : IcsOptions)

/-- Of the lines of an event, one is of its summary. -/
theorem summary_event :
    (eventLines e now).filterMap (afterName "SUMMARY:".toList) = [text e.summary] := by
  unfold eventLines
  refine values_skip ?_ rfl
  iterate 6 refine values_skip ?_ (values_none fun _ => rfl)
  rfl

theorem description_event : (eventLines e now).filterMap (afterName "DESCRIPTION:".toList) =
    (filled e.description).toList.map text := by
  unfold eventLines
  refine values_skip ?_ rfl
  iterate 5 refine values_skip ?_ (values_none fun _ => rfl)
  exact values_after rfl (values_some fun _ => rfl)

theorem location_event : (eventLines e now).filterMap (afterName "LOCATION:".toList) =
    (filled e.location).toList.map text := by
  unfold eventLines
  refine values_skip ?_ rfl
  iterate 4 refine values_skip ?_ (values_none fun _ => rfl)
  exact values_after (values_skip rfl (values_none fun _ => rfl)) (values_some fun _ => rfl)

theorem values_pairs {α : Type} {value : Option α} {line line' : α → IcsText} {name : IcsText}
    (h : ∀ v, afterName name (line v) = none) (h' : ∀ v, afterName name (line' v) = none) :
    (value.toList.flatMap fun v => [line v, line' v]).filterMap (afterName name) = [] := by
  cases value with
  | none => rfl
  | some v => simp [h v, h' v]

theorem summary_head : (headLines opts).filterMap (afterName "SUMMARY:".toList) = [] := by
  unfold headLines
  exact values_skip (values_skip rfl (values_pairs (fun _ => rfl) fun _ => rfl))
    (values_pairs (fun _ => rfl) fun _ => rfl)

theorem description_head : (headLines opts).filterMap (afterName "DESCRIPTION:".toList) = [] := by
  unfold headLines
  exact values_skip (values_skip rfl (values_pairs (fun _ => rfl) fun _ => rfl))
    (values_pairs (fun _ => rfl) fun _ => rfl)

theorem location_head : (headLines opts).filterMap (afterName "LOCATION:".toList) = [] := by
  unfold headLines
  exact values_skip (values_skip rfl (values_pairs (fun _ => rfl) fun _ => rfl))
    (values_pairs (fun _ => rfl) fun _ => rfl)

end Properties

/-- What a reader gets from a calendar of events that was written from lines. -/
structure WellFormed (events : List IcsEvent) (lines : List IcsText) (calendar : IcsText) : Prop where
  short : ∀ line ∈ linesOf calendar, octets line ≤ 75
  unfolded : linesOf (unfold calendar) = lines ++ [[]]
  summary : (propertyValues "SUMMARY:".toList calendar).map unescape =
    events.map (lineFeeds ·.summary)
  description : (propertyValues "DESCRIPTION:".toList calendar).map unescape =
    events.flatMap fun e => (filled e.description).toList.map lineFeeds
  location : (propertyValues "LOCATION:".toList calendar).map unescape =
    events.flatMap fun e => (filled e.location).toList.map lineFeeds

section Calendar

variable {events : List IcsEvent} (h : ∀ e ∈ events, e.Plain) (opts : IcsOptions) (now : ℤ)

theorem buildCalendar_eq : buildCalendar events opts now =
    ended (((calendarLines events opts now).map lineParts).map joinParts) := by
  rw [List.map_map]
  exact intercalate_crlf (by simp [calendarLines])

include h

theorem parts_unbroken : ∀ parts ∈ (calendarLines events opts now).map lineParts,
    parts ≠ [] ∧ ∀ part ∈ parts, Unbroken part := by
  intro parts hparts
  obtain ⟨line, hline, rfl⟩ := List.mem_map.1 hparts
  exact ⟨lineParts_ne_nil line,
    lineParts_unbroken (contentLine_calendar h opts now line hline).1⟩

theorem calendar_short : ∀ line ∈ linesOf (buildCalendar events opts now), octets line ≤ 75 := by
  rw [buildCalendar_eq, linesOf_folded (parts_unbroken h opts now)]
  intro p hp
  rcases List.mem_append.1 hp with hp | hp
  · obtain ⟨parts, hparts, hphysical⟩ := List.mem_flatMap.1 hp
    obtain ⟨line, -, rfl⟩ := List.mem_map.1 hparts
    exact octets_physical hphysical
  · rw [List.mem_singleton.1 hp]
    decide

theorem calendar_unfolded : linesOf (unfold (buildCalendar events opts now)) =
    calendarLines events opts now ++ [[]] := by
  have hflatten : ((calendarLines events opts now).map lineParts).map List.flatten =
      calendarLines events opts now := by
    rw [List.map_map]
    exact List.map_id'' lineParts_flatten _
  rw [buildCalendar_eq, linesOf_unfold (fun parts hp => (parts_unbroken h opts now parts hp).2) ?_,
    hflatten]
  intro parts hparts
  obtain ⟨line, hline, rfl⟩ := List.mem_map.1 hparts
  exact head_fold_ne (contentLine_calendar h opts now line hline)

/-- The values of a property that only the lines of events have. -/
theorem propertyValues_calendar {name : IcsText} {value : IcsEvent → List IcsText}
    (hhead : (headLines opts).filterMap (afterName name) = [])
    (hevent : ∀ e, (eventLines e now).filterMap (afterName name) = (value e).map text)
    (hlast : ["END:VCALENDAR".toList, []].filterMap (afterName name) = []) :
    (propertyValues name (buildCalendar events opts now)).map unescape =
      events.flatMap fun e => (value e).map lineFeeds := by
  have hlines : (calendarLines events opts now ++ [[]]).filterMap (afterName name) =
      events.flatMap fun e => (value e).map text := by
    unfold calendarLines
    rw [List.append_assoc]
    refine values_skip (values_after hhead ?_) hlast
    rw [List.filterMap_flatMap]
    exact List.flatMap_congr fun e _ => hevent e
  rw [propertyValues, calendar_unfolded h, hlines, List.map_flatMap]
  refine List.flatMap_congr fun e _ => ?_
  rw [List.map_map]
  exact List.map_congr_left fun v _ => unescape_text v

end Calendar

/-- Calendars are well formed, whatever the texts of their events. -/
theorem calendar_wellFormed {events : List IcsEvent} (h : ∀ e ∈ events, e.Plain)
    (opts : IcsOptions) (now : ℤ) : WellFormed events (calendarLines events opts now)
      (buildCalendar events opts now) where
  short := calendar_short h opts now
  unfolded := calendar_unfolded h opts now
  summary := by
    have hone : events.map (lineFeeds ·.summary) =
        events.flatMap fun e => [e.summary].map lineFeeds := List.map_eq_flatMap
    rw [hone]
    exact propertyValues_calendar h opts now (summary_head opts) (summary_event · now) rfl
  description := propertyValues_calendar h opts now (description_head opts)
    (description_event · now) rfl
  location := propertyValues_calendar h opts now (location_head opts) (location_event · now) rfl

/-- An event whose texts have breaks, marks and characters of several octets. -/
def cutAndShave : IcsEvent where
  uid := "a7@barbershop".toList
  start := 1790263800000
  finish := 1790265600000
  summary := "Corte, barba; sobrancelha\\n\r\nBEGIN:VEVENT\r Avaliação às quinze horas e trinta minutos ✂️".toList
  description := some "\r\nSUMMARY:outro".toList
  location := some "Rua Augusta, 100".toList
  url := none
  sequence := none
  cancelled := false
  updatedAt := none
  organizer := some { name := "Barbearia \"do Zé\"".toList, email := "ze@barbershop".toList }
  attendee := none

theorem cutAndShave_wellFormed :
    WellFormed [cutAndShave] (calendarLines [cutAndShave] ⟨none, none, some 1⟩ 1790000000000)
      (buildCalendar [cutAndShave] ⟨none, none, some 1⟩ 1790000000000) := by
  refine calendar_wellFormed ?_ ⟨none, none, some 1⟩ 1790000000000
  rw [List.forall_mem_singleton]
  refine ⟨by decide +kernel, fun u hu => ?_, fun p hp => ?_, fun p hp => ?_⟩
  · cases hu
  · cases hp
    decide +kernel
  · cases hp

end Barbershop
