import Mathlib.Data.List.TakeWhile
import Barbershop.Import.Cells

/-!
# Amounts of an imported sheet

`money` takes the amount of a cell. The amount comes back from every way of writing it that is not
ambiguous exactly when the last mark of the text stands there once, or the marks are points that group
the digits by threes (`money_reads_iff`).
-/

namespace Barbershop

/-! ## Ways of writing an amount -/

inductive DecimalMark where
  | comma | point
  deriving DecidableEq

def DecimalMark.char : DecimalMark → Char
  | comma => ','
  | point => '.'

/-- The mark that groups thousands is the other one. -/
def DecimalMark.grouping : DecimalMark → Char
  | comma => '.'
  | point => ','

def isMark (c : Char) : Bool := c == ',' || c == '.'

/-- A non-negative amount as it is written: a currency symbol with spaces, the first digits, groups of
three and two decimals; groups and decimals may be missing. -/
structure AmountText where
  symbol : SheetText
  first : SheetText
  groups : List SheetText
  decimals : Option SheetText
  mark : DecimalMark
  symbol_free : ∀ c ∈ symbol, isDigit c = false ∧ c ≠ '-'
  first_digits : first ≠ [] ∧ ∀ c ∈ first, isDigit c = true
  first_short : groups ≠ [] → first.length ≤ 3
  groups_of_three : ∀ g ∈ groups, g.length = 3 ∧ ∀ c ∈ g, isDigit c = true
  two_decimals : ∀ d ∈ decimals, d.length = 2 ∧ ∀ c ∈ d, isDigit c = true

namespace AmountText

variable (w : AmountText)

/-- The number without its decimals. -/
def grouped : SheetText := [w.mark.grouping].intercalate (w.first :: w.groups)

def text : SheetText :=
  w.symbol ++ w.grouped ++ w.decimals.elim [] (w.mark.char :: ·)

/-- The digits of the cents that are written. -/
def amount : ℚ :=
  (digitsValue (w.first ++ w.groups.flatten ++ w.decimals.getD ['0', '0']) : ℚ) / 100

/-- Both marks are written, or one is repeated, or the last group has two digits. -/
def Unambiguous : Prop :=
  (w.groups ≠ [] ∧ w.decimals ≠ none) ∨ (2 ≤ w.groups.length ∧ w.decimals = none) ∨
    w.decimals ≠ none

/-- The only marks are points between the groups. -/
def PointsGroup : Prop :=
  (∀ c ∈ w.symbol, isMark c = false) ∧ w.groups ≠ [] ∧ w.decimals = none ∧ w.mark = .comma

/-- The last mark of the text stands there once, if there is one. -/
def LastMarkOnce : Prop :=
  ∀ m ∈ (w.text.filter isMark).getLast?, (w.text.filter isMark).count m = 1

end AmountText

/-! ## Digits -/

theorem digitsValue_append (a b : SheetText) :
    digitsValue (a ++ b) = digitsValue a * 10 ^ b.length + digitsValue b := by
  have hfold : ∀ n, b.foldl (fun n c => 10 * n + (c.toNat - '0'.toNat)) n =
      n * 10 ^ b.length + digitsValue b := by
    unfold digitsValue
    induction b with
    | nil => simp
    | cons c b ih =>
      intro n
      rw [List.foldl_cons, List.foldl_cons, ih, ih (10 * 0 + _), List.length_cons]
      ring
  unfold digitsValue at hfold ⊢
  rw [List.foldl_append, hfold]

theorem ne_minus_of_isDigit {c : Char} (h : isDigit c = true) : c ≠ '-' := by
  rintro rfl
  exact absurd h (by decide)

theorem takeWhile_digits {a b : SheetText} (ha : ∀ c ∈ a, isDigit c = true)
    (hb : ∀ c ∈ b.head?, isDigit c = false) : (a ++ b).takeWhile isDigit = a := by
  rw [List.takeWhile_append_of_pos ha]
  cases b with
  | nil => simp
  | cons c b => simp [hb c rfl]

theorem dropWhile_digits {a b : SheetText} (ha : ∀ c ∈ a, isDigit c = true)
    (hb : ∀ c ∈ b.head?, isDigit c = false) : (a ++ b).dropWhile isDigit = b := by
  rw [List.dropWhile_append_of_pos ha]
  cases b with
  | nil => simp
  | cons c b => simp [hb c rfl]

theorem decimalValue_digits {a : SheetText} (ha : ∀ c ∈ a, isDigit c = true) (hne : a ≠ []) :
    decimalValue a = some (digitsValue a : ℚ) := by
  have hwhole := takeWhile_digits (b := []) ha (by simp)
  have hrest := dropWhile_digits (b := []) ha (by simp)
  rw [List.append_nil] at hwhole hrest
  have hsign : ¬ a.head? = some '-' := by
    intro h
    exact ne_minus_of_isDigit (ha _ (List.mem_of_mem_head? h)) rfl
  simp [decimalValue, hsign, hwhole, hrest, hne]

/-- With a point after the first digits, the rest has to be digits. -/
theorem decimalValue_point {a b : SheetText} (ha : ∀ c ∈ a, isDigit c = true)
    (hne : a ++ b ≠ []) : decimalValue (a ++ '.' :: b) =
      if b.all isDigit then some ((digitsValue (a ++ b) : ℚ) / 10 ^ b.length) else none := by
  have hwhole := takeWhile_digits (b := '.' :: b) ha (by simp [isDigit])
  have hrest := dropWhile_digits (b := '.' :: b) ha (by simp [isDigit])
  have hsign : ¬ (a ++ '.' :: b).head? = some '-' := by
    cases a with
    | nil => simp
    | cons c a =>
      intro h
      exact ne_minus_of_isDigit (ha c (by simp)) (Option.some.inj h)
  unfold decimalValue
  dsimp only
  rw [if_neg hsign, hwhole, hrest, if_neg hsign, if_neg (by simp), List.head?_cons, List.tail_cons]
  refine if_congr ?_ rfl rfl
  simp only [reduceCtorEq, false_or, true_and]
  exact and_iff_left hne

/-! ## Marks -/

theorem isMark_iff {c : Char} : isMark c = true ↔ c = ',' ∨ c = '.' := by
  simp [isMark]

theorem isDigit_of_isMark {c : Char} (h : isMark c = true) : isDigit c = false := by
  rcases isMark_iff.1 h with rfl | rfl <;> decide

/-- A text of digits and marks. -/
def DigitsAndMarks (a : SheetText) : Prop := ∀ c ∈ a, isDigit c = true ∨ isMark c = true

/-- Without one mark and with the other replaced, digits stay around a single mark. -/
theorem replaceFirstComma_append {a b : SheetText} (ha : ',' ∉ a) :
    replaceFirstComma (a ++ ',' :: b) = a ++ '.' :: b := by
  induction a with
  | nil => rfl
  | cons c a ih =>
    rw [List.mem_cons, not_or] at ha
    rw [List.cons_append, replaceFirstComma, if_neg (Ne.symm ha.1), ih ha.2, List.cons_append]

/-- A mark that stands in a text of digits and of it stands after the first digits. -/
theorem exists_first_mark {a : SheetText} {m : Char} (ha : ∀ c ∈ a, isDigit c = true ∨ c = m)
    (hmem : m ∈ a) : ∃ b c, a = b ++ m :: c ∧ m ∉ b ∧ ∀ x ∈ b, isDigit x = true := by
  obtain ⟨b, c, rfl, hb⟩ := List.eq_append_cons_of_mem hmem
  refine ⟨b, c, rfl, hb, fun x hx => ?_⟩
  rcases ha x (List.mem_append_left _ hx) with h | rfl
  · exact h
  · exact absurd hx hb

theorem digits_of_not_mem {a : SheetText} {m : Char} (ha : ∀ c ∈ a, isDigit c = true ∨ c = m)
    (hmem : m ∉ a) : ∀ x ∈ a, isDigit x = true := by
  intro x hx
  rcases ha x hx with h | rfl
  · exact h
  · exact absurd hx hmem

/-- With the first mark made a point, a second one is no number. -/
theorem decimalValue_two_marks {b c d : SheetText} {m : Char} (hb : ∀ x ∈ b, isDigit x = true)
    (hm : isMark m = true) : decimalValue (b ++ '.' :: (c ++ m :: d)) = none := by
  rw [decimalValue_point hb (by simp), if_neg]
  intro hall
  have hdigit := List.all_eq_true.1 hall m (by simp)
  rw [isDigit_of_isMark hm] at hdigit
  cases hdigit

/-- With a point after it, a text of digits and points is a number when it has no point. -/
theorem decimalValue_last_point {a b : SheetText} (ha : ∀ c ∈ a, isDigit c = true ∨ c = '.')
    (hb : ∀ c ∈ b, isDigit c = true) (hne : b ≠ []) : decimalValue (a ++ '.' :: b) =
      if '.' ∈ a then none else some ((digitsValue (a ++ b) : ℚ) / 10 ^ b.length) := by
  by_cases hmem : '.' ∈ a
  · obtain ⟨x, y, rfl, -, hx⟩ := exists_first_mark ha hmem
    rw [if_pos hmem, List.append_assoc, List.cons_append]
    exact decimalValue_two_marks hx (by decide)
  · rw [if_neg hmem, decimalValue_point (digits_of_not_mem ha hmem) (by simp [hne]),
      if_pos (List.all_eq_true.2 hb)]

/-- The same for commas, of which the first is made a point. -/
theorem decimalValue_last_comma {a b : SheetText} (ha : ∀ c ∈ a, isDigit c = true ∨ c = ',')
    (hb : ∀ c ∈ b, isDigit c = true) (hne : b ≠ []) :
    decimalValue (replaceFirstComma (a ++ ',' :: b)) =
      if ',' ∈ a then none else some ((digitsValue (a ++ b) : ℚ) / 10 ^ b.length) := by
  by_cases hmem : ',' ∈ a
  · obtain ⟨x, y, rfl, hfree, hx⟩ := exists_first_mark ha hmem
    rw [if_pos hmem, List.append_assoc, List.cons_append, replaceFirstComma_append hfree]
    exact decimalValue_two_marks hx (by decide)
  · rw [if_neg hmem, replaceFirstComma_append hmem,
      decimalValue_point (digits_of_not_mem ha hmem) (by simp [hne]),
      if_pos (List.all_eq_true.2 hb)]

/-! ## The number of a cleaned text -/

/-- What `money` keeps of a text. -/
def isAmountChar (c : Char) : Bool := isDigit c || c == ',' || c == '.' || c == '-'

/-- Without the other mark, a text of digits and marks is one of digits and one mark. -/
theorem filter_other {a : SheetText} {m n : Char} (ha : DigitsAndMarks a)
    (hother : ∀ c, isMark c = true → c = m ∨ c = n) :
    ∀ c ∈ a.filter (· != n), isDigit c = true ∨ c = m := by
  intro c hc
  rw [List.mem_filter, bne_iff_ne] at hc
  rcases ha c hc.1 with h | h
  · exact .inl h
  · exact .inr ((hother c h).resolve_right hc.2)

/-- The digits of a text whose other mark is out and in which the mark does not stand. -/
theorem filter_isDigit_of_not_mem {a : SheetText} {m n : Char} (ha : DigitsAndMarks a)
    (hm : m ∉ a) (hother : ∀ c, isMark c = true → c = m ∨ c = n) (hn : isDigit n = false) :
    a.filter (· != n) = a.filter isDigit := by
  refine List.filter_congr fun c hc => ?_
  rcases ha c hc with h | h
  · rw [h]
    refine bne_iff_ne.2 ?_
    rintro rfl
    rw [hn] at h
    cases h
  · rcases hother c h with rfl | rfl
    · exact absurd hc hm
    · simp [isDigit_of_isMark h]

theorem mem_filter_other {a : SheetText} {m n : Char} (h : m ≠ n) :
    m ∈ a.filter (· != n) ↔ m ∈ a := by
  simp [List.mem_filter, h]

theorem isBlank_of_isAmountChar {c : Char} (h : isAmountChar c = true) : isBlank c = false := by
  simp only [isAmountChar, isDigit, Bool.or_eq_true, Bool.and_eq_true, decide_eq_true_eq,
    beq_iff_eq, Char.le_def, UInt32.le_iff_toNat_le] at h
  have hcode : c.toNat = c.val.toNat := rfl
  simp only [isBlank, Bool.or_eq_false_iff, Bool.and_eq_false_iff, decide_eq_false_iff_not,
    beq_eq_false_iff_ne, hcode]
  rcases h with ((⟨h₀, h₉⟩ | rfl) | rfl) | rfl
  · have h₀' : 48 ≤ c.val.toNat := h₀
    have h₉' : c.val.toNat ≤ 57 := h₉
    omega
  all_goals decide

theorem filter_dropWhile_blank (l : SheetText) :
    (l.dropWhile isBlank).filter isAmountChar = l.filter isAmountChar := by
  have hnone : (l.takeWhile isBlank).filter isAmountChar = [] := by
    refine List.filter_eq_nil_iff.2 fun c hc hp => ?_
    have hblank := List.mem_takeWhile_imp hc
    rw [isBlank_of_isAmountChar hp] at hblank
    cases hblank
  calc (l.dropWhile isBlank).filter isAmountChar
      = (l.takeWhile isBlank).filter isAmountChar ++ (l.dropWhile isBlank).filter isAmountChar := by
        rw [hnone, List.nil_append]
    _ = l.filter isAmountChar := by rw [← List.filter_append, List.takeWhile_append_dropWhile]

theorem filter_trimmed (value : SheetText) :
    (trimmed value).filter isAmountChar = value.filter isAmountChar := by
  rw [trimmed, List.filter_reverse, filter_dropWhile_blank, List.filter_reverse,
    List.reverse_reverse, filter_dropWhile_blank]

theorem not_mem_digits {b : SheetText} {m : Char} (hm : isMark m = true)
    (hb : ∀ c ∈ b, isDigit c = true) : m ∉ b := by
  intro h
  have hdigit := hb m h
  rw [isDigit_of_isMark hm] at hdigit
  cases hdigit

/-- The last mark of a text with digits after it. -/
theorem find_lastMark {a b : SheetText} {m : Char} (hm : isMark m = true)
    (hb : ∀ c ∈ b, isDigit c = true) :
    ((a ++ m :: b).reverse.find? fun c => c == ',' || c == '.') = some m := by
  have hnone : (b.reverse.find? fun c => c == ',' || c == '.') = none := by
    refine List.find?_eq_none.2 fun c hc hmark => ?_
    exact not_mem_digits hmark hb (List.mem_reverse.1 hc)
  have hreverse : (a ++ m :: b).reverse = b.reverse ++ m :: a.reverse := by simp
  rw [hreverse, List.find?_append, hnone, Option.none_or]
  exact List.find?_cons_of_pos hm

section Split

variable {a b : SheetText} (ha : DigitsAndMarks a) (hb : ∀ c ∈ b, isDigit c = true) (hne : b ≠ [])

include ha hb hne

/-- With the points out, the first comma is the decimal mark. -/
theorem read_lastComma :
    (decimalValue (replaceFirstComma (a.filter (· != '.') ++ ',' :: b))).getD 0 =
      if ',' ∈ a then 0 else (digitsValue (a.filter isDigit ++ b) : ℚ) / 10 ^ b.length := by
  have hother : ∀ c, isMark c = true → c = ',' ∨ c = '.' := fun c => isMark_iff.1
  rw [decimalValue_last_comma (filter_other ha hother) hb hne]
  by_cases hmem : ',' ∈ a
  · rw [if_pos hmem, if_pos ((mem_filter_other (by decide)).2 hmem), Option.getD_none]
  · rw [if_neg hmem, if_neg (hmem ∘ (mem_filter_other (by decide)).1), Option.getD_some,
      filter_isDigit_of_not_mem ha hmem hother (by decide)]

theorem read_lastPoint :
    (decimalValue (a.filter (· != ',') ++ '.' :: b)).getD 0 =
      if '.' ∈ a then 0 else (digitsValue (a.filter isDigit ++ b) : ℚ) / 10 ^ b.length := by
  have hother : ∀ c, isMark c = true → c = '.' ∨ c = ',' := fun c h => (isMark_iff.1 h).symm
  rw [decimalValue_last_point (filter_other ha hother) hb hne]
  by_cases hmem : '.' ∈ a
  · rw [if_pos hmem, if_pos ((mem_filter_other (by decide)).2 hmem), Option.getD_none]
  · rw [if_neg hmem, if_neg (hmem ∘ (mem_filter_other (by decide)).1), Option.getD_some,
      filter_isDigit_of_not_mem ha hmem hother (by decide)]

end Split

theorem filter_ne_of_not_mem {a : SheetText} {n : Char} (h : n ∉ a) : a.filter (· != n) = a := by
  refine List.filter_eq_self.2 fun c hc => bne_iff_ne.2 ?_
  rintro rfl
  exact h hc

/-- A cleaned text of digits and marks with digits after its last mark, not taken for thousands: the
amount is read exactly when that mark stands there once. -/
theorem sheetMoney_lastMark {value a b : SheetText} {m : Char}
    (hvalue : value.filter isAmountChar = a ++ m :: b) (ha : DigitsAndMarks a)
    (hm : isMark m = true) (hb : ∀ c ∈ b, isDigit c = true) (hne : b ≠ [])
    (hthousands : m = '.' → isThousands (a ++ m :: b) = false) : sheetMoney value =
      if m ∈ a then 0 else (digitsValue (a.filter isDigit ++ b) : ℚ) / 10 ^ b.length := by
  have hcomma : ',' ∉ b := not_mem_digits (by decide) hb
  have hpoint : '.' ∉ b := not_mem_digits (by decide) hb
  have hcleaned := (filter_trimmed value).trans hvalue
  have hlast := find_lastMark (a := a) hm hb
  unfold sheetMoney
  unfold isAmountChar at hcleaned
  simp only [hcleaned]
  rw [if_neg (by simp), hlast]
  rcases isMark_iff.1 hm with rfl | rfl
  · rw [← read_lastComma ha hb hne]
    by_cases hboth : '.' ∈ a
    · rw [if_pos ⟨by simp, by simp [hboth]⟩, if_pos rfl, List.filter_append,
        List.filter_cons_of_pos (by decide), filter_ne_of_not_mem hpoint]
    · rw [if_neg fun h => by simp [hboth, hpoint] at h, if_pos (by simp),
        filter_ne_of_not_mem hboth]
  · rw [← read_lastPoint ha hb hne]
    by_cases hboth : ',' ∈ a
    · rw [if_pos ⟨by simp [hboth], by simp⟩, if_neg (by decide), List.filter_append,
        List.filter_cons_of_pos (by decide), filter_ne_of_not_mem hcomma]
    · have hno : ',' ∉ a ++ '.' :: b := by simp [hboth, hcomma]
      rw [if_neg fun h => hno h.1, if_neg hno, hthousands rfl, if_neg (by decide),
        filter_ne_of_not_mem hboth]

/-! ## Thousands -/

/-- Each group but the first has three digits. -/
theorem isThousands_iff {text : SheetText} : isThousands text = true ↔
    ∃ first rest, text.splitOn '.' = first :: rest ∧ rest ≠ [] ∧
      (1 ≤ first.length ∧ first.length ≤ 3) ∧ (∀ c ∈ first, isDigit c = true) ∧
        ∀ g ∈ rest, g.length = 3 ∧ ∀ c ∈ g, isDigit c = true := by
  unfold isThousands
  constructor
  · intro h
    split at h
    next first second rest hsplit =>
      simp only [Bool.and_eq_true, decide_eq_true_eq, List.all_eq_true, beq_iff_eq] at h
      exact ⟨first, second :: rest, hsplit, by simp, h.1.1, h.1.2, h.2⟩
    next => cases h
  · rintro ⟨first, rest, hsplit, hne, hlength, hfirst, hrest⟩
    rw [hsplit]
    cases rest with
    | nil => exact absurd rfl hne
    | cons second rest =>
      simp only [Bool.and_eq_true, decide_eq_true_eq, List.all_eq_true, beq_iff_eq]
      exact ⟨⟨hlength, hfirst⟩, hrest⟩

theorem isThousands_of_last {a b : SheetText} (hb : b.length ≠ 3) (hfree : '.' ∉ b) :
    isThousands (a ++ '.' :: b) = false := by
  rw [Bool.eq_false_iff, Ne, isThousands_iff]
  rintro ⟨first, rest, hsplit, hne, -, -, hrest⟩
  rw [List.splitOn_append_cons_self, List.splitOn_eq_singleton hfree] at hsplit
  have hmem : b ∈ rest := by
    have hlast := congrArg List.getLast? hsplit
    rw [List.getLast?_concat, List.getLast?_cons, List.getLast?_eq_some_getLast hne,
      Option.getD_some] at hlast
    exact Option.some.inj hlast ▸ List.getLast_mem hne
  exact hb (hrest b hmem).1

/-- A mark comes before the first digit. -/
theorem isThousands_of_head {m : Char} {a : SheetText} (hm : isMark m = true) :
    isThousands (m :: a) = false := by
  rw [Bool.eq_false_iff, Ne, isThousands_iff]
  rintro ⟨first, rest, hsplit, -, hlength, hfirst, -⟩
  rw [List.splitOn_cons_eq_if_modifyHead] at hsplit
  rcases isMark_iff.1 hm with rfl | rfl
  · cases htail : a.splitOn '.' with
    | nil => exact absurd htail (List.splitOn_ne_nil _ _)
    | cons g groups =>
      rw [htail] at hsplit
      obtain ⟨rfl, -⟩ := List.cons.inj hsplit
      exact absurd (hfirst ',' (by simp)) (by decide)
  · obtain ⟨rfl, -⟩ := List.cons.inj hsplit
    exact absurd hlength.1 (by decide)

/-! ## The amounts that are written -/

namespace AmountText

variable (w : AmountText)

/-- All digits that are written. -/
def digits : SheetText := w.first ++ w.groups.flatten ++ w.decimals.getD []

theorem amount_eq : w.amount =
    (digitsValue w.digits : ℚ) / 10 ^ (w.decimals.getD []).length := by
  unfold amount digits
  cases hdecimals : w.decimals with
  | none =>
    rw [Option.getD_none, Option.getD_none, List.append_nil, digitsValue_append]
    have hzero : digitsValue ['0', '0'] = 0 := by decide
    rw [hzero]
    push_cast
    norm_num
  | some d =>
    have htwo : d.length = 2 := (w.two_decimals d hdecimals).1
    rw [Option.getD_some, Option.getD_some, htwo]
    norm_num

/-- What `money` keeps of the text. -/
def cleaned : SheetText :=
  w.symbol.filter isMark ++ w.grouped ++ w.decimals.elim [] (w.mark.char :: ·)

theorem isMark_char (m : DecimalMark) : isMark m.char = true ∧ isMark m.grouping = true := by
  cases m <;> decide

theorem isAmountChar_of_digitOrMark {c : Char} (h : isDigit c = true ∨ isMark c = true) :
    isAmountChar c = true := by
  unfold isAmountChar
  rcases h with h | h
  · simp [h]
  · rcases isMark_iff.1 h with rfl | rfl <;> decide

theorem digitsAndMarks_intercalate {m : Char} {l : List SheetText} (hm : isMark m = true)
    (hl : ∀ g ∈ l, ∀ c ∈ g, isDigit c = true) : DigitsAndMarks ([m].intercalate l) := by
  induction l with
  | nil => simp [DigitsAndMarks]
  | cons g l ih =>
    cases l with
    | nil =>
      rw [List.intercalate_singleton]
      exact fun c hc => .inl (hl g (by simp) c hc)
    | cons g' l =>
      rw [List.intercalate_cons_cons]
      intro c hc
      rw [List.mem_append, List.mem_append, List.mem_singleton] at hc
      rcases hc with (hc | rfl) | hc
      · exact .inl (hl g (by simp) c hc)
      · exact .inr hm
      · exact ih (fun x hx => hl x (List.mem_cons_of_mem g hx)) c hc

/-- The groups without the mark between them. -/
theorem filter_intercalate {m : Char} {p : Char → Bool} {l : List SheetText} (hm : p m = false)
    (hl : ∀ g ∈ l, ∀ c ∈ g, p c = true) : ([m].intercalate l).filter p = l.flatten := by
  induction l with
  | nil => rfl
  | cons g l ih =>
    have hg := List.filter_eq_self.2 (hl g (by simp))
    cases l with
    | nil => simpa using hg
    | cons g' l =>
      rw [List.intercalate_cons_cons, List.filter_append, List.filter_append, hg,
        ih fun x hx => hl x (List.mem_cons_of_mem g hx), List.filter_singleton, hm, List.flatten_cons]
      simp

theorem intercalate_concat {m : Char} {l : List SheetText} {g : SheetText} (hne : l ≠ []) :
    [m].intercalate (l ++ [g]) = [m].intercalate l ++ m :: g := by
  induction l with
  | nil => exact absurd rfl hne
  | cons g' l ih =>
    cases l with
    | nil => simp
    | cons g'' l =>
      rw [List.cons_append, List.intercalate_cons_of_ne_nil (by simp), ih (by simp),
        List.intercalate_cons_cons, List.append_assoc _ _ (m :: g)]

theorem group_digits {g : SheetText} (hg : g ∈ w.first :: w.groups) : ∀ c ∈ g, isDigit c = true := by
  rcases List.mem_cons.1 hg with rfl | hg
  · exact w.first_digits.2
  · exact (w.groups_of_three g hg).2

theorem grouped_marks : DigitsAndMarks w.grouped :=
  digitsAndMarks_intercalate (isMark_char w.mark).2 fun _ => w.group_digits

theorem symbol_marks : DigitsAndMarks (w.symbol.filter isMark) :=
  fun _ hc => .inr (List.mem_filter.1 hc).2

theorem marks_append {a b : SheetText} (ha : DigitsAndMarks a) (hb : DigitsAndMarks b) :
    DigitsAndMarks (a ++ b) :=
  fun c hc => (List.mem_append.1 hc).elim (ha c) (hb c)

theorem filter_symbol : w.symbol.filter isAmountChar = w.symbol.filter isMark := by
  refine List.filter_congr fun c hc => ?_
  obtain ⟨hdigit, hminus⟩ := w.symbol_free c hc
  simp [isAmountChar, isMark, hdigit, hminus]

theorem text_filter : w.text.filter isAmountChar = w.cleaned := by
  have hgrouped : w.grouped.filter isAmountChar = w.grouped :=
    List.filter_eq_self.2 fun c hc => isAmountChar_of_digitOrMark (w.grouped_marks c hc)
  unfold text cleaned
  rw [List.filter_append, List.filter_append, filter_symbol, hgrouped]
  cases hdecimals : w.decimals with
  | none => rfl
  | some d =>
    have hd : (w.mark.char :: d).filter isAmountChar = w.mark.char :: d := by
      refine List.filter_eq_self.2 fun c hc => isAmountChar_of_digitOrMark ?_
      rcases List.mem_cons.1 hc with rfl | hc
      · exact .inr (isMark_char w.mark).1
      · exact .inl ((w.two_decimals d hdecimals).2 c hc)
    rw [Option.elim_some, hd]

theorem isMark_of_filter {c : Char} (h : isMark c = true) : isAmountChar c = true :=
  isAmountChar_of_digitOrMark (.inr h)

/-- The cleaned text has the marks and the digits of the text. -/
theorem filter_cleaned {p : Char → Bool} (hp : ∀ c, p c = true → isAmountChar c = true) :
    w.cleaned.filter p = w.text.filter p := by
  rw [← text_filter, List.filter_filter]
  refine List.filter_congr fun c _ => ?_
  by_cases hc : p c = true
  · rw [hc, hp c hc, Bool.and_self]
  · rw [Bool.not_eq_true] at hc
    rw [hc, Bool.false_and]

theorem cleaned_digits : w.cleaned.filter isDigit = w.digits := by
  have hmark := isMark_char w.mark
  have hsymbol : (w.symbol.filter isMark).filter isDigit = [] :=
    List.filter_eq_nil_iff.2 fun c hc => by
      rw [isDigit_of_isMark (List.mem_filter.1 hc).2]
      decide
  unfold cleaned digits grouped
  rw [List.filter_append, List.filter_append, hsymbol, List.nil_append,
    filter_intercalate (isDigit_of_isMark hmark.2) fun _ => w.group_digits, List.flatten_cons]
  cases hdecimals : w.decimals with
  | none => rfl
  | some d =>
    rw [Option.elim_some, Option.getD_some,
      List.filter_cons_of_neg (by rw [isDigit_of_isMark hmark.1]; decide),
      List.filter_eq_self.2 (w.two_decimals d hdecimals).2]

theorem lastMarkOnce_iff {a b : SheetText} {m : Char} (hcleaned : w.cleaned = a ++ m :: b)
    (hm : isMark m = true) (hb : ∀ c ∈ b, isDigit c = true) : w.LastMarkOnce ↔ m ∉ a := by
  have hfree : b.filter isMark = [] :=
    List.filter_eq_nil_iff.2 fun c hc hmark => not_mem_digits hmark hb hc
  have hmarks : w.text.filter isMark = a.filter isMark ++ [m] := by
    rw [← w.filter_cleaned fun _ => isMark_of_filter, hcleaned, List.filter_append,
      List.filter_cons_of_pos hm, hfree]
  unfold LastMarkOnce
  rw [hmarks, List.getLast?_concat]
  simp only [Option.mem_some_iff, forall_eq', List.count_append, List.count_singleton_self,
    Nat.add_eq_right, List.count_eq_zero, List.mem_filter, hm, and_true]

/-- The amount is read when the last mark stands once in a text whose last mark is followed by
digits. -/
theorem money_split {a b : SheetText} {m : Char} (hcleaned : w.cleaned = a ++ m :: b)
    (ha : DigitsAndMarks a) (hm : isMark m = true) (hb : ∀ c ∈ b, isDigit c = true) (hne : b ≠ [])
    (hthousands : m = '.' → isThousands (a ++ m :: b) = false) :
    (w.LastMarkOnce → sheetMoney w.text = (digitsValue w.digits : ℚ) / 10 ^ b.length) ∧
      (¬ w.LastMarkOnce → sheetMoney w.text = 0) := by
  have hread := sheetMoney_lastMark (w.text_filter.trans hcleaned) ha hm hb hne hthousands
  have hdigits : a.filter isDigit ++ b = w.digits := by
    rw [← cleaned_digits, hcleaned, List.filter_append,
      List.filter_cons_of_neg (by rw [isDigit_of_isMark hm]; decide), List.filter_eq_self.2 hb]
  rw [w.lastMarkOnce_iff hcleaned hm hb, not_not, hread, hdigits]
  exact ⟨fun h => if_neg h, fun h => if_pos h⟩

/-- The amount has `k` decimals when the last mark of its text stands there once. -/
def ReadWith (k : ℕ) : Prop :=
  (w.LastMarkOnce → sheetMoney w.text = (digitsValue w.digits : ℚ) / 10 ^ k) ∧
    (¬ w.LastMarkOnce → sheetMoney w.text = 0)

theorem readWith_decimals {d : SheetText} (hdecimals : w.decimals = some d) : w.ReadWith 2 := by
  obtain ⟨htwo, hdigit⟩ := w.two_decimals d hdecimals
  have hcleaned : w.cleaned = (w.symbol.filter isMark ++ w.grouped) ++ w.mark.char :: d := by
    rw [cleaned, hdecimals, Option.elim_some]
  have hread := w.money_split hcleaned (marks_append w.symbol_marks w.grouped_marks)
    (isMark_char w.mark).1 hdigit (by rintro rfl; simp at htwo) ?_
  · rwa [htwo] at hread
  · intro hpoint
    rw [hpoint]
    exact isThousands_of_last (by omega) (not_mem_digits (by decide) hdigit)

theorem exists_last_group (hgroups : w.groups ≠ []) : ∃ l g, l ≠ [] ∧ w.first :: w.groups = l ++ [g] ∧
    w.grouped = [w.mark.grouping].intercalate l ++ w.mark.grouping :: g ∧ g ∈ w.groups := by
  obtain ⟨groups, g, hg⟩ : ∃ groups g, w.groups = groups ++ [g] :=
    ⟨_, _, (List.dropLast_append_getLast hgroups).symm⟩
  refine ⟨w.first :: groups, g, by simp, by simp [hg], ?_, by simp [hg]⟩
  rw [grouped, hg, ← List.cons_append, intercalate_concat (by simp)]

theorem digits_ne_nil : w.digits ≠ [] := by
  simp [digits, w.first_digits.1]

theorem all_digits : ∀ c ∈ w.digits, isDigit c = true := by
  rw [← cleaned_digits]
  exact fun c hc => (List.mem_filter.1 hc).2

/-- A text with no mark is a number of its digits, and so is one whose points stand between groups. -/
theorem read_points (h : w.PointsGroup) : sheetMoney w.text = digitsValue w.digits := by
  obtain ⟨hsymbol, hgroups, hdecimals, hmark⟩ := h
  have hfree : w.symbol.filter isMark = [] :=
    List.filter_eq_nil_iff.2 fun c hc => by rw [hsymbol c hc]; decide
  have hcleaned : w.cleaned = ['.'].intercalate (w.first :: w.groups) := by
    rw [cleaned, hdecimals, hfree, Option.elim_none, List.append_nil, List.nil_append, grouped, hmark,
      DecimalMark.grouping]
  have hdot : ∀ g ∈ w.first :: w.groups, '.' ∉ g :=
    fun g hg => not_mem_digits (by decide) (w.group_digits hg)
  have hthousands : isThousands w.cleaned = true := by
    refine isThousands_iff.2 ⟨w.first, w.groups, ?_, hgroups, ?_, w.first_digits.2,
      w.groups_of_three⟩
    · rw [hcleaned, List.splitOn_intercalate '.' hdot (by simp)]
    · exact ⟨List.length_pos_iff.2 w.first_digits.1, w.first_short hgroups⟩
  have hout : w.cleaned.filter (· != '.') = w.digits := by
    rw [hcleaned, filter_intercalate (by decide), digits, hdecimals, List.flatten_cons]
    · simp
    · intro g hg c hc
      refine bne_iff_ne.2 ?_
      rintro rfl
      exact hdot g hg hc
  have hcomma : ',' ∉ w.cleaned := by
    intro h
    have : ',' ∈ w.cleaned.filter (· != '.') := List.mem_filter.2 ⟨h, by decide⟩
    rw [hout] at this
    exact absurd (w.all_digits ',' this) (by decide)
  have hne : w.cleaned ≠ [] := by
    intro h
    rw [h] at hout
    exact w.digits_ne_nil hout.symm
  have hread := (filter_trimmed w.text).trans w.text_filter
  unfold isAmountChar at hread
  unfold sheetMoney
  simp only [hread]
  rw [if_neg hne, if_neg fun h => hcomma h.1, if_neg hcomma, if_pos hthousands, hout,
    decimalValue_digits w.all_digits w.digits_ne_nil, Option.getD_some]

theorem readWith_groups (hgroups : w.groups ≠ []) (hdecimals : w.decimals = none)
    (hpoints : ¬ w.PointsGroup) : w.ReadWith 3 := by
  obtain ⟨l, g, hl, hall, hgrouped, hg⟩ := w.exists_last_group hgroups
  obtain ⟨hthree, hdigit⟩ := w.groups_of_three g hg
  have hmark := (isMark_char w.mark).2
  have hmarks : DigitsAndMarks ([w.mark.grouping].intercalate l) :=
    digitsAndMarks_intercalate hmark fun x hx => w.group_digits (by rw [hall]; simp [hx])
  have hcleaned : w.cleaned = (w.symbol.filter isMark ++ [w.mark.grouping].intercalate l) ++
      w.mark.grouping :: g := by
    rw [cleaned, hdecimals, Option.elim_none, List.append_nil, hgrouped, List.append_assoc]
  have hread := w.money_split hcleaned (marks_append w.symbol_marks hmarks) hmark hdigit
    (by rintro rfl; simp at hthree) ?_
  · rwa [hthree] at hread
  · intro hpoint
    cases hsymbol : w.symbol.filter isMark with
    | nil =>
      refine absurd ⟨?_, hgroups, hdecimals, ?_⟩ hpoints
      · exact fun c hc => Bool.not_eq_true _ ▸ List.filter_eq_nil_iff.1 hsymbol c hc
      · cases hw : w.mark with
        | comma => rfl
        | point => rw [hw] at hpoint; exact absurd hpoint (by decide)
    | cons m marks =>
      have hm : m ∈ w.symbol.filter isMark := hsymbol ▸ List.mem_cons_self
      exact isThousands_of_head (List.mem_filter.1 hm).2

theorem read_plain (h : w.cleaned = w.digits) : sheetMoney w.text = digitsValue w.digits := by
  have hmark : ∀ {m : Char}, isMark m = true → m ∉ w.digits :=
    fun hm => not_mem_digits hm w.all_digits
  have hthousands : isThousands w.digits = false := by
    rw [Bool.eq_false_iff, Ne, isThousands_iff]
    rintro ⟨first, rest, hsplit, hne, -⟩
    rw [List.splitOn_eq_singleton (hmark (by decide))] at hsplit
    exact hne (List.cons.inj hsplit).2.symm
  have hread := (filter_trimmed w.text).trans (w.text_filter.trans h)
  unfold isAmountChar at hread
  unfold sheetMoney
  simp only [hread]
  rw [if_neg w.digits_ne_nil, if_neg fun h => hmark (by decide) h.1, if_neg (hmark (by decide)),
    hthousands, if_neg (by decide), decimalValue_digits w.all_digits w.digits_ne_nil,
    Option.getD_some]

theorem readWith_whole (hgroups : w.groups = []) (hdecimals : w.decimals = none) :
    ∃ k, w.ReadWith k := by
  have hgrouped : w.grouped = w.first := by
    rw [grouped, hgroups, List.intercalate_singleton]
  have hcleaned : w.cleaned = w.symbol.filter isMark ++ w.first := by
    rw [cleaned, hdecimals, hgrouped, Option.elim_none, List.append_nil]
  by_cases hsymbol : w.symbol.filter isMark = []
  · have hdigits : w.cleaned = w.digits := by
      rw [hcleaned, hsymbol, digits, hgroups, hdecimals]
      simp
    have hmarks : w.text.filter isMark = [] := by
      rw [← w.filter_cleaned fun _ => isMark_of_filter, hdigits]
      exact List.filter_eq_nil_iff.2 fun c hc hmark => not_mem_digits hmark w.all_digits hc
    have honce : w.LastMarkOnce := by simp [LastMarkOnce, hmarks]
    refine ⟨0, fun _ => ?_, fun h => absurd honce h⟩
    rw [w.read_plain hdigits]
    simp
  · obtain ⟨marks, m, hm⟩ : ∃ marks m, w.symbol.filter isMark = marks ++ [m] :=
      ⟨_, _, (List.dropLast_append_getLast hsymbol).symm⟩
    have hall : ∀ c ∈ marks ++ [m], isMark c = true := fun c hc => by
      rw [← hm] at hc
      exact (List.mem_filter.1 hc).2
    refine ⟨w.first.length, w.money_split (a := marks) (m := m) ?_ ?_ ?_ w.first_digits.2
      w.first_digits.1 fun _ => ?_⟩
    · rw [hcleaned, hm, List.append_assoc, List.singleton_append]
    · exact fun c hc => .inr (hall c (List.mem_append_left _ hc))
    · exact hall m (by simp)
    · cases marks with
      | nil => exact isThousands_of_head (hall m (by simp))
      | cons c marks => exact isThousands_of_head (hall c (by simp))

/-- Two groups without decimals repeat their mark. -/
theorem not_lastMarkOnce (hgroups : 2 ≤ w.groups.length) (hdecimals : w.decimals = none) :
    ¬ w.LastMarkOnce := by
  have hne : w.groups ≠ [] := by
    rintro h
    simp [h] at hgroups
  obtain ⟨l, g, -, hall, hgrouped, hg⟩ := w.exists_last_group hne
  have hcleaned : w.cleaned = (w.symbol.filter isMark ++ [w.mark.grouping].intercalate l) ++
      w.mark.grouping :: g := by
    rw [cleaned, hdecimals, Option.elim_none, List.append_nil, hgrouped, List.append_assoc]
  rw [w.lastMarkOnce_iff hcleaned (isMark_char w.mark).2 (w.groups_of_three g hg).2, not_not]
  have hlength : l.length = w.groups.length := by
    have := congrArg List.length hall
    simp only [List.length_cons, List.length_append, List.length_nil] at this
    omega
  cases l with
  | nil => simp at hlength; omega
  | cons x l =>
    cases l with
    | nil => simp at hlength; omega
    | cons y l => simp [List.intercalate_cons_cons]

/-- Every way of writing an amount is one of points between groups, or is read by its last mark. -/
theorem read (hpoints : ¬ w.PointsGroup) :
    ∃ k, w.ReadWith k ∧ (w.decimals ≠ none → k = 2) := by
  cases hdecimals : w.decimals with
  | some d => exact ⟨2, w.readWith_decimals hdecimals, fun _ => rfl⟩
  | none =>
    by_cases hgroups : w.groups = []
    · obtain ⟨k, hk⟩ := w.readWith_whole hgroups hdecimals
      exact ⟨k, hk, fun h => absurd rfl h⟩
    · exact ⟨3, w.readWith_groups hgroups hdecimals hpoints, fun h => absurd rfl h⟩

end AmountText

/-- An amount is read from every unambiguous way of writing it, and is never read as nothing, exactly
when it is zero, its only marks are points between groups, or its last mark stands there once. -/
theorem money_reads_iff (w : AmountText) :
    ((w.Unambiguous → sheetMoney w.text = w.amount) ∧ (w.amount ≠ 0 → sheetMoney w.text ≠ 0)) ↔
      (w.amount = 0 ∨ w.PointsGroup ∨ w.LastMarkOnce) := by
  have hamount := w.amount_eq
  have hzero : w.amount = 0 ↔ (digitsValue w.digits : ℚ) = 0 := by
    rw [hamount, div_eq_zero_iff, or_iff_left (by positivity)]
  by_cases hpoints : w.PointsGroup
  · have hread : sheetMoney w.text = w.amount := by
      rw [w.read_points hpoints, hamount, hpoints.2.2.1]
      simp
    rw [hread]
    exact iff_of_true ⟨fun _ => rfl, id⟩ (.inr (.inl hpoints))
  · obtain ⟨k, ⟨honce, hnot⟩, hk⟩ := w.read hpoints
    constructor
    · rintro ⟨-, hnonzero⟩
      by_cases h₀ : w.amount = 0
      · exact .inl h₀
      · refine .inr (.inr ?_)
        by_contra hmany
        exact hnonzero h₀ (hnot hmany)
    · rintro (h₀ | h | h)
      · have hread : sheetMoney w.text = 0 := by
          by_cases h : w.LastMarkOnce
          · rw [honce h, hzero.1 h₀, zero_div]
          · exact hnot h
        exact ⟨fun _ => hread.trans h₀.symm, fun hne => absurd h₀ hne⟩
      · exact absurd h hpoints
      · rw [honce h, Ne, hzero]
        refine ⟨fun hwritten => ?_, fun hne heq => hne ?_⟩
        · have hdecimals : w.decimals ≠ none := by
            rcases hwritten with hw | hw | hw
            · exact hw.2
            · exact absurd h (w.not_lastMarkOnce hw.1 hw.2)
            · exact hw
          obtain ⟨d, hd⟩ := Option.ne_none_iff_exists'.1 hdecimals
          rw [hk hdecimals, hamount, hd, Option.getD_some, (w.two_decimals d hd).1]
        · exact (div_eq_zero_iff.1 heq).resolve_right (by positivity)

/-- `1,234,567` -/
def groupedByCommas : AmountText where
  symbol := []
  first := ['1']
  groups := [['2', '3', '4'], ['5', '6', '7']]
  decimals := none
  mark := .point
  symbol_free := by simp
  first_digits := ⟨by decide, List.all_eq_true.1 (by decide)⟩
  first_short := by decide
  groups_of_three := List.forall_mem_cons.2 ⟨⟨rfl, List.all_eq_true.1 (by decide)⟩,
    List.forall_mem_singleton.2 ⟨rfl, List.all_eq_true.1 (by decide)⟩⟩
  two_decimals := by simp

/-- `1,234,567` is taken for nothing. -/
theorem grouped_by_commas_lost : ∃ w : AmountText, w.text = "1,234,567".toList ∧ w.Unambiguous ∧
    w.amount = 1234567 ∧ sheetMoney w.text = 0 :=
  ⟨groupedByCommas, by decide, .inr (.inl ⟨by decide, rfl⟩), by decide +kernel, by decide +kernel⟩

end Barbershop
