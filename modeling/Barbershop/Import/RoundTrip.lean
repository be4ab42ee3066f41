import Mathlib.Data.List.TakeWhile
import Barbershop.Import.Cells

/-!
# Sheets as they are written

A sheet is written as a heading, its cells as they are, and rows whose cells stand between quotes.
`parseCsv` reads the heading and the rows back, each cell trimmed and its breaks made line feeds, when
the heading is not blank (`written_sheet_read`).
-/

namespace Barbershop

/-! ## Writing -/

def doubled (cell : SheetText) : SheetText := cell.flatMap fun c => if c = '"' then ['"', '"'] else [c]

/-- A cell between quotes, its own quotes doubled. -/
def quoted (cell : SheetText) : SheetText := '"' :: (doubled cell ++ ['"'])

inductive RowEnd where
  | lf | crlf
  deriving DecidableEq

def RowEnd.text : RowEnd → SheetText
  | lf => ['\n']
  | crlf => ['\r', '\n']

/-- How a sheet is written. -/
structure SheetForm where
  delim : Char
  rowEnd : RowEnd
  mark : Bool
  finalEnd : Bool
  delim_mem : delim ∈ [',', ';']

namespace SheetForm

variable (f : SheetForm)

def headingText (heading : List SheetText) : SheetText := [f.delim].intercalate heading

def rowText (cells : List SheetText) : SheetText := [f.delim].intercalate (cells.map quoted)

/-- The byte order mark, the heading and the rows. -/
def sheetText (heading : List SheetText) (rows : List (List SheetText)) : SheetText :=
  (if f.mark then [Char.ofNat 0xfeff] else []) ++
    (f.rowEnd.text.intercalate (f.headingText heading :: rows.map f.rowText) ++
      if f.finalEnd then f.rowEnd.text else [])

end SheetForm

/-- A cell that is written as it is. -/
def IsPlain (cell : SheetText) : Prop := ∀ c ∈ cell, c ∉ ['"', ',', ';', '\r', '\n']

instance (cell : SheetText) : Decidable (IsPlain cell) :=
  List.decidableBAll (· ∉ ['"', ',', ';', '\r', '\n']) cell

/-! ## Line feeds -/

/-- Text before something that is no line feed is read by itself. -/
theorem lineFeeds_append {a b : SheetText} (h : b.head? ≠ some '\n') :
    lineFeeds (a ++ b) = lineFeeds a ++ lineFeeds b := by
  induction a using lineFeeds.induct with
  | case1 rest ih => simp only [List.cons_append, lineFeeds, ih]
  | case2 rest hrest ih =>
    have hnext : ∀ r, rest ++ b = '\n' :: r → False := by
      intro r hr
      cases rest with
      | nil =>
        rw [List.nil_append] at hr
        rw [hr] at h
        exact h rfl
      | cons c rest =>
        obtain ⟨rfl, -⟩ := List.cons.inj hr
        exact hrest rest rfl
    rw [List.cons_append, lineFeeds, ih, lineFeeds]
    · rfl
    · exact hrest
    · exact hnext
  | case3 c rest hcrlf hcr ih =>
    rw [List.cons_append, lineFeeds, ih, lineFeeds]
    · rfl
    · exact hcrlf
    · exact hcr
    · exact fun r hc => absurd hc hcr
    · exact hcr
  | case4 => rfl

theorem doubled_cons_of_ne {c : Char} (h : c ≠ '"') (cell : SheetText) :
    doubled (c :: cell) = c :: doubled cell := by
  rw [doubled, List.flatMap_cons, if_neg h, List.singleton_append, doubled]

theorem doubled_quote (cell : SheetText) : doubled ('"' :: cell) = '"' :: '"' :: doubled cell := rfl

/-- A line feed stands first in both or in neither. -/
theorem head_doubled {cell : SheetText} (h : ∀ r, cell = '\n' :: r → False) :
    ∀ r, doubled cell = '\n' :: r → False := by
  cases cell with
  | nil => intro r hr; cases hr
  | cons c cell =>
    intro r hr
    by_cases hc : c = '"'
    · subst hc
      cases hr
    · rw [doubled_cons_of_ne hc] at hr
      obtain ⟨rfl, -⟩ := List.cons.inj hr
      exact h cell rfl

theorem lineFeeds_doubled (cell : SheetText) :
    lineFeeds (doubled cell) = doubled (lineFeeds cell) := by
  induction cell using lineFeeds.induct with
  | case1 rest ih =>
    rw [doubled_cons_of_ne (by decide), doubled_cons_of_ne (by decide), lineFeeds, lineFeeds, ih,
      doubled_cons_of_ne (by decide)]
  | case2 rest hrest ih =>
    rw [doubled_cons_of_ne (by decide), lineFeeds, lineFeeds, ih, doubled_cons_of_ne (by decide)]
    · exact hrest
    · exact head_doubled hrest
  | case3 c rest hcrlf hcr ih =>
    have hfeeds : ∀ r : SheetText, lineFeeds (c :: r) = c :: lineFeeds r := by
      intro r
      rw [lineFeeds]
      · exact fun r' hc => absurd hc hcr
      · exact hcr
    rw [hfeeds]
    by_cases hc : c = '"'
    · subst hc
      rw [doubled_quote, doubled_quote, hfeeds, hfeeds, ih]
    · rw [doubled_cons_of_ne hc, doubled_cons_of_ne hc, hfeeds, ih]
  | case4 => rfl

theorem lineFeeds_quoted (cell rest : SheetText) :
    lineFeeds (quoted cell ++ rest) = quoted (lineFeeds cell) ++ lineFeeds rest := by
  have hquote : ∀ r : SheetText, lineFeeds ('"' :: r) = '"' :: lineFeeds r := by
    intro r
    rw [lineFeeds]
    · exact fun r' hc => absurd hc (by decide)
    · exact fun hc => absurd hc (by decide)
  unfold quoted
  rw [List.cons_append, List.append_assoc, List.singleton_append, hquote,
    lineFeeds_append (by simp), lineFeeds_doubled, hquote, List.cons_append, List.append_assoc,
    List.singleton_append]

namespace SheetForm

variable (f : SheetForm)

theorem delim_ne {c : Char} (h : c ∉ [',', ';']) : f.delim ≠ c := by
  rintro rfl
  exact h f.delim_mem

theorem lineFeeds_delim (rest : SheetText) : lineFeeds (f.delim :: rest) = f.delim :: lineFeeds rest := by
  rw [lineFeeds]
  · exact fun r hc => absurd hc (f.delim_ne (by decide))
  · exact f.delim_ne (by decide)

theorem lineFeeds_rowText (cells : List SheetText) (rest : SheetText) :
    lineFeeds (f.rowText cells ++ rest) = f.rowText (cells.map lineFeeds) ++ lineFeeds rest := by
  unfold rowText
  induction cells with
  | nil => rfl
  | cons cell cells ih =>
    cases cells with
    | nil => simp [lineFeeds_quoted]
    | cons next cells =>
      simp only [List.map_cons, List.intercalate_cons_cons, List.append_assoc, List.cons_append,
        List.nil_append] at ih ⊢
      rw [lineFeeds_quoted, lineFeeds_delim, ih]

theorem lineFeeds_rowEnd (rest : SheetText) :
    lineFeeds (f.rowEnd.text ++ rest) = '\n' :: lineFeeds rest := by
  cases f.rowEnd with
  | lf =>
    have hline : lineFeeds ('\n' :: rest) = '\n' :: lineFeeds rest := by
      rw [lineFeeds]
      · exact fun r hc => absurd hc (by decide)
      · exact fun hc => absurd hc (by decide)
    exact hline
  | crlf => rfl

/-- The rows, each after a line feed. -/
def rowsText (rows : List (List SheetText)) : SheetText :=
  rows.flatMap fun cells => '\n' :: f.rowText cells

def lastEnd : SheetText := if f.finalEnd then ['\n'] else []

theorem lineFeeds_rows (rows : List (List SheetText)) :
    lineFeeds ((rows.map f.rowText).flatMap (f.rowEnd.text ++ ·) ++
      if f.finalEnd then f.rowEnd.text else []) =
        f.rowsText (rows.map (List.map lineFeeds)) ++ f.lastEnd := by
  induction rows with
  | nil =>
    unfold lastEnd
    split
    · have hend := f.lineFeeds_rowEnd []
      rw [List.append_nil] at hend
      exact hend
    · rfl
  | cons cells rows ih =>
    rw [List.map_cons, List.flatMap_cons, List.append_assoc, List.append_assoc, lineFeeds_rowEnd,
      lineFeeds_rowText, ih]
    simp [rowsText]

theorem intercalate_eq (sep first : SheetText) (rest : List SheetText) :
    sep.intercalate (first :: rest) = first ++ rest.flatMap (sep ++ ·) := by
  induction rest generalizing first with
  | nil => simp
  | cons next rest ih => rw [List.intercalate_cons_cons, ih, List.flatMap_cons, List.append_assoc,
      List.append_assoc]

theorem headingText_free {heading : List SheetText} (h : ∀ cell ∈ heading, IsPlain cell) {c : Char}
    (hc : c ∈ f.headingText heading) : c = f.delim ∨ c ∉ ['"', ',', ';', '\r', '\n'] := by
  unfold headingText at hc
  cases heading with
  | nil => cases hc
  | cons cell heading =>
    rw [intercalate_eq] at hc
    rcases List.mem_append.1 hc with hc | hc
    · exact .inr (h cell (by simp) c hc)
    · obtain ⟨next, hnext, hmem⟩ := List.mem_flatMap.1 hc
      rcases List.mem_append.1 hmem with hmem | hmem
      · exact .inl (List.mem_singleton.1 hmem)
      · exact .inr (h next (List.mem_cons_of_mem cell hnext) c hmem)

theorem ne_of_mem_headingText {heading : List SheetText} (h : ∀ cell ∈ heading, IsPlain cell)
    {c : Char} (hc : c ∈ f.headingText heading) : c ≠ '\r' ∧ c ≠ '\n' := by
  rcases f.headingText_free h hc with rfl | hc
  · exact ⟨f.delim_ne (by decide), f.delim_ne (by decide)⟩
  · simp only [List.mem_cons, List.not_mem_nil, or_false, not_or] at hc
    exact ⟨hc.2.2.2.1, hc.2.2.2.2⟩

end SheetForm

/-! ## Reading cells -/

section Loop

variable {d : Char}

/-- The text of a cell is read into the cell that is open. -/
def ReadsCell (d : Char) (text cell : SheetText) : Prop :=
  ∀ (s : CsvState) (rest : SheetText), rest.head? ≠ some '"' →
    csvLoop d false s (text ++ rest) = csvLoop d false { s with cell := s.cell ++ cell } rest

theorem CsvState.push_append (s : CsvState) (c : Char) (cell : SheetText) :
    { s.push c with cell := (s.push c).cell ++ cell } = { s with cell := s.cell ++ c :: cell } := by
  simp [CsvState.push]

theorem csvLoop_inside {c : Char} (hc : c ≠ '"') (s : CsvState) (rest : SheetText) :
    csvLoop d true s (c :: rest) = csvLoop d true (s.push c) rest := by
  rw [csvLoop]
  · exact fun r h => absurd h hc
  · exact hc

theorem csvLoop_outside {c : Char} (hc : c ∉ ['"', d, '\n']) (s : CsvState) (rest : SheetText) :
    csvLoop d false s (c :: rest) = csvLoop d false (s.push c) rest := by
  simp only [List.mem_cons, List.not_mem_nil, or_false, not_or] at hc
  rw [csvLoop, if_neg hc.1, if_neg hc.2.1, if_neg hc.2.2]

theorem csvLoop_doubled (cell : SheetText) (s : CsvState) (rest : SheetText)
    (hrest : rest.head? ≠ some '"') : csvLoop d true s (doubled cell ++ '"' :: rest) =
      csvLoop d false { s with cell := s.cell ++ cell } rest := by
  induction cell generalizing s with
  | nil =>
    have hend : csvLoop d true s ('"' :: rest) = csvLoop d false s rest := by
      rw [csvLoop]
      rintro r rfl
      exact hrest rfl
    rw [List.append_nil]
    exact hend
  | cons c cell ih =>
    by_cases hc : c = '"'
    · subst hc
      rw [doubled_quote, List.cons_append, List.cons_append, csvLoop, ih, CsvState.push_append]
    · rw [doubled_cons_of_ne hc, List.cons_append, csvLoop_inside hc, ih, CsvState.push_append]

theorem readsCell_quoted (cell : SheetText) : ReadsCell d (quoted cell) cell := by
  intro s rest hrest
  rw [quoted, List.cons_append, List.append_assoc, List.singleton_append, csvLoop, if_pos rfl]
  exact csvLoop_doubled cell s rest hrest

theorem readsCell_plain {cell : SheetText} (h : IsPlain cell) (hd : d ∈ [',', ';']) :
    ReadsCell d cell cell := by
  intro s rest _
  induction cell generalizing s with
  | nil => simp
  | cons c cell ih =>
    have hc : c ∉ ['"', d, '\n'] := by
      have hplain := h c (by simp)
      simp only [List.mem_cons, List.not_mem_nil, or_false, not_or] at hplain hd ⊢
      refine ⟨hplain.1, ?_, hplain.2.2.2.2⟩
      rcases hd with rfl | rfl
      · exact hplain.2.1
      · exact hplain.2.2.1
    rw [List.cons_append, csvLoop_outside hc, ih fun x hx => h x (List.mem_cons_of_mem c hx),
      CsvState.push_append]

/-- The rows with one more, unless it is blank. -/
def keepRow (rows : List (List SheetText)) (row : List SheetText) : List (List SheetText) :=
  if row.any (· ≠ []) then rows ++ [row] else rows

/-- The text of a row is read into the row that is open, up to its last cell. -/
theorem csvLoop_row {cells : List SheetText} {write : SheetText → SheetText}
    (hd : d ≠ '"') (hne : cells ≠ []) (hwrite : ∀ cell ∈ cells, ReadsCell d (write cell) cell)
    (s : CsvState) (hs : s.cell = []) : ∃ s' : CsvState,
      (∀ rest : SheetText, rest.head? ≠ some '"' →
        csvLoop d false s ([d].intercalate (cells.map write) ++ rest) = csvLoop d false s' rest) ∧
      s'.endRow =
        { rows := keepRow s.rows (s.row ++ cells.map trimmed), row := [], cell := [] } := by
  induction cells generalizing s with
  | nil => exact absurd rfl hne
  | cons cell cells ih =>
    have hread := hwrite cell (by simp)
    cases cells with
    | nil =>
      refine ⟨{ s with cell := cell }, fun rest hrest => ?_, by simp [CsvState.endRow, keepRow]⟩
      rw [List.map_cons, List.map_nil, List.intercalate_singleton, hread s rest hrest, hs,
        List.nil_append]
    | cons next cells =>
      obtain ⟨s', hs', hend⟩ := ih (by simp) (fun c hc => hwrite c (List.mem_cons_of_mem cell hc))
        { s with row := s.row ++ [trimmed cell], cell := [] } rfl
      refine ⟨s', fun rest hrest => ?_, ?_⟩
      · rw [List.map_cons, List.map_cons, List.intercalate_cons_cons, List.append_assoc,
          List.append_assoc, hread s _ (by simp [hd]), List.singleton_append, csvLoop, if_neg hd,
          if_pos rfl, hs, List.nil_append]
        exact hs' rest hrest
      · rw [hend]
        simp

end Loop

/-! ## Reading the sheet -/

/-- A row that is kept: some cell is not blank. -/
def NotBlank (cells : List SheetText) : Prop := ∃ cell ∈ cells, trimmed cell ≠ []

instance (cells : List SheetText) : Decidable (NotBlank cells) :=
  inferInstanceAs (Decidable (∃ cell ∈ cells, trimmed cell ≠ []))

theorem keepRow_of_notBlank {rows : List (List SheetText)} {cells : List SheetText}
    (h : NotBlank cells) : keepRow rows (cells.map trimmed) = rows ++ [cells.map trimmed] := by
  obtain ⟨cell, hcell, hne⟩ := h
  refine if_pos (List.any_eq_true.2 ⟨trimmed cell, List.mem_map_of_mem hcell, ?_⟩)
  exact decide_eq_true hne

namespace SheetForm

variable (f : SheetForm)

theorem head_rest (rows : List (List SheetText)) {c : Char} (hc : c ≠ '\n') :
    (f.rowsText rows ++ f.lastEnd).head? ≠ some c := by
  cases rows with
  | nil =>
    unfold lastEnd
    split
    · exact fun h => hc (Option.some.inj h).symm
    · simp [rowsText]
  | cons cells rows => exact fun h => hc (Option.some.inj h).symm

theorem takeWhile_rest (rows : List (List SheetText)) :
    (f.rowsText rows ++ f.lastEnd).takeWhile (· != '\n') = [] := by
  cases rows with
  | nil =>
    unfold lastEnd
    split <;> rfl
  | cons cells rows => rfl

theorem csvLoop_lineFeed (s : CsvState) (rest : SheetText) :
    csvLoop f.delim false s ('\n' :: rest) = csvLoop f.delim false s.endRow rest := by
  rw [csvLoop, if_neg (by decide), if_neg (Ne.symm (f.delim_ne (by decide))), if_pos rfl]

/-- Rows that are not blank are kept, each cell trimmed. -/
theorem csvLoop_rows {rows : List (List SheetText)} (h : ∀ cells ∈ rows, NotBlank cells)
    {s : CsvState} {kept : List (List SheetText)}
    (hs : s.endRow = { rows := kept, row := [], cell := [] }) :
    (csvLoop f.delim false s (f.rowsText rows ++ f.lastEnd)).endRow.rows =
      kept ++ rows.map (List.map trimmed) := by
  induction rows generalizing s kept with
  | nil =>
    rw [List.map_nil, List.append_nil]
    unfold lastEnd
    split
    · have hfeed := f.csvLoop_lineFeed s []
      rw [hs] at hfeed
      have hread : csvLoop f.delim false s (f.rowsText [] ++ ['\n']) =
          { rows := kept, row := [], cell := [] } := hfeed
      rw [hread]
      rfl
    · exact congrArg CsvState.rows hs
  | cons cells rows ih =>
    obtain ⟨cell, hcell, -⟩ := h cells (by simp)
    obtain ⟨s', hs', hend⟩ := csvLoop_row (f.delim_ne (by decide)) (List.ne_nil_of_mem hcell)
      (fun c _ => readsCell_quoted c) { rows := kept, row := [], cell := [] } rfl
    have htext : f.rowsText (cells :: rows) ++ f.lastEnd =
        '\n' :: (f.rowText cells ++ (f.rowsText rows ++ f.lastEnd)) := by simp [rowsText]
    rw [htext, csvLoop_lineFeed, hs, rowText, hs' _ (f.head_rest rows (by decide)),
      ih (fun c hc => h c (List.mem_cons_of_mem cells hc)) hend, List.nil_append,
      keepRow_of_notBlank (h cells (by simp)), List.append_assoc]
    rfl

/-- The delimiter is the one of the heading. -/
theorem delim_eq {heading : List SheetText} (hplain : ∀ cell ∈ heading, IsPlain cell)
    (htwo : 2 ≤ heading.length) :
    (if (f.headingText heading).count ',' < (f.headingText heading).count ';' then ';' else ',') =
      f.delim := by
  have hother : ∀ c ∈ [',', ';'], c ≠ f.delim → (f.headingText heading).count c = 0 := by
    intro c hc hne
    refine List.count_eq_zero.2 fun hmem => ?_
    rcases f.headingText_free hplain hmem with rfl | hfree
    · exact hne rfl
    · refine hfree ?_
      simp only [List.mem_cons, List.not_mem_nil, or_false] at hc ⊢
      rcases hc with rfl | rfl <;> simp
  have hin : f.delim ∈ f.headingText heading := by
    unfold headingText
    cases heading with
    | nil => simp at htwo
    | cons a heading =>
      cases heading with
      | nil => simp at htwo
      | cons b heading => simp [List.intercalate_cons_cons]
  have hcount := List.count_pos_iff.2 hin
  have hmem := f.delim_mem
  simp only [List.mem_cons, List.not_mem_nil, or_false] at hmem
  rcases hmem with hd | hd
  · rw [hother ';' (by simp) (by rw [hd]; decide), if_neg (Nat.not_lt_zero _), hd]
  · rw [hother ',' (by simp) (by rw [hd]; decide), if_pos (hd ▸ hcount), hd]

/-- A sheet of line feeds and without a mark is read row by row. -/
theorem rows_read {heading : List SheetText} {rows : List (List SheetText)}
    (hplain : ∀ cell ∈ heading, IsPlain cell) (hne : heading ≠ [])
    (hrows : ∀ cells ∈ rows, NotBlank cells) :
    (csvLoop f.delim false { rows := [], row := [], cell := [] }
      (f.headingText heading ++ (f.rowsText rows ++ f.lastEnd))).endRow.rows =
        keepRow [] (heading.map trimmed) ++ rows.map (List.map trimmed) := by
  obtain ⟨s', hs', hend⟩ := csvLoop_row (f.delim_ne (by decide)) hne
    (fun c hc => readsCell_plain (hplain c hc) f.delim_mem) { rows := [], row := [], cell := [] } rfl
  have hread := hs' _ (f.head_rest rows (by decide))
  rw [List.map_id'] at hread
  rw [headingText, hread, f.csvLoop_rows hrows hend]
  rfl

/-- The heading without a mark at its start. -/
def unmarked (heading : List SheetText) : List SheetText :=
  if f.mark then heading else heading.modifyHead withoutMark

theorem withoutMark_sheetText {heading : List SheetText} (htwo : 2 ≤ heading.length)
    (rows : List (List SheetText)) : withoutMark (f.sheetText heading rows) =
      f.headingText (f.unmarked heading) ++ ((rows.map f.rowText).flatMap (f.rowEnd.text ++ ·) ++
        if f.finalEnd then f.rowEnd.text else []) := by
  unfold sheetText unmarked
  rw [intercalate_eq, List.append_assoc]
  split
  · rfl
  · obtain ⟨a, b, heading, rfl⟩ : ∃ a b l, heading = a :: b :: l := by
      cases heading with
      | nil => simp at htwo
      | cons a heading =>
        cases heading with
        | nil => simp at htwo
        | cons b heading => exact ⟨a, b, heading, rfl⟩
    cases a with
    | nil =>
      have hdelim : f.delim.toNat ≠ 0xfeff := by
        have hmem := f.delim_mem
        simp only [List.mem_cons, List.not_mem_nil, or_false] at hmem
        rcases hmem with hd | hd <;> rw [hd] <;> decide
      simp [headingText, withoutMark, hdelim]
    | cons c a =>
      by_cases hc : c.toNat = 0xfeff
      · simp [headingText, withoutMark, hc]
      · simp [headingText, withoutMark, hc]

theorem withoutMark_cons (c : Char) (cell : SheetText) :
    withoutMark (c :: cell) = if c.toNat = 0xfeff then cell else c :: cell := rfl

theorem trimmed_withoutMark (cell : SheetText) : trimmed (withoutMark cell) = trimmed cell := by
  cases cell with
  | nil => rfl
  | cons c cell =>
    rw [withoutMark_cons]
    by_cases hc : c.toNat = 0xfeff
    · have hblank : isBlank c = true := by simp [isBlank, hc]
      rw [if_pos hc, trimmed, trimmed, List.dropWhile_cons_of_pos hblank]
    · rw [if_neg hc]

theorem mem_of_mem_withoutMark {c : Char} {cell : SheetText} (h : c ∈ withoutMark cell) : c ∈ cell := by
  cases cell with
  | nil => cases h
  | cons x cell =>
    rw [withoutMark_cons] at h
    split at h
    · exact List.mem_cons_of_mem x h
    · exact h

theorem unmarked_length (heading : List SheetText) : (f.unmarked heading).length = heading.length := by
  unfold unmarked
  split
  · rfl
  · rw [List.length_modifyHead]

theorem unmarked_plain {heading : List SheetText} (h : ∀ cell ∈ heading, IsPlain cell) :
    ∀ cell ∈ f.unmarked heading, IsPlain cell := by
  unfold unmarked
  split
  · exact h
  · cases heading with
    | nil => exact h
    | cons a heading =>
      rw [List.modifyHead_cons]
      refine List.forall_mem_cons.2 ⟨fun c hc => ?_, fun cell hcell => h cell (by simp [hcell])⟩
      exact h a (by simp) c (mem_of_mem_withoutMark hc)

theorem unmarked_trimmed (heading : List SheetText) :
    (f.unmarked heading).map trimmed = heading.map trimmed := by
  unfold unmarked
  split
  · rfl
  · cases heading with
    | nil => rfl
    | cons a heading => rw [List.modifyHead_cons, List.map_cons, trimmed_withoutMark, List.map_cons]

end SheetForm

/-! ## Blank cells -/

theorem trimmed_ne_nil_iff {cell : SheetText} :
    trimmed cell ≠ [] ↔ ∃ c ∈ cell, isBlank c = false := by
  have hend : trimmed cell = [] ↔ ∀ c ∈ cell.dropWhile isBlank, isBlank c = true := by
    rw [trimmed, List.reverse_eq_nil_iff, List.dropWhile_eq_nil_iff]
    simp only [List.mem_reverse]
  have hall : (∀ c ∈ cell.dropWhile isBlank, isBlank c = true) ↔ ∀ c ∈ cell, isBlank c = true := by
    constructor
    · intro h
      have hnil : cell.dropWhile isBlank = [] := by
        by_contra hne
        have hfirst := h _ (List.head_mem hne)
        rw [List.head_dropWhile_not isBlank hne] at hfirst
        cases hfirst
      exact List.dropWhile_eq_nil_iff.1 hnil
    · exact fun h c hc => h c ((List.dropWhile_sublist _).subset hc)
  rw [Ne, hend, hall]
  simp

theorem mem_lineFeeds {c : Char} {cell : SheetText} (h : c ∈ cell) (hc : c ≠ '\r') :
    c ∈ lineFeeds cell := by
  induction cell using lineFeeds.induct with
  | case1 rest ih =>
    rw [lineFeeds]
    rcases List.mem_cons.1 h with rfl | h
    · exact absurd rfl hc
    · exact (List.mem_cons.1 h).elim (fun heq => heq ▸ List.mem_cons_self) fun h =>
        List.mem_cons_of_mem _ (ih h)
  | case2 rest hrest ih =>
    rw [lineFeeds]
    · exact List.mem_cons_of_mem _ (ih ((List.mem_cons.1 h).resolve_left hc))
    · exact hrest
  | case3 x rest hcrlf hcr ih =>
    rw [lineFeeds]
    · exact (List.mem_cons.1 h).elim (fun heq => heq ▸ List.mem_cons_self) fun h =>
        List.mem_cons_of_mem _ (ih h)
    · exact hcrlf
    · exact hcr
  | case4 => cases h

theorem NotBlank.lineFeeds {cells : List SheetText} (h : NotBlank cells) :
    NotBlank (cells.map lineFeeds) := by
  obtain ⟨cell, hcell, hne⟩ := h
  obtain ⟨c, hc, hblank⟩ := trimmed_ne_nil_iff.1 hne
  refine ⟨_, List.mem_map_of_mem hcell, trimmed_ne_nil_iff.2 ⟨c, mem_lineFeeds hc ?_, hblank⟩⟩
  rintro rfl
  exact absurd hblank (by decide)

section Sheet

variable (f : SheetForm) {heading : List SheetText} {rows : List (List SheetText)}
  (htwo : 2 ≤ heading.length) (hplain : ∀ cell ∈ heading, IsPlain cell)

include htwo hplain

/-- What is left to read once the mark and the carriage returns are out. -/
theorem source_eq : lineFeeds (withoutMark (f.sheetText heading rows)) =
    f.headingText (f.unmarked heading) ++
      (f.rowsText (rows.map (List.map lineFeeds)) ++ f.lastEnd) := by
  have hfree : ∀ c ∈ f.headingText (f.unmarked heading), c ≠ '\r' ∧ c ≠ '\n' :=
    fun c hc => f.ne_of_mem_headingText (f.unmarked_plain hplain) hc
  rw [f.withoutMark_sheetText htwo, ← f.lineFeeds_rows]
  have hline : ∀ (a b : SheetText), (∀ c ∈ a, c ≠ '\r' ∧ c ≠ '\n') →
      lineFeeds (a ++ b) = a ++ lineFeeds b := by
    intro a b ha
    induction a with
    | nil => rfl
    | cons c a ih =>
      obtain ⟨hc, ha⟩ := List.forall_mem_cons.1 ha
      rw [List.cons_append, lineFeeds, ih ha, List.cons_append]
      · exact fun r h => absurd h hc.1
      · exact hc.1
  exact hline _ _ hfree

theorem firstLine_eq : (lineFeeds (withoutMark (f.sheetText heading rows))).takeWhile (· != '\n') =
    f.headingText (f.unmarked heading) := by
  rw [source_eq f htwo hplain, List.takeWhile_append_of_pos, f.takeWhile_rest, List.append_nil]
  intro c hc
  exact bne_iff_ne.2 (f.ne_of_mem_headingText (f.unmarked_plain hplain) hc).2

/-- A sheet as it is written is read back: the heading, unless it is blank, and the rows, each cell
trimmed and with line feeds for its breaks. -/
theorem parseCsv_sheetText (hrows : ∀ cells ∈ rows, NotBlank cells) :
    parseCsv (f.sheetText heading rows) = keepRow [] (heading.map trimmed) ++
      rows.map (List.map fun cell => trimmed (lineFeeds cell)) := by
  have hlength := f.unmarked_length heading
  have hne : f.unmarked heading ≠ [] := by
    rintro hnil
    rw [hnil, List.length_nil] at hlength
    omega
  have hrows' : ∀ cells ∈ rows.map (List.map lineFeeds), NotBlank cells := by
    intro cells hcells
    obtain ⟨row, hrow, rfl⟩ := List.mem_map.1 hcells
    exact (hrows row hrow).lineFeeds
  unfold parseCsv
  dsimp only
  rw [firstLine_eq f htwo hplain, f.delim_eq (f.unmarked_plain hplain) (hlength ▸ htwo),
    source_eq f htwo hplain, f.rows_read (f.unmarked_plain hplain) hne hrows', f.unmarked_trimmed,
    List.map_map]
  congr 2
  funext cells
  rw [Function.comp_apply, List.map_map]
  rfl

end Sheet

/-- A sheet with a heading that is not blank is read back as it was written. -/
theorem written_sheet_read (f : SheetForm) {heading : List SheetText}
    {rows : List (List SheetText)} (htwo : 2 ≤ heading.length)
    (hplain : ∀ cell ∈ heading, IsPlain cell) (hheading : NotBlank heading)
    (hrows : ∀ cells ∈ rows, NotBlank cells) : parseCsv (f.sheetText heading rows) =
      heading.map trimmed :: rows.map (List.map fun cell => trimmed (lineFeeds cell)) := by
  rw [parseCsv_sheetText f htwo hplain hrows, keepRow_of_notBlank hheading]
  rfl

theorem semicolon_sheet_read :
    parseCsv ((⟨';', .crlf, true, true, by decide⟩ : SheetForm).sheetText
      ["nome".toList, " Telefone ".toList] [["Ana; \"a\"\r\nb ".toList, []]]) =
    ["nome".toList, "Telefone".toList] :: [["Ana; \"a\"\nb".toList, []]] :=
  written_sheet_read _ (by decide) (by decide) (by decide +kernel) (by decide +kernel)

/-- A heading of blank cells is no row. -/
theorem blank_heading_dropped : ∃ (f : SheetForm) (heading : List SheetText)
    (rows : List (List SheetText)), 2 ≤ heading.length ∧
      (∀ cell ∈ heading, cell ≠ [] ∧ IsPlain cell) ∧ (∀ cells ∈ rows, NotBlank cells) ∧
      parseCsv (f.sheetText heading rows) = [["Ana".toList, "11".toList]] ∧
      heading.map trimmed :: rows.map (List.map fun cell => trimmed (lineFeeds cell)) =
        [[[], []], ["Ana".toList, "11".toList]] :=
  ⟨⟨',', .lf, false, false, by decide⟩, [[' '], [' ']], [["Ana".toList, "11".toList]], by decide,
    by decide, by decide +kernel, by decide +kernel, by decide +kernel⟩

end Barbershop
