import Mathlib.Data.List.Basic

/-!
# Folded lines

A text of content lines ends each of them with a carriage return and a line feed. A long line is folded:
it is cut into parts, and each part after the first stands on a line of its own, after one space. When
no line has a break or begins with a space, taking out the breaks that a space follows gives back the
lines that were folded (`linesOf_unfold`).
-/

namespace Lib.Folding

/-- A text without a carriage return or a line feed. -/
def Unbroken (text : List Char) : Prop := ∀ c ∈ text, c ≠ '\r' ∧ c ≠ '\n'

instance (text : List Char) : Decidable (Unbroken text) :=
  List.decidableBAll (fun c => c ≠ '\r' ∧ c ≠ '\n') text

def CRLF : List Char := ['\r', '\n']

/-! ## Reading -/

/-- The breaks that a space follows are taken out, with that space. -/
def unfold : List Char → List Char
  | '\r' :: '\n' :: ' ' :: rest => unfold rest
  | c :: rest => c :: unfold rest
  | [] => []

/-- The lines of a text; what follows the last break is the last of them. -/
def linesOf : List Char → List (List Char)
  | '\r' :: '\n' :: rest => [] :: linesOf rest
  | c :: rest => (linesOf rest).modifyHead (c :: ·)
  | [] => [[]]

/-! ## Writing -/

/-- The parts of a line as they are written. -/
def joinParts (parts : List (List Char)) : List Char := (CRLF ++ [' ']).intercalate parts

/-- Lines, each with its break. -/
def ended (lines : List (List Char)) : List Char := lines.flatMap (· ++ CRLF)

/-- The physical lines of parts: a space stands before each part but the first. -/
def physical : List (List Char) → List (List Char)
  | [] => []
  | part :: parts => part :: parts.map (' ' :: ·)

theorem joinParts_crlf (part : List Char) (parts : List (List Char)) :
    joinParts (part :: parts) ++ CRLF = ended (physical (part :: parts)) := by
  unfold joinParts
  induction parts generalizing part with
  | nil => simp [ended, physical]
  | cons next parts ih =>
    rw [List.intercalate_cons_cons, List.append_assoc, ih next]
    simp [ended, physical]

/-- Lines joined by breaks, with one at the end. -/
theorem intercalate_crlf {lines : List (List Char)} (hne : lines ≠ []) :
    CRLF.intercalate lines ++ CRLF = ended lines := by
  induction lines with
  | nil => exact absurd rfl hne
  | cons line lines ih =>
    cases lines with
    | nil => simp [ended]
    | cons next lines =>
      rw [List.intercalate_cons_cons, List.append_assoc, ih (by simp)]
      simp [ended]

/-! ## The lines of a text -/

theorem unbroken_cons {c : Char} {text : List Char} :
    Unbroken (c :: text) ↔ (c ≠ '\r' ∧ c ≠ '\n') ∧ Unbroken text :=
  List.forall_mem_cons

theorem Unbroken.append {a b : List Char} (ha : Unbroken a) (hb : Unbroken b) : Unbroken (a ++ b) :=
  fun c hc => (List.mem_append.1 hc).elim (ha c) (hb c)

theorem Unbroken.mono {a b : List Char} (h : Unbroken b) (hsub : ∀ c ∈ a, c ∈ b) : Unbroken a :=
  fun c hc => h c (hsub c hc)

theorem linesOf_line {line : List Char} (h : Unbroken line) (rest : List Char) :
    linesOf (line ++ CRLF ++ rest) = line :: linesOf rest := by
  induction line with
  | nil => rfl
  | cons c line ih =>
    obtain ⟨⟨hc, -⟩, hline⟩ := unbroken_cons.1 h
    rw [List.cons_append, List.cons_append, linesOf, ih hline, List.modifyHead_cons]
    rintro rest' rfl
    exact absurd rfl hc

/-- Lines without breaks are read back. -/
theorem linesOf_ended {lines : List (List Char)} (h : ∀ line ∈ lines, Unbroken line) :
    linesOf (ended lines) = lines ++ [[]] := by
  induction lines with
  | nil => rfl
  | cons line lines ih =>
    rw [ended, List.flatMap_cons, ← ended, linesOf_line (h line (by simp)),
      ih fun l hl => h l (List.mem_cons_of_mem line hl), List.cons_append]

theorem unfold_line {line : List Char} (h : Unbroken line) (rest : List Char) :
    unfold (line ++ rest) = line ++ unfold rest := by
  induction line with
  | nil => rfl
  | cons c line ih =>
    obtain ⟨⟨hc, -⟩, hline⟩ := unbroken_cons.1 h
    rw [List.cons_append, List.cons_append, unfold, ih hline]
    rintro rest' rfl
    exact absurd rfl hc

/-- A break that no space follows stays. -/
theorem unfold_crlf {rest : List Char} (h : rest.head? ≠ some ' ') :
    unfold (CRLF ++ rest) = CRLF ++ unfold rest := by
  unfold CRLF
  rw [List.cons_append, List.cons_append, List.nil_append, unfold, unfold]
  · rfl
  · simp
  · rintro rest' - heq
    obtain ⟨-, rfl⟩ := List.cons.inj heq
    exact h rfl

theorem unfold_joinParts {parts : List (List Char)} (h : ∀ part ∈ parts, Unbroken part)
    (rest : List Char) : unfold (joinParts parts ++ rest) = parts.flatten ++ unfold rest := by
  unfold joinParts
  induction parts with
  | nil => rfl
  | cons part parts ih =>
    have hpart := h part (by simp)
    cases parts with
    | nil => simp [unfold_line hpart]
    | cons next parts =>
      rw [List.intercalate_cons_cons, List.append_assoc, List.append_assoc, List.append_assoc,
        unfold_line hpart, List.flatten_cons, List.append_assoc]
      congr 1
      exact ih fun p hp => h p (List.mem_cons_of_mem part hp)

/-- What was written of the parts of lines, unfolded. -/
theorem unfold_ended {lines : List (List (List Char))}
    (h : ∀ parts ∈ lines, ∀ part ∈ parts, Unbroken part)
    (hspace : ∀ parts ∈ lines, (joinParts parts).head? ≠ some ' ') :
    unfold (ended (lines.map joinParts)) = ended (lines.map List.flatten) := by
  induction lines with
  | nil => rfl
  | cons parts lines ih =>
    have hrest := ih (fun p hp => h p (List.mem_cons_of_mem parts hp))
      fun p hp => hspace p (List.mem_cons_of_mem parts hp)
    have hhead : (ended (lines.map joinParts)).head? ≠ some ' ' := by
      cases lines with
      | nil => simp [ended]
      | cons next lines =>
        have hnext := hspace next (by simp)
        rw [ended, List.map_cons, List.flatMap_cons, List.append_assoc, List.head?_append]
        cases hjoin : (joinParts next).head? with
        | none => simp [CRLF]
        | some c =>
          rw [hjoin] at hnext
          exact hnext
    rw [List.map_cons, List.map_cons, ended, List.flatMap_cons, ← ended, List.append_assoc,
      unfold_joinParts (h parts (by simp)), unfold_crlf hhead, hrest, ended, ended,
      List.flatMap_cons, List.append_assoc]

/-- The physical lines of folded lines are those of their parts. -/
theorem linesOf_folded {lines : List (List (List Char))}
    (h : ∀ parts ∈ lines, parts ≠ [] ∧ ∀ part ∈ parts, Unbroken part) :
    linesOf (ended (lines.map joinParts)) = lines.flatMap physical ++ [[]] := by
  have hended : ended (lines.map joinParts) = ended (lines.flatMap physical) := by
    induction lines with
    | nil => rfl
    | cons parts lines ih =>
      have hrest := ih fun p hp => h p (List.mem_cons_of_mem parts hp)
      cases parts with
      | nil => exact absurd rfl (h [] (by simp)).1
      | cons part parts =>
        rw [List.map_cons, ended, List.flatMap_cons, ← ended, joinParts_crlf, hrest]
        simp [ended]
  rw [hended]
  refine linesOf_ended fun line hline => ?_
  obtain ⟨parts, hparts, hmem⟩ := List.mem_flatMap.1 hline
  have hall := (h parts hparts).2
  cases parts with
  | nil => cases hmem
  | cons part parts =>
    rcases List.mem_cons.1 hmem with rfl | hmem
    · exact hall line (by simp)
    · obtain ⟨p, hp, rfl⟩ := List.mem_map.1 hmem
      exact unbroken_cons.2 ⟨by decide, hall p (List.mem_cons_of_mem part hp)⟩

/-- The lines that were folded are read back from what was written of them. -/
theorem linesOf_unfold {lines : List (List (List Char))}
    (h : ∀ parts ∈ lines, ∀ part ∈ parts, Unbroken part)
    (hspace : ∀ parts ∈ lines, (joinParts parts).head? ≠ some ' ') :
    linesOf (unfold (ended (lines.map joinParts))) = lines.map List.flatten ++ [[]] := by
  rw [unfold_ended h hspace]
  refine linesOf_ended fun line hline => ?_
  obtain ⟨parts, hparts, rfl⟩ := List.mem_map.1 hline
  intro c hc
  obtain ⟨part, hpart, hmem⟩ := List.mem_flatten.1 hc
  exact h parts hparts part hpart c hmem

end Lib.Folding
