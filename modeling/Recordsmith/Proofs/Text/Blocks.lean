import Mathlib.Data.List.Basic
import Recordsmith.Proofs.Text.LineBreaks
import Recordsmith.Proofs.Text.Lines

/-!
Blocks of lines. Splitting a text into lines and joining lines are inverse to each other, so blocks that are written with
an empty line between each two are found again by splitting at the blank lines, as long as no line of a block is blank.
Indenting a block works line by line and keeps blank lines blank, so indenting twice is indenting once by both.
-/

namespace Recordsmith.Text
variable {text indent : List Char}

/-! ### Lines of joined lines -/

theorem splitAt_eq_splitOnP (p : Char → Bool) (text : List Char) : splitAt p text = text.splitOnP p := by
  induction text with
  | nil => rfl
  | cons c rest ih =>
    obtain ⟨piece, more, hsplit⟩ := List.exists_cons_of_ne_nil (splitAt_ne_nil (p := p) rest)
    rw [splitAt, List.splitOnP_cons_eq_if_modifyHead, ← ih, hsplit]
    rfl

theorem splitAt_joinWith {mark : Char} {pieces : List (List Char)} (hne : pieces ≠ [])
    (h : ∀ piece ∈ pieces, mark ∉ piece) : splitAt (· == mark) (joinWith [mark] pieces) = pieces := by
  rw [splitAt_eq_splitOnP, joinWith_eq_intercalate, ← List.splitOn_eq_splitOnP]
  exact List.splitOn_intercalate mark h hne

theorem lines_unlines {pieces : List (List Char)} (hne : pieces ≠ []) (h : ∀ piece ∈ pieces, '\n' ∉ piece) :
    lines (unlines pieces) = pieces := splitAt_joinWith hne h

theorem not_mem_of_mem_lines {line : List Char} (h : line ∈ lines text) : '\n' ∉ line := by
  intro hmem
  have hbreak := (mem_splitAt h hmem).2
  cases hbreak

theorem unlines_append {a b : List (List Char)} (ha : a ≠ []) (hb : b ≠ []) :
    unlines (a ++ b) = unlines a ++ '\n' :: unlines b := by
  unfold unlines
  induction a with
  | nil => exact absurd rfl ha
  | cons line more ih =>
    cases more with
    | nil =>
      rw [List.singleton_append, joinWith_cons_of_ne_nil hb, List.append_assoc, List.singleton_append]
      rfl
    | cons next rest =>
      rw [List.cons_append, joinWith_cons_of_ne_nil (by simp), joinWith_cons_of_ne_nil (by simp), ih (by simp),
        List.append_assoc (line ++ ['\n'])]

/-- Only a text that starts with a line break, or is empty, has an empty first line. -/
theorem exists_cons_of_lines {line : List Char} {more : List (List Char)} (h : lines text = line :: more) (hne : line ≠ []) :
    ∃ c rest, text = c :: rest ∧ c ≠ '\n' := by
  cases text with
  | nil => exact absurd (List.cons.inj h).1.symm hne
  | cons c rest =>
    refine ⟨c, rest, rfl, ?_⟩
    rintro rfl
    exact hne (List.cons.inj h).1.symm

/-! ### Blocks -/

/-- Blocks with an empty line between each two are the lines of all of them with an empty one between. -/
theorem joinWith_unlines {blocks : List (List (List Char))} (h : ∀ block ∈ blocks, block ≠ []) :
    joinWith ['\n', '\n'] (blocks.map unlines) = unlines ([[]].intercalate blocks) := by
  induction blocks with
  | nil => rfl
  | cons block more ih =>
    have hblock : block ≠ [] := h block (List.mem_cons_self ..)
    have hmore : ∀ other ∈ more, other ≠ [] := fun other hother => h other (List.mem_cons_of_mem _ hother)
    cases more with
    | nil => rw [List.intercalate_singleton]; rfl
    | cons next rest =>
      have hrest : [[]].intercalate (next :: rest) ≠ [] := by
        cases rest with
        | nil => rw [List.intercalate_singleton]; exact hmore next (List.mem_cons_self ..)
        | cons other others => rw [List.intercalate_cons_cons]; simp
      rw [List.map_cons, joinWith_cons_of_ne_nil (by simp), ih hmore, List.intercalate_cons_cons,
        List.append_assoc block, unlines_append hblock (by simp), unlines_append (List.cons_ne_nil _ _) hrest,
        List.append_assoc]
      rfl

theorem splitOnP_intercalate {α : Type} {p : α → Bool} {mark : α} (hmark : p mark = true) {blocks : List (List α)}
    (hne : blocks ≠ []) (h : ∀ block ∈ blocks, ∀ x ∈ block, p x = false) :
    ([mark].intercalate blocks).splitOnP p = blocks := by
  induction blocks with
  | nil => exact absurd rfl hne
  | cons block more ih =>
    have hblock := h block (List.mem_cons_self ..)
    cases more with
    | nil => rw [List.intercalate_singleton, List.splitOnP_eq_singleton hblock]
    | cons next rest =>
      rw [List.intercalate_cons_cons, List.append_assoc, List.singleton_append,
        List.splitOnP_append_cons_of_forall_mem hblock mark hmark, ih (by simp)]
      exact fun other hother => h other (List.mem_cons_of_mem _ hother)

/-! ### Indented blocks -/

section Indenting
variable {p q line : List Char}

/-- A line of an indented block. -/
def indentLine (indent line : List Char) : List Char := if line.all isBlank then line else indent ++ line

theorem indentLine_of_blank (indent : List Char) (h : line.all isBlank = true) : indentLine indent line = line :=
  if_pos h

theorem indentLine_of_visible (indent : List Char) (h : line.all isBlank = false) :
    indentLine indent line = indent ++ line := if_neg (by simp [h])

theorem indentLine_nil (line : List Char) : indentLine [] line = line := ite_self line

/-- What is not blank stays so behind an indentation, whatever this is made of. -/
theorem all_isBlank_indentLine (indent line : List Char) : (indentLine indent line).all isBlank = line.all isBlank := by
  cases h : line.all isBlank with
  | true => rw [indentLine_of_blank indent h, h]
  | false => rw [indentLine_of_visible indent h, List.all_append, h, Bool.and_false]

theorem indentLine_indentLine (p q line : List Char) : indentLine q (indentLine p line) = indentLine (q ++ p) line := by
  have hall := all_isBlank_indentLine p line
  cases h : line.all isBlank with
  | true => rw [indentLine_of_blank q (hall.trans h), indentLine_of_blank p h, indentLine_of_blank _ h]
  | false =>
    rw [indentLine_of_visible q (hall.trans h), indentLine_of_visible p h, indentLine_of_visible _ h, List.append_assoc]

theorem indentBlock_eq (text indent : List Char) :
    indentBlock text indent = unlines ((lines text).map (indentLine indent)) := rfl

theorem indentBlock_of_solid (h : ∀ line ∈ lines text, line.all isBlank = false) :
    indentBlock text indent = unlines ((lines text).map (indent ++ ·)) := by
  rw [indentBlock_eq]
  exact congrArg unlines (List.map_congr_left fun line hline => indentLine_of_visible indent (h line hline))

theorem lines_ne_nil (text : List Char) : lines text ≠ [] := splitAt_ne_nil text

theorem lines_indentBlock (text : List Char) (hindent : '\n' ∉ indent) :
    lines (indentBlock text indent) = (lines text).map (indentLine indent) := by
  rw [indentBlock_eq]
  refine lines_unlines (by simpa using lines_ne_nil text) fun piece hpiece => ?_
  obtain ⟨line, hline, rfl⟩ := List.mem_map.mp hpiece
  have hbreak := not_mem_of_mem_lines hline
  cases h : line.all isBlank with
  | true => rwa [indentLine_of_blank indent h]
  | false =>
    rw [indentLine_of_visible indent h]
    exact fun hmem => (List.mem_append.mp hmem).elim hindent hbreak

theorem lines_append_break (text other : List Char) : lines (text ++ '\n' :: other) = lines text ++ lines other := by
  simp only [lines, splitAt_eq_splitOnP]
  exact List.splitOnP_append_cons text other (beq_self_eq_true '\n')

/-- A block that is indented twice is indented once, the later indentation in front of the earlier one. An empty
    indentation changes nothing. Every line keeps its place, blank lines as they are and others behind the indentation,
    and of two blocks one below the other each is indented by itself. -/
theorem block_indentation_composes (text other q : List Char) (hp : '\n' ∉ p) :
    indentBlock (indentBlock text p) q = indentBlock text (q ++ p) ∧
    indentBlock text [] = text ∧
    (lines (indentBlock text p)).length = (lines text).length ∧
    (∀ (i : Nat) (line : List Char), (lines text)[i]? = some line → line.all isBlank = true →
      (lines (indentBlock text p))[i]? = some line) ∧
    (∀ (i : Nat) (line : List Char), (lines text)[i]? = some line → line.all isBlank = false →
      (lines (indentBlock text p))[i]? = some (p ++ line)) ∧
    indentBlock (text ++ '\n' :: other) p = indentBlock text p ++ '\n' :: indentBlock other p := by
  have hlines := lines_indentBlock text hp
  refine ⟨?_, ?_, ?_, ?_, ?_, ?_⟩
  · rw [indentBlock_eq (indentBlock text p), hlines, List.map_map, indentBlock_eq text]
    exact congrArg unlines (List.map_congr_left fun line _ => indentLine_indentLine p q line)
  · rw [indentBlock_eq, List.map_congr_left fun line _ => indentLine_nil line, List.map_id', unlines_lines]
  · rw [hlines, List.length_map]
  · intro i line hi hblank
    rw [hlines, List.getElem?_map, hi, Option.map_some, indentLine_of_blank p hblank]
  · intro i line hi hvisible
    rw [hlines, List.getElem?_map, hi, Option.map_some, indentLine_of_visible p hvisible]
  · rw [indentBlock_eq, lines_append_break, List.map_append]
    exact unlines_append (by simpa using lines_ne_nil text) (by simpa using lines_ne_nil other)

/-- A block with lines that hold a wide blank or a return only, and nothing behind its last line break. -/
def blankedBlock : List Char := "\nlet x\n\u3000\n\r\n  y\n".toList

theorem block_indentation_composes_blanked :
    '\n' ∉ ['\t', 'p'] ∧
    indentBlock (indentBlock blankedBlock ['\t', 'p']) [' '] = "\n \tplet x\n\u3000\n\r\n \tp  y\n".toList ∧
    (lines (indentBlock blankedBlock ['\t', 'p']))[2]? = some ['\u3000'] := by
  have hindent : '\n' ∉ ['\t', 'p'] := by decide
  obtain ⟨htwice, -, -, hblank, -⟩ := block_indentation_composes blankedBlock [] [' '] hindent
  exact ⟨hindent, htwice.trans (by decide), hblank 2 ['\u3000'] (by decide) (by decide)⟩

end Indenting

/-! ### Line breaks read back -/

/-- The text with the given line break read as `\n`. -/
def readBreaks : LineBreak → List Char → List Char
  | .lf, text => text
  | .crlf, '\r' :: '\n' :: rest => '\n' :: readBreaks .crlf rest
  | .crlf, c :: rest => c :: readBreaks .crlf rest
  | .crlf, [] => []

theorem readBreaks_crlf_cons {c : Char} (hc : c ≠ '\r') (rest : List Char) :
    readBreaks .crlf (c :: rest) = c :: readBreaks .crlf rest := by
  rw [readBreaks]
  rintro rest' rfl
  exact absurd rfl hc

theorem readBreaks_withBreaks (mark : LineBreak) (h : '\r' ∉ text) : readBreaks mark (withBreaks mark text) = text := by
  cases mark with
  | lf => rw [withBreaks_lf, readBreaks]
  | crlf =>
    induction text with
    | nil => rfl
    | cons c rest ih =>
      obtain ⟨hc, hrest⟩ := not_or.mp (mt List.mem_cons.mpr h)
      rw [withBreaks_cons]
      split
      · rename_i hn
        rw [eq_of_beq hn]
        exact congrArg ('\n' :: ·) (ih hrest)
      · rw [List.singleton_append, readBreaks_crlf_cons (Ne.symm hc), ih hrest]

end Recordsmith.Text
