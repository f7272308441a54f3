import Recordsmith.Text.Lines
import Recordsmith.Text.Width

/-! Fitting text into columns: tabs, breaking lines between words, cutting, and padding. -/

namespace Recordsmith.Console

/-- Characters that would move the cursor are not printed. -/
def withoutControls (text : List Char) : List Char := text.filter fun c => !([7, 8, 11, 12, 13].contains c.toNat)

def tabWidth : Nat := 8

/-- A line with its tabs filled up with spaces to the next tab stop, starting at a column. -/
def expandTabs (column : Nat) : List Char → List Char
  | [] => []
  | c :: rest =>
    if c = '\t' then
      let size := tabWidth - column % tabWidth
      List.replicate size ' ' ++ expandTabs (column + size) rest
    else c :: expandTabs (column + Text.charWidth c) rest

/-! ### Breaking lines -/

/-- The first word of a line with the blanks before and after it, and what follows. -/
def wordRun? (line : List Char) : Option (List Char × List Char) :=
  let lead := line.takeWhile Text.isBlank
  let rest := line.drop lead.length
  let word := rest.takeWhile (!Text.isBlank ·)
  let gap := (rest.drop word.length).takeWhile Text.isBlank
  if word = [] then none else some (lead ++ word ++ gap, rest.drop (word.length + gap.length))

theorem length_wordRun? {line run rest : List Char} (h : wordRun? line = some (run, rest)) : rest.length < line.length := by
  simp only [wordRun?] at h
  split at h
  · cases h
  · rename_i hword
    obtain ⟨-, rfl⟩ := Prod.mk.inj (Option.some.inj h)
    have hpos := List.length_pos_iff.mpr hword
    have hle := (List.takeWhile_prefix (!Text.isBlank ·) (l := line.drop (line.takeWhile Text.isBlank).length)).length_le
    simp only [List.length_drop] at hle ⊢
    omega

/-- The words of a line with the blanks after each of them, and before the first. -/
def wordRuns (line : List Char) : List (List Char) :=
  match _h : wordRun? line with
  | none => []
  | some (run, rest) => run :: wordRuns rest
termination_by line.length
decreasing_by exact length_wordRun? _h

/-- The text cut into pieces that each fit the width. -/
def chop (width : Nat) : Nat → List Char → List (List Char)
  | _, [] => [[]]
  | column, c :: rest =>
    let size := Text.charWidth c
    let fits := column + size ≤ width
    match chop width (if fits then column + size else size) rest with
    | [] => [[c]]
    | piece :: more => if fits then (c :: piece) :: more else [] :: (c :: piece) :: more

/-- Where pieces that follow each other start, except at the start of the line. -/
def pieceStarts (start : Nat) : List (List Char) → List Nat
  | [] => []
  | piece :: more => (if start = 0 then [] else [start]) ++ pieceStarts (start + piece.length) more

/-- Where a line breaks, given its words, the position of the first of them and the columns taken before it. A word
    that fits no line is cut into pieces if `fold` says so, and runs over its line if not. -/
def breakPositions (fold : Bool) (width : Nat) : Nat → Nat → List (List Char) → List Nat
  | _, _, [] => []
  | start, column, run :: rest =>
    let size := Text.textWidth (Text.trimEnd run)
    let next := start + run.length
    let here := if start = 0 then [] else [start]
    if column + size ≤ width then breakPositions fold width next (column + Text.textWidth run) rest
    else if width < size then
      if fold then
        let pieces := chop width 0 run
        pieceStarts start pieces ++
          breakPositions fold width next (Text.textWidth (pieces.getLast?.getD [])) rest
      else here ++ breakPositions fold width next (Text.textWidth run) rest
    else here ++ breakPositions fold width next (Text.textWidth run) rest

/-- A line cut at positions that grow. -/
def cutAt (start : Nat) : List Nat → List Char → List (List Char)
  | [], line => [line]
  | position :: more, line => line.take (position - start) :: cutAt position more (line.drop (position - start))

/-- A line without the blanks at its end that stand beyond the width. -/
def trimBeyond (width : Nat) (line : List Char) : List Char :=
  let blanks := (line.reverse.takeWhile Text.isBlank).length
  line.take (line.length - min blanks (line.length - width))

/-! ### Cutting and padding -/

/-- The start of a line that fits a width, and the columns that it takes. -/
def fitting (width : Nat) : Nat → List Char → List Char × Nat
  | column, [] => ([], column)
  | column, c :: rest =>
    if column + Text.charWidth c ≤ width then
      let (taken, last) := fitting width (column + Text.charWidth c) rest
      (c :: taken, last)
    else ([], column)

/-- The line cut to a width. A character that would cross the edge leaves a space. -/
def cropped (width : Nat) (line : List Char) : List Char :=
  let (taken, column) := fitting width 0 line
  taken ++ List.replicate (width - column) ' '

def ellipsis : Char := Char.ofNat 0x2026

/-- The line cut to a width, with a mark where something is missing if it is not `fold`ed. -/
def truncated (fold : Bool) (width : Nat) (line : List Char) : List Char :=
  if Text.textWidth line ≤ width then line
  else if fold then cropped width line
  else cropped (width - 1) line ++ [ellipsis]

inductive Justify
  | plain
  | left
  | center
  deriving DecidableEq, Repr

def padRight (width : Nat) (line : List Char) : List Char :=
  line ++ List.replicate (width - Text.textWidth line) ' '

/-- A line set into a width. When it cannot stand in the very middle it stands to the left. -/
def justified (justify : Justify) (fold : Bool) (width : Nat) (line : List Char) : List Char :=
  match justify with
  | .plain => truncated fold width line
  | .left => padRight width (truncated fold width line)
  | .center =>
    let line := truncated fold width (Text.trimEnd line)
    padRight width (List.replicate ((width - Text.textWidth line) / 2) ' ' ++ line)

/-- The lines of a text, each set into a width. -/
def wrap (justify : Justify) (fold : Bool) (width : Nat) (text : List Char) : List (List Char) :=
  (Text.lines text).flatMap fun line =>
    let line := if line.contains '\t' then expandTabs 0 line else line
    let positions := breakPositions fold width 0 0 (wordRuns line)
    (cutAt 0 positions line).map fun part => justified justify fold width (trimBeyond width part)

end Recordsmith.Console
