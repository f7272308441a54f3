import Recordsmith.Text.Blank

/-! Lines: the line break a text uses, the indentation of a line, and prefixing the lines of a block. -/

namespace Recordsmith.Text

/-! ### Line breaks -/

inductive LineBreak
  | lf
  | crlf
  deriving DecidableEq, Repr

def LineBreak.chars : LineBreak → List Char
  | .lf => ['\n']
  | .crlf => ['\r', '\n']

/-- One `\r\n` anywhere makes it the line break of the whole text. -/
def lineBreak : List Char → LineBreak
  | '\r' :: '\n' :: _ => .crlf
  | _ :: rest => lineBreak rest
  | [] => .lf

/-- The text with every `\n` written as the given line break. -/
def withBreaks (mark : LineBreak) (text : List Char) : List Char :=
  text.flatMap fun c => if c == '\n' then mark.chars else [c]

/-- Reads `\r\n` and a lone `\r` as `\n`. -/
def unifyBreaks : List Char → List Char
  | '\r' :: '\n' :: rest => '\n' :: unifyBreaks rest
  | '\r' :: rest => '\n' :: unifyBreaks rest
  | c :: rest => c :: unifyBreaks rest
  | [] => []

def lines (text : List Char) : List (List Char) := splitAt (· == '\n') text

def unlines (pieces : List (List Char)) : List Char := joinWith ['\n'] pieces

/-! ### Indentation -/

/-- The offset at which the line holding `position` starts. -/
def lineStart (text : List Char) (position : Nat) : Nat :=
  let before := text.take position
  before.length - (before.reverse.takeWhile (· ≠ '\n')).length

/-- The spaces and tabs that open the line holding `position`. -/
def lineIndent (text : List Char) (position : Nat) : List Char :=
  (text.drop (lineStart text position)).takeWhile isIndent

/-- Puts `indent` in front of every line that is not blank. -/
def indentBlock (text indent : List Char) : List Char :=
  unlines ((lines text).map fun line => if line.all isBlank then line else indent ++ line)

/-! ### Gaps -/

/-- How many characters separate a mark from what it stands before: a run of spaces and tabs, and if a line break
    follows, that line break and the indentation of the next line. -/
def gapLength (rest : List Char) : Nat :=
  let run := (rest.takeWhile isIndent).length
  match rest.drop run with
  | '\n' :: more => run + 1 + (more.takeWhile isIndent).length
  | '\r' :: '\n' :: more => run + 2 + (more.takeWhile isIndent).length
  | _ => run

/-- Where the gap that opens at `position` ends. -/
def gapEnd (text : List Char) (position : Nat) : Nat := position + gapLength (text.drop position)

end Recordsmith.Text
