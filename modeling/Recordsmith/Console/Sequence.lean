/-!
Escape sequences: commands to a terminal that stand inside a text. Where a text is printed as it is, and no terminal shows
it, they are left out.
-/

namespace Recordsmith.Console

/-- What may stand between the opening of an escape sequence and its last letter. -/
def isParameter (c : Char) : Bool := c.isDigit || c == ';' || c == '?'

/-- How many characters the escape sequence takes that opens a text. -/
def sequenceLength? : List Char → Option Nat
  | '\x1b' :: '[' :: rest =>
    let parameters := (rest.takeWhile isParameter).length
    match rest.drop parameters with
    | c :: _ => if c.isAlpha then some (parameters + 3) else none
    | [] => none
  | _ => none

/-- A text without its escape sequences. Its first `skip` characters belong to one that has been found already. -/
def withoutSequencesAfter : Nat → List Char → List Char
  | _, [] => []
  | skip + 1, _ :: rest => withoutSequencesAfter skip rest
  | 0, c :: rest =>
    match sequenceLength? (c :: rest) with
    | some length => withoutSequencesAfter (length - 1) rest
    | none => c :: withoutSequencesAfter 0 rest

/-- A text without its escape sequences. -/
def withoutSequences (text : List Char) : List Char := withoutSequencesAfter 0 text

end Recordsmith.Console
