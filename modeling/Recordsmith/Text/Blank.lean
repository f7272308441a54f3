/-! Blank characters: which characters separate words, and trimming and splitting a text at them. -/

namespace Recordsmith.Text

/-- The separators of every script, and the control characters that only move the print position. -/
def isBlank (c : Char) : Bool :=
  let n := c.toNat
  (9 ≤ n && n ≤ 13) || (28 ≤ n && n ≤ 32) || n == 0x85 || n == 0xA0 || n == 0x1680 || (0x2000 ≤ n && n ≤ 0x200A) ||
    n == 0x2028 || n == 0x2029 || n == 0x202F || n == 0x205F || n == 0x3000

/-- A space or a tab: what indentation is made of. -/
def isIndent (c : Char) : Bool := c == ' ' || c == '\t'

/-- The text without the blanks at its end. -/
def trimEnd (text : List Char) : List Char := (text.reverse.dropWhile isBlank).reverse

/-- The text without the blanks at both ends. -/
def trim (text : List Char) : List Char := trimEnd (text.dropWhile isBlank)

/-- The pieces between the characters that `p` accepts; `n` of them leave `n + 1` pieces. -/
def splitAt (p : Char → Bool) : List Char → List (List Char)
  | [] => [[]]
  | c :: rest =>
    if p c then [] :: splitAt p rest
    else match splitAt p rest with
      | [] => [[c]]
      | piece :: more => (c :: piece) :: more

/-- The pieces with `separator` between each two of them. -/
def joinWith (separator : List Char) : List (List Char) → List Char
  | [] => []
  | [piece] => piece
  | piece :: more => piece ++ separator ++ joinWith separator more

/-- The maximal runs of characters that are not blank. -/
def words (text : List Char) : List (List Char) := (splitAt isBlank text).filter (· ≠ [])

/-- The pieces with `separator` between each two of them. -/
def join (separator : String) : List String → String
  | [] => ""
  | [piece] => piece
  | piece :: more => piece ++ separator ++ join separator more

/-- What follows the last `mark`, or the whole text where there is none. -/
def afterLast (mark : Char) (text : List Char) : List Char := (text.reverse.takeWhile (· ≠ mark)).reverse

end Recordsmith.Text
