import Recordsmith.Text.Ranges
import Recordsmith.Text.PrintableTable

/-! Quoted texts as messages show them: what has no glyph is written as an escape. -/

namespace Recordsmith.Text

/-- The space is the only separator that counts as printable. -/
def isPrintable (c : Char) : Bool := c == ' ' || !inRanges unprintables c.toNat

/-- The last `count` hexadecimal digits of a number. -/
def hexText (count n : Nat) : List Char :=
  (List.range count).reverse.map fun k => Nat.digitChar (n / Nat.pow 16 k % 16)

def escapeChar (quote c : Char) : List Char :=
  if c == quote || c == '\\' then ['\\', c]
  else if c == '\n' then ['\\', 'n']
  else if c == '\r' then ['\\', 'r']
  else if c == '\t' then ['\\', 't']
  else if isPrintable c then [c]
  else if c.toNat < 0x100 then '\\' :: 'x' :: hexText 2 c.toNat
  else if c.toNat < 0x10000 then '\\' :: 'u' :: hexText 4 c.toNat
  else '\\' :: 'U' :: hexText 8 c.toNat

/-- The text between quotes: single ones, unless it holds a single quote and no double one. -/
def quoted (text : String) : String :=
  let chars := text.toList
  let quote := if chars.contains '\'' && !chars.contains '"' then '"' else '\''
  String.ofList (quote :: chars.flatMap (escapeChar quote) ++ [quote])

end Recordsmith.Text
