import Recordsmith.Text.Ranges
import Recordsmith.Text.WidthTable
import Recordsmith.Total

/-! Columns: how much room a text takes on a terminal. -/

namespace Recordsmith.Text

/-- The columns of one character. -/
def charWidth (c : Char) : Nat :=
  if inRanges zeroWidths c.toNat then 0
  else if inRanges doubleWidths c.toNat then 2
  else 1

/-- The columns of a text that holds no line break. -/
def textWidth (text : List Char) : Nat := total (text.map charWidth)

end Recordsmith.Text
