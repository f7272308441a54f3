/-! Cutting a text at a position that may be negative, past the end, or both. -/

namespace Recordsmith.Text

/-- A negative position counts from the end of the text, and stops at its start. -/
def resolve (text : List Char) (position : Int) : Nat :=
  if position < 0 then (text.length + position).toNat else position.toNat

/-- What stands before `position`. -/
def upTo (text : List Char) (position : Int) : List Char := text.take (resolve text position)

/-- What stands from `position` on. -/
def startingAt (text : List Char) (position : Int) : List Char := text.drop (resolve text position)

end Recordsmith.Text
