/-! Sets of code points given as a list of closed ranges. -/

namespace Recordsmith.Text

/-- Whether a code point lies in one of the ranges. -/
def inRanges (ranges : List (Nat × Nat)) (n : Nat) : Bool := ranges.any fun range => range.1 ≤ n && n ≤ range.2

end Recordsmith.Text
