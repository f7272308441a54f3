import Recordsmith.Text.Ranges
import Recordsmith.Text.IdentifierTable

/-! Identifiers: a letter or underscore, then letters, digits, marks and connectors of any script. -/

namespace Recordsmith.Text

def opensIdentifier (c : Char) : Bool := inRanges identifierStarts c.toNat

def extendsIdentifier (c : Char) : Bool := opensIdentifier c || inRanges identifierExtenders c.toNat

/-- Reserved words count as identifiers. -/
def isIdentifier (text : String) : Bool :=
  match text.toList with
  | [] => false
  | c :: rest => opensIdentifier c && rest.all extendsIdentifier

end Recordsmith.Text
