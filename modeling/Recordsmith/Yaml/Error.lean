import Recordsmith.Steps
import Recordsmith.Text.Quoted

/-! What can be wrong with a YAML text. -/

namespace Recordsmith.Yaml

/-- A scalar that is tagged as something it cannot be, or that escapes what is no code point. -/
inductive ScalarFault
  | integer (text : String) (base : Nat)
  | float (text : String)
  | truth (text : String)
  | date (reason : String)
  | emptyNumber
  | noDate
  /-- The number of no code point. -/
  | noCodePoint
  /-- A number that is too large to be looked up. -/
  | hugeNumber
  deriving DecidableEq, Repr

def ScalarFault.message : ScalarFault → String
  | .integer text base => "invalid literal for int() with base " ++ toString base ++ ": " ++ Text.quoted text
  | .float text => "could not convert string to float: " ++ Text.quoted text
  | .truth text => Text.quoted text
  | .date reason => reason
  | .emptyNumber => "string index out of range"
  | .noDate => "'NoneType' object has no attribute 'groupdict'"
  | .noCodePoint => "chr() arg not in range(0x110000)"
  | .hugeNumber => "Python int too large to convert to C int"

inductive YamlError
  | malformed
  | fault (f : ScalarFault)
  deriving DecidableEq, Repr

/-- A result that a text must give, or it is malformed. -/
def orMalformed {α : Type} : Option α → Except YamlError α
  | some a => .ok a
  | none => .error .malformed

theorem orMalformed_eq_ok {α : Type} {o : Option α} {a : α} (h : orMalformed o = .ok a) : o = some a := by
  cases o with
  | none => cases h
  | some b => exact congrArg some (Except.ok.inj h)

def orFault {α : Type} : Except ScalarFault α → Except YamlError α
  | .ok a => .ok a
  | .error f => .error (.fault f)

end Recordsmith.Yaml
