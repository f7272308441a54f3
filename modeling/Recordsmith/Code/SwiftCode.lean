import Recordsmith.Code.Renderer
import Recordsmith.Text.Blank

/-!
Swift members, as in

    public init(name: String, age: Int) {
        self.name = name
        self.age = age
    }

    public func name(_ value: String) -> Self {
        Self.init(name: value, age: age)
    }
-/

namespace Recordsmith.Code.SwiftCode

/-- A keyword with the blank after it, or nothing. -/
def keyword (word : Option String) : String :=
  match word with
  | none => ""
  | some word => if word = "" then "" else word ++ " "

def constructor (c : Constructor) (_ : Declaration) (indent : String) : String :=
  let head := (if c.required then "required " else "") ++ keyword c.accessModifier
  let parameters := Text.join ", " (c.parameters.map fun p => p.name ++ ": " ++ p.type)
  let assignments := c.assignments.map fun name => indent ++ "self." ++ name ++ " = " ++ name
  Text.join "\n" ([head ++ "init(" ++ parameters ++ ") \x7b"] ++ assignments ++ ["\x7d"])

/-- An argument is labelled, and read through `self` where the parameter hides the field. -/
def argument (a : Argument) : String :=
  a.label ++ ": " ++ (if a.viaReceiver then "self." ++ a.expression else a.expression)

def wither (w : Wither) (_ : Declaration) (indent : String) : String :=
  let signature := "func " ++ w.name ++ "(_ " ++ w.parameter.name ++ ": " ++ w.parameter.type ++ ") -> Self \x7b"
  Text.join "\n" [
    keyword w.accessModifier ++ signature,
    indent ++ "Self.init(" ++ Text.join ", " (w.arguments.map argument) ++ ")",
    "\x7d"]

def renderer : Renderer := ⟨constructor, wither⟩

end Recordsmith.Code.SwiftCode
