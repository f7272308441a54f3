import Recordsmith.Code.Renderer
import Recordsmith.Text.Blank

/-!
Java members, as in

    public User(String name, int age) {
        this.name = name;
        this.age = age;
    }

    public User name(String value) {
        return new User(value, age);
    }

Constructors are never inherited here, so a required one is written like any other.
-/

namespace Recordsmith.Code.JavaCode

/-- Of the access modifiers only `public` is a word of the language. -/
def keyword (word : Option String) : String := if word = some "public" then "public " else ""

/-- The type inside its own declaration, with its type parameters. -/
def selfType (d : Declaration) : String :=
  if d.typeParameters.isEmpty then d.name else d.name ++ "<" ++ Text.join ", " d.typeParameters ++ ">"

def constructor (c : Constructor) (d : Declaration) (indent : String) : String :=
  let parameters := Text.join ", " (c.parameters.map fun p => p.type ++ " " ++ p.name)
  let assignments := c.assignments.map fun name => indent ++ "this." ++ name ++ " = " ++ name ++ ";"
  Text.join "\n" ([keyword c.accessModifier ++ d.name ++ "(" ++ parameters ++ ") \x7b"] ++ assignments ++ ["\x7d"])

/-- An argument is positional, and read through `this` where the parameter hides the field. -/
def argument (a : Argument) : String := if a.viaReceiver then "this." ++ a.expression else a.expression

def wither (w : Wither) (d : Declaration) (indent : String) : String :=
  let diamond := if d.typeParameters.isEmpty then "" else "<>"
  let parameter := w.parameter.type ++ " " ++ w.parameter.name
  Text.join "\n" [
    keyword w.accessModifier ++ selfType d ++ " " ++ w.name ++ "(" ++ parameter ++ ") \x7b",
    indent ++ "return new " ++ d.name ++ diamond ++ "(" ++ Text.join ", " (w.arguments.map argument) ++ ");",
    "\x7d"]

def renderer : Renderer := ⟨constructor, wither⟩

end Recordsmith.Code.JavaCode
