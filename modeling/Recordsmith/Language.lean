/-! The source languages. -/

namespace Recordsmith

inductive Language
  | swift
  | java
  deriving DecidableEq, Repr, Inhabited

namespace Language

/-- Every language, in the order in which they are offered. -/
def all : List Language := [.swift, .java]

def name : Language → String
  | .swift => "swift"
  | .java => "java"

def title : Language → String
  | .swift => "Swift"
  | .java => "Java"

/-- The language of a name in exactly this spelling. -/
def ofName? (name : String) : Option Language := all.find? (·.name == name)

/-- The language of a name in any mixture of upper and lower case. No character outside ASCII folds to a letter of
    a language's name, so folding ASCII decides it. -/
def ofText? (text : String) : Option Language := ofName? text.toLower

/-- A list of language names as messages show it. -/
def listing (names : List String) : String :=
  "[" ++ ", ".intercalate (names.map fun name => "'" ++ name ++ "'") ++ "]"

@[simp] theorem ofName?_name (l : Language) : ofName? l.name = some l := by cases l <;> decide

end Language

end Recordsmith
