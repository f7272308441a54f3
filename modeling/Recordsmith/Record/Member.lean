/-! Members of a declaration's body, and what each of them is to the record. -/

namespace Recordsmith

inductive MemberKind
  | variable
  | other
  deriving DecidableEq, Repr, Inhabited

/-- One member of a body, as the source declares it. A variable whose pattern is no plain identifier has no name. -/
structure Member where
  kind : MemberKind := .variable
  name : Option String := none
  type : Option String := none
  isMutable : Bool := false
  modifiers : List String := []
  hasInitializer : Bool := false
  hasAccessorBlock : Bool := false
  deriving DecidableEq, Repr, Inhabited

/-- What a member is to the record that declares it. -/
inductive Classification
  | stored
  | computed
  | typeLevel
  | other
  deriving DecidableEq, Repr

def Classification.text : Classification → String
  | .stored => "stored"
  | .computed => "computed"
  | .typeLevel => "static"
  | .other => "other"

namespace Member

/-- Modifiers that hide a field from outside the record. -/
def privateModifiers : List String := ["private", "fileprivate"]

/-- Modifiers that make a binding belong to the type rather than to each of its values. -/
def typeLevelModifiers : List String := ["static", "class"]

/-- Accessors decide before modifiers: a computed type-level variable counts as computed. -/
def classify (member : Member) : Classification :=
  if member.kind ≠ .variable then .other
  else if member.hasAccessorBlock then .computed
  else if member.modifiers.any (· ∈ typeLevelModifiers) then .typeLevel
  else .stored

def isPrivate (member : Member) : Bool := member.modifiers.any (· ∈ privateModifiers)

end Member

end Recordsmith
