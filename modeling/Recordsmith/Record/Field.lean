import Recordsmith.Record.Declaration

/-! Stored fields, and which of them generated code can speak of. -/

namespace Recordsmith

/-- A stored field of a record. -/
structure Field where
  name : Option String
  type : Option String
  isMutable : Bool := false
  isPrivate : Bool := false
  hasDefault : Bool := false
  deriving DecidableEq, Repr, Inhabited

/-- Why generated code cannot speak of a field. -/
inductive Gap
  | noName
  | noType
  deriving DecidableEq, Repr

def Gap.reason : Gap → String
  | .noName => "binding pattern is not a plain identifier"
  | .noType => "missing explicit type annotation"

/-- A parameter of a constructor or a method. -/
structure Parameter where
  name : String
  type : String
  deriving DecidableEq, Repr, Inhabited

namespace Field

def ofMember (member : Member) : Field :=
  { name := member.name, type := member.type, isMutable := member.isMutable, isPrivate := member.isPrivate,
    hasDefault := member.hasInitializer }

/-- The stored fields among the members, in their order. -/
def ofMembers (members : List Member) : List Field := (members.filter (·.classify == .stored)).map ofMember

/-- A field without a name and a type lacks a name. -/
def gap? (field : Field) : Option Gap :=
  if field.name.isNone then some .noName
  else if field.type.isNone then some .noType
  else none

def isRepresentable (field : Field) : Bool := field.name.isSome && field.type.isSome

def parameter? (field : Field) : Option Parameter :=
  match field.name, field.type with
  | some name, some type => some ⟨name, type⟩
  | _, _ => none

/-- One parameter for each representable field, in their order. -/
def parameters (fields : List Field) : List Parameter := fields.filterMap parameter?

end Field

/-- The stored fields of a declaration, in their order. -/
def Declaration.fields (d : Declaration) : List Field := Field.ofMembers d.members

end Recordsmith
