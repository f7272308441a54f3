import Recordsmith.Record.Field

/-! The constructor that takes a value for every representable field. -/

namespace Recordsmith

/-- Each of the `assignments` stores the parameter of that name in the field of that name. -/
structure Constructor where
  parameters : List Parameter := []
  assignments : List String := []
  accessModifier : Option String := none
  required : Bool := false
  deriving DecidableEq, Repr, Inhabited

/-- Every parameter is assigned once, in order, and nothing else is. -/
def Constructor.ofFields (fields : List Field) (accessModifier : Option String) (required : Bool) : Constructor :=
  let parameters := Field.parameters fields
  { parameters, assignments := parameters.map (·.name), accessModifier, required }

end Recordsmith
