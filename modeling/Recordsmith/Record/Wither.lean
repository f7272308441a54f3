import Recordsmith.Record.Field

/-! Withers: methods that give a copy of the record with one field replaced. -/

namespace Recordsmith

/-- One argument of the constructor call inside a wither. -/
structure Argument where
  label : String
  expression : String
  fromParameter : Bool := false
  viaReceiver : Bool := false
  deriving DecidableEq, Repr, Inhabited

structure Wither where
  name : String
  parameter : Parameter
  arguments : List Argument := []
  accessModifier : Option String := none
  deriving DecidableEq, Repr, Inhabited

/-- The field `target` takes the method's parameter and every other field keeps the receiver's value. A field that
    shares the parameter's name is hidden by it, so it is read through the receiver. -/
def Argument.forField (target parameterName field : String) : Argument :=
  if field = target then { label := field, expression := parameterName, fromParameter := true }
  else { label := field, expression := field, viaReceiver := field == parameterName }

/-- One argument for each representable field, in their order. -/
def callArguments (fields : List Field) (target parameterName : String) : List Argument :=
  (Field.parameters fields).map fun parameter => Argument.forField target parameterName parameter.name

namespace Wither

/-- Private fields and fields that generated code cannot speak of have no wither. -/
def ofField? (fields : List Field) (accessModifier : Option String) (parameterName : String) (field : Field) :
    Option Wither :=
  if field.isPrivate then none
  else field.parameter?.map fun target =>
    { name := target.name
      parameter := { name := parameterName, type := target.type }
      arguments := callArguments fields target.name parameterName
      accessModifier }

/-- The withers of all fields that have one, in their order. -/
def ofFields (fields : List Field) (accessModifier : Option String) (parameterName : String) : List Wither :=
  fields.filterMap (ofField? fields accessModifier parameterName)

/-- The field at an index, where a negative index counts from the end. -/
def fieldAt? (fields : List Field) (index : Int) : Option Field :=
  if 0 ≤ index then fields[index.toNat]?
  else if 0 ≤ fields.length + index then fields[(fields.length + index).toNat]?
  else none

/-- The wither of the field at an index; `none` where no field is. -/
def atIndex? (fields : List Field) (index : Int) (accessModifier : Option String) (parameterName : String) :
    Option (Option Wither) :=
  (fieldAt? fields index).map (ofField? fields accessModifier parameterName)

end Wither

end Recordsmith
