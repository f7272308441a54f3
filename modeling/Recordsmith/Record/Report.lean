import Recordsmith.Record.Field

/-! Reports: how each member of a declaration is treated. -/

namespace Recordsmith

/-- How one member is treated; the flags speak of stored members only. -/
structure Report where
  name : Option String
  type : Option String
  classification : Classification
  representable : Bool := false
  isPrivate : Bool := false
  isMutable : Bool := false
  hasDefault : Bool := false
  hasWither : Bool := false
  deriving DecidableEq, Repr

/-- A stored member is always reported, any other only by its name. -/
def Declaration.report? (d : Declaration) (member : Member) : Option Report :=
  if member.classify = .stored then
    let field := Field.ofMember member
    some {
      name := field.name, type := field.type, classification := .stored, representable := field.isRepresentable
      isPrivate := field.isPrivate, isMutable := field.isMutable, hasDefault := field.hasDefault
      hasWither := d.isRecord && field.isRepresentable && !field.isPrivate }
  else if member.name.isSome then
    some { name := member.name, type := member.type, classification := member.classify }
  else none

/-- The reports of a declaration's members, in their order. -/
def Declaration.reports (d : Declaration) : List Report := d.members.filterMap d.report?

end Recordsmith
