import Recordsmith.Text.Blank
import Recordsmith.Tree.Dialect

/-! Java syntax trees: classes are records; record classes, enums, interfaces and annotation types are not. -/

namespace Recordsmith.Tree.JavaTree

open Text.Utf8 (DecodeError)

def aggregate? (node : Node) : Option AggregateKind :=
  match node.kind with
  | "class_declaration" => some .reference
  | "record_declaration" => some .other
  | "enum_declaration" => some .other
  | "interface_declaration" => some .other
  | "annotation_type_declaration" => some .other
  | _ => none

def isComment (node : Node) : Bool := node.kind == "line_comment" || node.kind == "block_comment"

/-- Heads of declarations carry annotations and modifier keywords. -/
def heading : Heading where
  isComment := isComment
  isAttribute node := node.kind == "marker_annotation" || node.kind == "annotation"
  modifier := id

/-- The name of an annotation, without the package in front. -/
def attributeName (bytes : List UInt8) (mark : Node) : Except DecodeError String := do
  let name ← Node.text? bytes (mark.child? "name")
  return String.ofList (Text.afterLast '.' (name.getD "").toList)

/-- The first identifier of each type parameter. -/
def typeParameters (bytes : List UInt8) (node : Node) : Except DecodeError (List String) :=
  match node.child? "type_parameters" with
  | none => .ok []
  | some clause =>
    let parameters := clause.namedChildren.filter (·.kind == "type_parameter")
    let names := parameters.filterMap fun parameter =>
      parameter.namedChildren.find? fun child => child.kind == "identifier" || child.kind == "type_identifier"
    names.mapM (·.text bytes)

/-- The member of a field's first declarator. Dimensions after its name belong to its type. -/
def fieldMember (bytes : List UInt8) (node : Node) : Except DecodeError Member := do
  let modifiers ← heading.modifiers bytes node
  let type ← Node.text? bytes (node.child? "type")
  let declarator := node.child? "declarator"
  let name ← Node.text? bytes (declarator.bind (·.child? "name"))
  let dimensions ← if type.isSome then Node.text? bytes (declarator.bind (·.child? "dimensions")) else .ok none
  return {
    kind := .variable
    name
    type := type.map (· ++ dimensions.getD "")
    isMutable := "final" ∉ modifiers
    modifiers
    hasInitializer := (declarator.bind (·.child? "value")).isSome }

/-- Every node of a body gives one member. -/
def members (bytes : List UInt8) (node : Node) : Except DecodeError (List Member) :=
  if node.kind = "field_declaration" then do
    return [← fieldMember bytes node]
  else do
    let name ← Node.text? bytes (node.child? "name")
    return [{ kind := .other, name }]

def dialect : Dialect :=
  { heading with language := .java, aggregate?, attributeName, typeParameters, members }

end Recordsmith.Tree.JavaTree
