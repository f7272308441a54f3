import Recordsmith.Text.Blank
import Recordsmith.Tree.Dialect

/-! Swift syntax trees: structs and classes are records; enums, actors, protocols and extensions are not. -/

namespace Recordsmith.Tree.SwiftTree

open Text.Utf8 (DecodeError)

/-- The aggregate that a declaration keyword opens. -/
def keywordKind? : String → Option AggregateKind
  | "struct" => some .value
  | "class" => some .reference
  | "enum" => some .other
  | "actor" => some .other
  | "protocol" => some .other
  | "extension" => some .other
  | _ => none

def aggregate? (node : Node) : Option AggregateKind :=
  if node.kind = "class_declaration" ∨ node.kind = "protocol_declaration" then
    (node.child? "declaration_kind").bind fun keyword => keywordKind? keyword.kind
  else none

def isComment (node : Node) : Bool := node.kind == "comment" || node.kind == "multiline_comment"

/-- A modifier keeps its qualifier but no blanks, as in `private(set)`. -/
def modifier (text : String) : String := String.ofList (text.toList.filter (!Text.isBlank ·))

/-- An attribute is named by its type, without the module in front. -/
def attributeName (bytes : List UInt8) (mark : Node) : Except DecodeError String :=
  match mark.namedChildren.find? (·.kind == "user_type") with
  | some type => (type.text bytes).map fun text => String.ofList (Text.afterLast '.' text.toList)
  | none => .ok ""

/-- The first identifier of each type parameter. -/
def typeParameters (bytes : List UInt8) (node : Node) : Except DecodeError (List String) :=
  let clauses := node.namedChildren.filter (·.kind == "type_parameters")
  let parameters := (clauses.flatMap (·.namedChildren)).filter (·.kind == "type_parameter")
  let names := parameters.filterMap fun parameter => parameter.namedChildren.find? (·.kind == "type_identifier")
  names.mapM (·.text bytes)

/-! ### Properties -/

/-- The keyword of a binding, `var` or `let`. -/
def bindingKeyword (bytes : List UInt8) (binding : Node) : Except DecodeError String :=
  match binding.child? "mutability" with
  | some keyword => .ok keyword.kind
  | none => binding.text bytes

/-- The bindings of a property: each pattern with the nodes up to the next one. -/
def bindings : List Node → List (Node × List Node)
  | [] => []
  | child :: rest =>
    if child.kind = "pattern" then (child, rest.takeWhile (·.kind ≠ "pattern")) :: bindings rest else bindings rest

/-- The name of a pattern that is a plain identifier. -/
def patternName (bytes : List UInt8) (pattern : Node) : Except DecodeError (Option String) :=
  match pattern.namedChildren with
  | [identifier] => if identifier.kind = "simple_identifier" then (identifier.text bytes).map some else .ok none
  | _ => .ok none

/-- The type of an annotation on one line, with single spaces. An annotation that names no type gives none. -/
def annotatedType (text : String) : Option String :=
  match Text.words (text.toList.dropWhile (· == ':')) with
  | [] => none
  | words => some (String.ofList (Text.joinWith [' '] words))

/-- Observers leave a property stored; only a block that computes the value is an accessor block. -/
def bindingMember (bytes : List UInt8) (isMutable : Bool) (modifiers : List String) (binding : Node × List Node) :
    Except DecodeError Member := do
  let (pattern, parts) := binding
  let name ← patternName bytes pattern
  let annotations ← (parts.filter (·.kind == "type_annotation")).mapM (·.text bytes)
  return {
    kind := .variable
    name
    type := annotations.getLast?.bind annotatedType
    isMutable
    modifiers
    hasInitializer := parts.any (·.kind == "=")
    hasAccessorBlock := parts.any (·.kind == "computed_property") }

/-- Heads of declarations carry attributes and modifier keywords. -/
def heading : Heading where
  isComment := isComment
  isAttribute node := node.kind == "attribute"
  modifier := modifier

/-- A property gives a member for each of its bindings, and any other node one member. -/
def members (bytes : List UInt8) (node : Node) : Except DecodeError (List Member) :=
  if node.kind = "property_declaration" then do
    let modifiers ← heading.modifiers bytes node
    let keywords ← (node.childrenOf "value_binding_pattern").mapM (bindingKeyword bytes)
    (bindings node.children).mapM (bindingMember bytes (keywords.getLast? == some "var") modifiers)
  else do
    let name ← Node.text? bytes (node.child? "name")
    return [{ kind := .other, name }]

def dialect : Dialect :=
  { heading with language := .swift, aggregate?, attributeName, typeParameters, members }

end Recordsmith.Tree.SwiftTree
