import Recordsmith.Log
import Recordsmith.Record.Declaration
import Recordsmith.Text.Lines
import Recordsmith.Tree.Node

/-!
Extraction: the type declarations of a syntax tree. What differs between languages is a `Dialect`; the walk over the
tree, the spans and the search for the marker are the same for all.
-/

namespace Recordsmith.Tree

open Text.Utf8 (DecodeError)

/-- How a language's trees show what stands in front of a declaration. -/
structure Heading where
  isComment : Node → Bool
  /-- Whether a part of a modifier list is an attribute rather than a keyword. -/
  isAttribute : Node → Bool
  /-- How a modifier's text is written in a declaration. -/
  modifier : String → String

namespace Heading

/-- The parts of a node's modifier lists. -/
def modifierParts (node : Node) : List Node := (node.childrenOf "modifiers").flatMap (·.children)

def attributes (h : Heading) (node : Node) : List Node := (modifierParts node).filter h.isAttribute

/-- The modifier keywords of a node. Comments between them do not count. -/
def modifiers (h : Heading) (bytes : List UInt8) (node : Node) : Except DecodeError (List String) :=
  let keywords := (modifierParts node).filter fun part => !h.isAttribute part && !h.isComment part
  keywords.mapM fun keyword => (keyword.text bytes).map h.modifier

end Heading

/-- How a language's trees show declarations. The functions that read texts take the bytes of the source. -/
structure Dialect extends Heading where
  language : Language
  /-- The kind of aggregate that a node declares, if it declares one. -/
  aggregate? : Node → Option AggregateKind
  /-- The name of an attribute without its qualifier. -/
  attributeName : List UInt8 → Node → Except DecodeError String
  typeParameters : List UInt8 → Node → Except DecodeError (List String)
  /-- The members that one node of a body declares. -/
  members : List UInt8 → Node → Except DecodeError (List Member)

namespace Dialect

/-- The first attribute of that name. -/
def findAttribute (d : Dialect) (bytes : List UInt8) (name : String) : List Node → Except DecodeError (Option Node)
  | [] => .ok none
  | mark :: rest => do
    let found ← d.attributeName bytes mark
    if found = name then return some mark else d.findAttribute bytes name rest

/-- The attribute that marks a declaration. An empty marker marks nothing. -/
def markerOf (d : Dialect) (bytes : List UInt8) (marker : String) (node : Node) : Except DecodeError (Option Node) :=
  if marker = "" then .ok none else d.findAttribute bytes marker (d.attributes node)

/-- The nodes of a body that declare members. -/
def bodyNodes (d : Dialect) (body : Node) : List Node := body.namedChildren.filter (!d.isComment ·)

/-- Where a declaration stands, given its marker. Its members are indented as the first of them is, or one step
    deeper than the declaration when it has none. -/
def spanOf (d : Dialect) (source : List Char) (node body : Node) (marker : Option Node) : Span :=
  let offset := Text.Utf8.charOffset source
  let baseIndent := String.ofList (Text.lineIndent source (offset node.start))
  let bodyClose : Int := offset body.stop - 1
  { start := offset node.start
    stop := bodyClose + 1
    bodyClose
    markerStart := marker.map fun mark => offset mark.start
    markerEnd := marker.map fun mark => Text.gapEnd source (offset mark.stop)
    memberIndent := match (d.bodyNodes body).head? with
      | some first => String.ofList (Text.lineIndent source (offset first.start))
      | none => baseIndent ++ defaultIndent
    baseIndent }

/-- The declaration that a node makes; a node without a name or a body makes none. -/
def declaration? (d : Dialect) (source : List Char) (bytes : List UInt8) (marker : String) (node : Node) :
    Except DecodeError (Option Declaration) :=
  match d.aggregate? node, node.child? "name", node.child? "body" with
  | some kind, some name, some body => do
    let modifiers ← d.modifiers bytes node
    let mark ← d.markerOf bytes marker node
    let members ← (d.bodyNodes body).mapM (d.members bytes)
    return some {
      name := ← name.text bytes
      kind
      modifiers
      isFinal := "final" ∈ modifiers
      typeParameters := ← d.typeParameters bytes node
      members := members.flatten
      span := d.spanOf source node body mark }
  | _, _, _ => .ok none

/-- The declarations of a tree in source order, an outer one before those inside it. -/
def extract (d : Dialect) (source : List Char) (tree : SourceTree) (marker : String) :
    Except DecodeError (List Declaration) := do
  let found ← tree.root.preorder.mapM (d.declaration? source (Text.Utf8.encode source) marker)
  return found.filterMap id

/-- What extracting the declarations of a tree tells. -/
def extractionLog (d : Dialect) (source : List Char) (tree : SourceTree) (marker : String) : List LogLine :=
  let origin := LogOrigin.extraction d.language
  let title := d.language.title
  let warning : List LogLine :=
    if tree.faulty then
      [⟨.warning, origin, title ++ " source has syntax errors; declarations may be incomplete"⟩]
    else []
  match d.extract source tree marker with
  | .error _ => warning
  | .ok found => warning ++ [⟨.debug, origin, "Found " ++ toString found.length ++ " " ++ title ++ " declarations"⟩]

end Dialect

end Recordsmith.Tree
