import Recordsmith.Text.Utf8

/-! Syntax trees over the bytes of a source text. -/

namespace Recordsmith.Tree

open Text.Utf8 (DecodeError)

/-- A node spans the bytes from `start` up to `stop`. Nodes that stand for more than punctuation or a keyword are
    named, and `field` is the role that a node plays in its parent. -/
structure Node where
  kind : String
  start : Nat
  stop : Nat
  named : Bool
  field : Option String
  children : List Node
  deriving Repr, Inhabited

mutual

/-- A node and all nodes below it, each before its children and these in their order. -/
def Node.preorder : Node → List Node
  | ⟨kind, start, stop, named, field, children⟩ =>
    ⟨kind, start, stop, named, field, children⟩ :: Node.preorderAll children

def Node.preorderAll : List Node → List Node
  | [] => []
  | node :: rest => node.preorder ++ Node.preorderAll rest

end

namespace Node

def namedChildren (node : Node) : List Node := node.children.filter (·.named)

/-- The first child in a role. -/
def child? (node : Node) (role : String) : Option Node := node.children.find? (·.field == some role)

/-- The children of a kind, in their order. -/
def childrenOf (node : Node) (kind : String) : List Node := node.children.filter (·.kind == kind)

/-- The part of a source that a node spans, given the bytes of the source. -/
def text (bytes : List UInt8) (node : Node) : Except DecodeError String :=
  (Text.Utf8.decode ((bytes.drop node.start).take (node.stop - node.start))).map String.ofList

/-- The text of a node that may be missing. -/
def text? (bytes : List UInt8) : Option Node → Except DecodeError (Option String)
  | none => .ok none
  | some node => (node.text bytes).map some

end Node

/-- The tree of a whole source. A faulty tree stands for a source that breaks its language's grammar. -/
structure SourceTree where
  root : Node
  faulty : Bool
  deriving Repr, Inhabited

end Recordsmith.Tree
