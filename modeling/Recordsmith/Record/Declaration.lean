import Recordsmith.Record.Member

/-! Type declarations, with the place they take in their source text. -/

namespace Recordsmith

inductive AggregateKind
  | value
  | reference
  | other
  deriving DecidableEq, Repr, Inhabited

def AggregateKind.text : AggregateKind → String
  | .value => "value"
  | .reference => "reference"
  | .other => "other"

/-- Indentation used where a source gives none. -/
def defaultIndent : String := "    "

/-- Where a declaration stands in its source, in characters: its ends, its closing brace, its marker with the gap after
    it, and the indentation of its members and of itself. -/
structure Span where
  start : Int
  stop : Int
  bodyClose : Int
  markerStart : Option Int := none
  markerEnd : Option Int := none
  memberIndent : String := defaultIndent
  baseIndent : String := ""
  deriving DecidableEq, Repr, Inhabited

structure Declaration where
  name : String
  kind : AggregateKind
  modifiers : List String := []
  isFinal : Bool := false
  typeParameters : List String := []
  members : List Member := []
  span : Option Span := none
  deriving DecidableEq, Repr, Inhabited

namespace Declaration

/-- Modifiers that generated members take over from their record. -/
def copiedModifiers : List String := ["public", "internal"]

/-- The first of the declaration's modifiers that generated members take over. -/
def accessModifier (d : Declaration) : Option String := d.modifiers.find? (· ∈ copiedModifiers)

/-- Only value and reference aggregates get members. -/
def isRecord (d : Declaration) : Bool := d.kind == .value || d.kind == .reference

/-- A reference aggregate that others can derive from binds them to its constructor. -/
def requiresConstructor (d : Declaration) : Bool := d.kind == .reference && !d.isFinal

def isMarked (d : Declaration) : Bool := (d.span.bind (·.markerStart)).isSome

end Declaration

end Recordsmith
