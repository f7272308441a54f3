import Recordsmith.Text.CodePoint

/-!
Values of data files and requests. A value is read into a domain type by a reader that collects every issue it meets
instead of stopping at the first.
-/

namespace Recordsmith

inductive Value
  | null
  | bool (b : Bool)
  | int (n : Int)
  /-- The number `mantissa / 10 ^ scale`. -/
  | decimal (mantissa : Int) (scale : Nat)
  /-- An infinity, or what is no number. -/
  | nonFinite
  | text (s : String)
  /-- A text with surrogates. -/
  | rawText (points : List Text.CodePoint)
  | bytes (data : List UInt8)
  /-- A date or a point in time. -/
  | moment
  | list (items : List Value)
  | map (entries : List (Value × Value))
  deriving Repr, Inhabited

/-- One step from a value to a part of it. -/
inductive Step
  | key (name : String)
  | index (n : Nat)
  deriving DecidableEq, Repr

/-- What can be wrong with a value. -/
inductive IssueKind
  | missing
  | notText
  | undecodableText
  | notBool
  | unreadableBool
  | notInt
  | unreadableInt
  | fractionalInt
  | nonFiniteInt
  | notOffered
  | notList
  | notObject
  | notPath
  deriving DecidableEq, Repr

def IssueKind.text : IssueKind → String
  | .missing => "missing"
  | .notText => "string_type"
  | .undecodableText => "string_unicode"
  | .notBool => "bool_type"
  | .unreadableBool => "bool_parsing"
  | .notInt => "int_type"
  | .unreadableInt => "int_parsing"
  | .fractionalInt => "int_from_float"
  | .nonFiniteInt => "finite_number"
  | .notOffered => "enum"
  | .notList => "tuple_type"
  | .notObject => "model_type"
  | .notPath => "path_type"

/-- An issue with the part of a value that `place` leads to. -/
structure Issue where
  place : List Step
  kind : IssueKind
  deriving DecidableEq, Repr

/-- What a reader makes of a value: a result, or what is wrong with the value. -/
inductive Checked (α : Type)
  | ok (result : α)
  | bad (issues : List Issue)
  deriving Repr

namespace Checked

def fail {α : Type} (kind : IssueKind) : Checked α := .bad [⟨[], kind⟩]

def map {α β : Type} (f : α → β) : Checked α → Checked β
  | .ok a => .ok (f a)
  | .bad issues => .bad issues

/-- Two readings together; the issues of the first come first. -/
def seq {α β : Type} : Checked (α → β) → Checked α → Checked β
  | .ok f, .ok a => .ok (f a)
  | .ok _, .bad issues => .bad issues
  | .bad issues, .ok _ => .bad issues
  | .bad first, .bad second => .bad (first ++ second)

instance : Functor Checked := ⟨map, fun a => map fun _ => a⟩

instance : Seq Checked := ⟨fun f a => seq f (a ())⟩

/-- A reading of the part that `step` leads to, seen from the whole. -/
def under {α : Type} (step : Step) : Checked α → Checked α
  | .ok a => .ok a
  | .bad issues => .bad (issues.map fun issue => { issue with place := step :: issue.place })

/-- The readings of the items of a list, from index `n` on. -/
def items {α : Type} (read : Value → Checked α) (n : Nat) : List Value → Checked (List α)
  | [] => .ok []
  | value :: rest => seq (map List.cons (under (.index n) (read value))) (items read (n + 1) rest)

end Checked

namespace Value

/-- The value of a key. -/
def entry? (name : String) : List (Value × Value) → Option Value
  | [] => none
  | (.text key, value) :: rest => if key = name then some value else entry? name rest
  | _ :: rest => entry? name rest

/-- An object with named parts. -/
def object (parts : List (String × Value)) : Value := .map (parts.map fun (key, value) => (.text key, value))

def ofOption {α : Type} (write : α → Value) : Option α → Value
  | none => .null
  | some a => write a

end Value

end Recordsmith
