import Recordsmith.Source.Mark
import Recordsmith.Source.SwiftToken

/-!
What stands in front of Swift declarations and in them: attributes, modifiers, type parameters and types. Each reader
leaves an end of the pieces that it was given.
-/

namespace Recordsmith.Source.SwiftSource

open Recordsmith.Tree (Node)

/-! ### Modifiers -/

def accessWords : List String := ["public", "private", "internal", "fileprivate", "open", "package"]

def modifierWords : List String := accessWords ++ [
  "static", "final", "lazy", "weak", "unowned", "override", "convenience", "required", "nonisolated", "mutating",
  "nonmutating", "dynamic", "optional", "distributed", "prefix", "postfix", "infix", "consuming", "borrowing"]

/-- Words that may qualify a modifier in brackets. -/
def qualifiers : List String := ["set", "safe", "unsafe", "nonsending"]

/-- Words that open a member, apart from its modifiers. -/
def memberWords : List String := [
  "var", "let", "func", "init", "deinit", "subscript", "typealias", "associatedtype", "case", "struct", "class", "enum",
  "actor", "extension", "protocol", "import", "indirect", "operator", "precedencegroup", "macro"]

def directiveWords : List String := ["if", "elseif", "else", "endif"]

def isQualifier (p : Piece) : Bool :=
  match p.inner? "(" with
  | some [q] => q.word?.any (· ∈ qualifiers)
  | _ => false

/-- Type arguments that stand directly after a word: where they end, and what follows. -/
def adjacentArguments (stop : Nat) (pieces : List Piece) : Nat × List Piece :=
  match pieces with
  | p :: rest =>
    if p.isSymbol "<" ∧ !p.apart then
      match throughAngle 0 false rest with
      | some (_, close, more) => (close.stop, more)
      | none => (stop, pieces)
    else (stop, pieces)
  | [] => (stop, [])

theorem adjacentArguments_suffix (stop : Nat) (pieces : List Piece) : (adjacentArguments stop pieces).2 <:+ pieces := by
  unfold adjacentArguments
  split
  · split
    · split
      · rename_i p rest _ _ inner close more hangle
        exact (List.suffix_cons close more).trans ((throughAngle_suffix hangle).trans (List.suffix_cons p rest))
      · exact List.suffix_refl _
    · exact List.suffix_refl _
  · exact List.suffix_refl _

grind_pattern adjacentArguments_suffix => adjacentArguments stop pieces

/-- The arguments of an attribute, if they follow directly. -/
def attributeArguments (stop : Nat) (pieces : List Piece) : Nat × List Piece :=
  match pieces with
  | p :: rest => if p.isGroup "(" ∧ !p.apart then (p.stop, rest) else (stop, pieces)
  | [] => (stop, [])

theorem attributeArguments_suffix (stop : Nat) (pieces : List Piece) :
    (attributeArguments stop pieces).2 <:+ pieces := by
  unfold attributeArguments
  split
  · split
    · exact List.suffix_cons ..
    · exact List.suffix_refl _
  · exact List.suffix_refl _

/-- An attribute after its sign: its type, and its arguments if they follow directly. -/
def attributeAfter (sign name : Piece) (rest : List Piece) : Mark × List Piece :=
  let dotted := dottedName name.stop rest
  let type := adjacentArguments dotted.1 dotted.2
  let found := attributeArguments type.1 type.2
  let typeNode : Node := ⟨"user_type", name.start, type.1, true, none, []⟩
  ({ node := ⟨"attribute", sign.start, found.1, true, none, [typeNode]⟩, arguments := upTo found.2 rest }, found.2)

theorem attributeAfter_suffix (sign name : Piece) (rest : List Piece) : (attributeAfter sign name rest).2 <:+ rest :=
  (attributeArguments_suffix ..).trans ((adjacentArguments_suffix ..).trans (dottedName_suffix ..))

grind_pattern attributeAfter_suffix => attributeAfter sign name rest

/-- Whether `class` before this piece is a modifier. -/
def followsClassModifier (p : Piece) : Bool :=
  p.word?.any fun word => word ∈ ["var", "let", "func", "subscript"] || word ∈ modifierWords

/-- The modifier or attribute that opens a sequence of pieces. -/
def mark? : List Piece → Option (Mark × List Piece)
  | p :: rest =>
    if p.isSymbol "@" then
      match rest with
      | name :: more => if name.isWord then some (attributeAfter p name more) else none
      | [] => none
    else match p.word? with
      | some word =>
        if word = "class" then
          if rest.head?.any followsClassModifier then some ({ node := p.leaf "modifier" true none }, rest) else none
        else if word ∈ modifierWords then
          match rest with
          | q :: more =>
            if isQualifier q then some ({ node := ⟨"modifier", p.start, q.stop, true, none, []⟩ }, more)
            else some ({ node := p.leaf "modifier" true none }, rest)
          | [] => some ({ node := p.leaf "modifier" true none }, rest)
        else none
      | none => none
  | [] => none

theorem attributeAfter_shrinks (sign name : Piece) (rest : List Piece) :
    Piece.weights (attributeAfter sign name rest).1.arguments + Piece.weights (attributeAfter sign name rest).2 =
      Piece.weights rest :=
  Piece.weights_upTo (attributeAfter_suffix sign name rest)

theorem mark?_shrinks {pieces rest : List Piece} {m : Mark} (h : mark? pieces = some (m, rest)) :
    Piece.weights m.arguments + Piece.weights rest < Piece.weights pieces ∧ rest <:+ pieces := by
  unfold mark? at h
  grind [attributeAfter_shrinks, List.suffix_cons]

/-- How modifiers and attributes are read. -/
def marks : MarkReader := ⟨mark?, mark?_shrinks⟩

/-! ### Modes -/

/-- A declaration stands in a file or a body, or inside statements. -/
inductive Scope
  | outer
  | inner
  deriving DecidableEq, Repr

inductive BodyKind
  | classBody
  | enumBody
  | protocolBody
  deriving DecidableEq, Repr

/-- What is read: the declarations among statements and expressions, or the members of a body. -/
inductive Mode
  | declarations (scope : Scope)
  | members (kind : BodyKind)
  deriving DecidableEq, Repr

/-- Pieces in which declarations may stand. -/
def searched (pieces : List Piece) : Part Mode := .unread (.declarations .inner) pieces

/-- What a declaration shows of its marks: outside statements they form a list, inside they stand one by one. -/
def Scope.markParts (scope : Scope) (found : List Mark) : List (Part Mode) :=
  match scope with
  | .outer => Mark.listed (.declarations .inner) found
  | .inner => found.map (Mark.part (.declarations .inner))

@[simp] theorem weights_markParts (scope : Scope) (found : List Mark) :
    Part.weights (scope.markParts found) = Mark.weights found := by
  cases scope <;> simp [Scope.markParts]

/-! ### Types -/

/-- The list of type parameters that may open a sequence of pieces, and what follows it. -/
def typeParameters (pieces : List Piece) : List (Part Mode) × List Piece :=
  typeParameterList marks (.declarations .inner) none
    (fun name => if name.word? = some "each" then [] else [name.leaf "type_identifier" true none]) pieces

theorem typeParameters_shrinks (pieces : List Piece) :
    Part.weights (typeParameters pieces).1 + Piece.weights (typeParameters pieces).2 ≤ Piece.weights pieces :=
  typeParameterList_shrinks ..

/-- Words that stand before a type and belong to it. -/
def typeLeads : List String := [
  "some", "any", "inout", "each", "repeat", "isolated", "sending", "consuming", "borrowing", "__owned", "__shared"]

/-- Words that may stand before the arrow of a function type. -/
def effectWords : List String := ["async", "throws", "rethrows"]

/-- The arrow that may follow the parameters of a function type, with the effects before it. -/
def afterArrow? : List Piece → Option (List Piece)
  | p :: q :: rest =>
    if p.isSymbol "-" ∧ q.isSymbol ">" ∧ !q.apart then some rest
    else if p.word?.any (· ∈ effectWords) then if q.isGroup "(" then afterArrow? rest else afterArrow? (q :: rest)
    else none
  | _ => none

@[grind →] theorem afterArrow?_suffix {pieces rest : List Piece} (h : afterArrow? pieces = some rest) :
    rest <:+ pieces := by
  fun_induction afterArrow? pieces with
  | case1 p q more _ => exact Option.some.inj h ▸ ⟨[p, q], rfl⟩
  | case2 p q more _ _ _ ih => exact (ih h).trans ⟨[p, q], rfl⟩
  | case3 p q more _ _ _ ih => exact (ih h).trans ⟨[p], rfl⟩
  | case4 => cases h
  | case5 => cases h

/-- What may follow the first part of a type: members of it, type arguments, and marks that it is optional. -/
def typeTail (stop : Nat) (pieces : List Piece) : Nat × List Piece :=
  match pieces with
  | p :: rest =>
    if p.isSymbol "." then
      match rest with
      | q :: more => if q.isWord then typeTail q.stop more else (stop, pieces)
      | [] => (stop, pieces)
    else if p.isSymbol "<" ∧ !p.opensLine then
      match _h : throughAngle 0 false rest with
      | some (_, close, more) => typeTail close.stop more
      | none => (stop, pieces)
    else if (p.isSymbol "?" ∨ p.isSymbol "!") ∧ !p.apart then typeTail p.stop rest
    else (stop, pieces)
  | [] => (stop, [])
termination_by pieces.length
decreasing_by
  · simp only [List.length_cons]; omega
  · have := (throughAngle_suffix _h).length_le
    simp only [List.length_cons] at this ⊢
    omega
  · simp only [List.length_cons]; omega

theorem typeTail_suffix (stop : Nat) (pieces : List Piece) : (typeTail stop pieces).2 <:+ pieces := by
  fun_induction typeTail stop pieces <;> grind [List.suffix_cons, List.IsSuffix.trans]

grind_pattern typeTail_suffix => typeTail stop pieces

/-- The type that opens a sequence of pieces: where it ends, and what follows. -/
def type? (pieces : List Piece) : Option (Nat × List Piece) :=
  match pieces with
  | [] => none
  | p :: rest =>
    if p.isSymbol "@" then
      match rest with
      | name :: more => if name.isWord then type? (attributeAfter p name more).2 else none
      | [] => none
    else if p.isSymbol "~" then type? rest
    else if p.word?.any (· ∈ typeLeads) ∧ (rest.head?.any fun q => q.isWord || q.isGroup "(" || q.isGroup "[" ||
        q.isSymbol "@" || q.isSymbol "~") ∧ !(rest.head?.any (·.opensLine)) then
      type? rest
    else if p.isWord ∨ p.isGroup "(" ∨ p.isGroup "[" then
      let first := typeTail p.stop rest
      match _h : afterArrow? first.2 with
      | some result => (type? result).or (some first)
      | none =>
        match _h : first.2 with
        | q :: next => if q.isSymbol "&" then (type? next).or (some first) else some first
        | [] => some first
    else none
termination_by Piece.weights pieces
decreasing_by all_goals grind

@[grind →] theorem type?_suffix {pieces rest : List Piece} {stop : Nat} (h : type? pieces = some (stop, rest)) :
    rest <:+ pieces := by
  fun_induction type? pieces <;> grind [List.suffix_cons, List.IsSuffix.trans, Option.or_eq_some_iff]

end Recordsmith.Source.SwiftSource
