import Recordsmith.Source.Token
import Recordsmith.Tree.Node

/-! Pieces: the tokens of a source, grouped by its brackets. -/

namespace Recordsmith.Source

open Recordsmith.Tree (Node)

/-- A token, or what stands between two brackets. A group is named by its opening bracket and spans both. -/
inductive Piece
  | token (t : Token)
  | group (opening : Token) (inner : List Piece) (stop : Nat)
  deriving Repr, Inhabited

namespace Piece

def head : Piece → Token
  | .token t => t
  | .group opening _ _ => opening

def start (p : Piece) : Nat := p.head.start

def stop : Piece → Nat
  | .token t => t.stop
  | .group _ _ stop => stop

def opensLine (p : Piece) : Bool := p.head.opensLine

def apart (p : Piece) : Bool := p.head.apart

/-- The word that a piece is. -/
def word? : Piece → Option String
  | .token t => if t.kind = .word then some t.text else none
  | .group _ _ _ => none

def isWord (p : Piece) : Bool := p.word?.isSome

def isSymbol (p : Piece) (text : String) : Bool :=
  match p with
  | .token t => t.kind == .symbol && t.text == text
  | .group _ _ _ => false

/-- What stands inside a group with that opening bracket. -/
def inner? (bracket : String) : Piece → Option (List Piece)
  | .token _ => none
  | .group opening inner _ => if opening.text = bracket then some inner else none

/-- What stands inside a piece, whatever its brackets. -/
def contents : Piece → List Piece
  | .token _ => []
  | .group _ inner _ => inner

def isGroup (p : Piece) (bracket : String) : Bool := (p.inner? bracket).isSome

/-- A node that spans a piece and has nothing below it. -/
def leaf (p : Piece) (kind : String) (named : Bool) (field : Option String) : Node :=
  ⟨kind, p.start, p.stop, named, field, []⟩

end Piece

/-! ### Grouping -/

/-- The bracket that closes a group. -/
def closingOf (bracket : String) : String :=
  if bracket = "(" then ")" else if bracket = "[" then "]" else "\x7d"

/-- Groups that are still open, each with the pieces before it, innermost first and latest piece first. -/
abbrev Frames := List (Token × List Piece)

/-- The pieces of the current group, latest first, inside the groups that are open. -/
structure Nesting where
  frames : Frames := []
  current : List Piece := []
  /-- Where the last token ends. -/
  last : Nat := 0
  faulty : Bool := false
  deriving Inhabited

/-- Closes groups up to the innermost one that `closing` can close. -/
def closeThrough (closing : Token) (last : Nat) : Frames → List Piece → Option (Frames × List Piece)
  | [], _ => none
  | (opening, before) :: outer, current =>
    if closingOf opening.text = closing.text then
      some (outer, .group opening current.reverse closing.stop :: before)
    else closeThrough closing last outer (.group opening current.reverse last :: before)

def Nesting.push (n : Nesting) (t : Token) : Nesting :=
  if t.kind = .symbol ∧ t.text ∈ ["(", "[", "\x7b"] then
    { n with frames := (t, n.current) :: n.frames, current := [], last := t.stop }
  else if t.kind = .symbol ∧ t.text ∈ [")", "]", "\x7d"] then
    match closeThrough t n.last n.frames n.current with
    | some (frames, current) =>
      { frames, current, last := t.stop, faulty := n.faulty || frames.length + 1 != n.frames.length }
    | none => { n with faulty := true }
  else { n with current := .token t :: n.current, last := t.stop }

/-- Closes the groups that are still open. -/
def closeAll (last : Nat) : Frames → List Piece → List Piece
  | [], current => current.reverse
  | (opening, before) :: outer, current => closeAll last outer (.group opening current.reverse last :: before)

/-- The pieces of a token sequence, and whether its brackets do not match. -/
def group (tokens : List Token) : List Piece × Bool :=
  let n := tokens.foldl Nesting.push {}
  (closeAll n.last n.frames n.current, n.faulty || !n.frames.isEmpty)

/-! ### Walking over pieces -/

/-- The pieces up to the angle bracket that closes one opened before, that bracket, and what follows. The head of an
    arrow, which stands directly after a dash, closes nothing. -/
def throughAngle (depth : Nat) (afterDash : Bool) : List Piece → Option (List Piece × Piece × List Piece)
  | [] => none
  | p :: rest =>
    let keep (found : List Piece × Piece × List Piece) := (p :: found.1, found.2)
    if p.isSymbol ">" ∧ ¬(afterDash ∧ !p.apart) then
      if depth = 0 then some ([], p, rest) else (throughAngle (depth - 1) false rest).map keep
    else if p.isSymbol "<" then (throughAngle (depth + 1) false rest).map keep
    else (throughAngle depth (p.isSymbol "-") rest).map keep

theorem eq_of_keep_eq_some {p close : Piece} {rest inner more : List Piece} {found : Option (List Piece × Piece × List Piece)}
    (ih : ∀ {inner}, found = some (inner, close, more) → rest = inner ++ close :: more)
    (h : found.map (fun found => (p :: found.1, found.2)) = some (inner, close, more)) :
    p :: rest = inner ++ close :: more := by
  obtain ⟨⟨before, last, after⟩, hfound, heq⟩ := Option.map_eq_some_iff.mp h
  obtain ⟨rfl, rfl, rfl⟩ : p :: before = inner ∧ last = close ∧ after = more := by simpa using heq
  rw [ih hfound, List.cons_append]

/-- The pieces up to a closing bracket, the bracket and what follows are the pieces again. -/
theorem throughAngle_eq {depth : Nat} {afterDash : Bool} {pieces inner more : List Piece} {close : Piece}
    (h : throughAngle depth afterDash pieces = some (inner, close, more)) : pieces = inner ++ close :: more := by
  fun_induction throughAngle depth afterDash pieces generalizing inner with
  | case1 => cases h
  | case2 afterDash p rest hclose =>
    obtain ⟨rfl, rfl, rfl⟩ : [] = inner ∧ p = close ∧ rest = more := by simpa using h
    rfl
  | case3 depth afterDash p rest keep hclose hdepth =>
    rename_i ih
    exact eq_of_keep_eq_some ih h
  | case4 depth afterDash p rest keep hclose hopen =>
    rename_i ih
    exact eq_of_keep_eq_some ih h
  | case5 depth afterDash p rest keep hclose hopen =>
    rename_i ih
    exact eq_of_keep_eq_some ih h

@[grind →] theorem throughAngle_suffix {depth : Nat} {afterDash : Bool} {pieces inner more : List Piece} {close : Piece}
    (h : throughAngle depth afterDash pieces = some (inner, close, more)) : close :: more <:+ pieces :=
  ⟨inner, (throughAngle_eq h).symm⟩

/-- The runs of pieces between commas that stand outside angle brackets. -/
def commaRuns (depth : Nat) : List Piece → List (List Piece)
  | [] => [[]]
  | p :: rest =>
    if p.isSymbol "," ∧ depth = 0 then [] :: commaRuns 0 rest
    else
      let next := if p.isSymbol "<" then depth + 1 else if p.isSymbol ">" then depth - 1 else depth
      match commaRuns next rest with
      | [] => [[p]]
      | run :: more => (p :: run) :: more

/-- A name of words joined by points: where it ends, and what follows. -/
def dottedName (stop : Nat) : List Piece → Nat × List Piece
  | dot :: p :: rest => if dot.isSymbol "." ∧ p.isWord then dottedName p.stop rest else (stop, dot :: p :: rest)
  | rest => (stop, rest)

@[grind .] theorem dottedName_suffix (stop : Nat) (pieces : List Piece) : (dottedName stop pieces).2 <:+ pieces := by
  fun_induction dottedName stop pieces with
  | case1 stop dot p rest _ ih => exact ih.trans ⟨[dot, p], rfl⟩
  | case2 => exact List.suffix_refl _
  | case3 => exact List.suffix_refl _

/-- What follows a point. A word there is a name, whatever it spells. -/
def afterPoint : List Piece → List Piece
  | [] => []
  | p :: rest => if p.isWord then rest else p :: rest

theorem afterPoint_suffix (pieces : List Piece) : afterPoint pieces <:+ pieces := by
  unfold afterPoint
  grind [List.suffix_cons]

/-- Where the last piece ends. -/
def endOf (start : Nat) (pieces : List Piece) : Nat := (pieces.getLast?.map Piece.stop).getD start

/-- The pieces that stand before what is left of them. -/
def upTo (rest pieces : List Piece) : List Piece := pieces.take (pieces.length - rest.length)

theorem upTo_append {rest pieces : List Piece} (h : rest <:+ pieces) : upTo rest pieces ++ rest = pieces := by
  obtain ⟨before, rfl⟩ := h
  simp [upTo]

end Recordsmith.Source
