import Recordsmith.Source.Piece

/-!
Reading pieces. One step reads what stands in front and gives parts: nodes, and pieces that are still to be read. A
grammar is made of its steps; each of them leaves less to be read than it was given, so that reading comes to an end.
-/

namespace Recordsmith.Source

open Recordsmith.Tree (Node SourceTree)

/-! ### How much there is to read -/

mutual

/-- The tokens of a piece, with both brackets of a group. -/
def Piece.weight : Piece → Nat
  | .token _ => 1
  | .group _ inner _ => Piece.weights inner + 2

def Piece.weights : List Piece → Nat
  | [] => 0
  | p :: rest => p.weight + Piece.weights rest

end

namespace Piece
variable {pieces rest : List Piece} {p : Piece}

@[simp, grind =] theorem weights_nil : weights [] = 0 := by simp [weights]

@[simp, grind =] theorem weights_cons : weights (p :: rest) = p.weight + weights rest := by simp [weights]

@[simp, grind =] theorem weights_append : weights (pieces ++ rest) = weights pieces + weights rest := by
  induction pieces with
  | nil => simp
  | cons p pieces ih => simp [ih, Nat.add_assoc]

theorem weight_pos (p : Piece) : 0 < p.weight := by
  cases p <;> simp [Piece.weight]

grind_pattern weight_pos => p.weight

theorem weights_contents (p : Piece) : weights p.contents < p.weight := by
  cases p <;> simp [Piece.weight, contents]

grind_pattern weights_contents => p.contents

@[grind →] theorem contents_of_inner? {bracket : String} {inner : List Piece} (h : p.inner? bracket = some inner) :
    p.contents = inner := by
  cases p with
  | token t => cases h
  | group opening all stop =>
    rw [Piece.inner?] at h
    split at h
    · exact Option.some.inj h
    · cases h

@[grind →] theorem weights_inner {bracket : String} {inner : List Piece} (h : p.inner? bracket = some inner) :
    weights inner < p.weight := contents_of_inner? h ▸ p.weights_contents

@[grind →] theorem weights_le_of_suffix (h : rest <:+ pieces) : weights rest ≤ weights pieces := by
  obtain ⟨before, rfl⟩ := h
  rw [weights_append]
  omega

theorem weights_upTo (h : rest <:+ pieces) : weights (upTo rest pieces) + weights rest = weights pieces := by
  rw [← weights_append, upTo_append h]

theorem weights_takeWhile_add (f : Piece → Bool) (pieces : List Piece) :
    weights (pieces.takeWhile f) + weights (pieces.dropWhile f) = weights pieces := by
  rw [← weights_append, List.takeWhile_append_dropWhile]

end Piece

/-! ### Parts -/

/-- What one step of reading gives. -/
inductive Part (Mode : Type)
  /-- A node with its first children, and the parts that give the others. -/
  | node (n : Node) (below : List (Part Mode))
  /-- Pieces to be read in a mode. -/
  | unread (mode : Mode) (pieces : List Piece)

variable {Mode : Type}

/-- A node that is complete. -/
abbrev Part.whole (n : Node) : Part Mode := .node n []

mutual

/-- What is still to be read of a part. -/
def Part.weight : Part Mode → Nat
  | .node _ below => Part.weights below
  | .unread _ pieces => Piece.weights pieces

def Part.weights : List (Part Mode) → Nat
  | [] => 0
  | part :: more => part.weight + Part.weights more

end

mutual

/-- The nodes of a part, where `read` says what is still to be read. -/
def Part.nodes (read : Mode → List Piece → List Node) : Part Mode → List Node
  | .node n below => [{ n with children := n.children ++ Part.allNodes read below }]
  | .unread mode pieces => read mode pieces

def Part.allNodes (read : Mode → List Piece → List Node) : List (Part Mode) → List Node
  | [] => []
  | part :: more => part.nodes read ++ Part.allNodes read more

end

namespace Part
variable {parts more : List (Part Mode)} {part : Part Mode} {n : Node} {mode : Mode} {pieces : List Piece}

@[simp, grind =] theorem weight_node : (Part.node n parts).weight = weights parts := by simp [Part.weight]

@[simp, grind =] theorem weight_unread : (Part.unread mode pieces).weight = Piece.weights pieces := by simp [Part.weight]

@[simp, grind =] theorem weights_nil : weights ([] : List (Part Mode)) = 0 := by simp [weights]

@[simp, grind =] theorem weights_cons : weights (part :: more) = part.weight + weights more := by simp [weights]

@[simp, grind =] theorem weights_append : weights (parts ++ more) = weights parts + weights more := by
  induction parts with
  | nil => simp
  | cons part parts ih => simp [ih, Nat.add_assoc]

/-- The nodes of parts only depend on how the pieces in them are read. -/
theorem allNodes_congr {read other : Mode → List Piece → List Node} (parts : List (Part Mode))
    (h : ∀ mode pieces, Piece.weights pieces ≤ weights parts → read mode pieces = other mode pieces) :
    allNodes read parts = allNodes other parts := by
  match parts with
  | [] => simp [allNodes]
  | .node n below :: more =>
    have hbelow : allNodes read below = allNodes other below :=
      allNodes_congr below fun mode pieces hle => h mode pieces (by simp; omega)
    have hmore : allNodes read more = allNodes other more :=
      allNodes_congr more fun mode pieces hle => h mode pieces (by simp; omega)
    simp [allNodes, nodes, hbelow, hmore]
  | .unread mode pieces :: more =>
    have hmore : allNodes read more = allNodes other more :=
      allNodes_congr more fun mode pieces hle => h mode pieces (by simp; omega)
    simp [allNodes, nodes, h mode pieces (by simp), hmore]

end Part

/-! ### Grammars -/

/-- How the pieces of a language are read: the step that reads what opens a sequence of pieces in a mode, and what it
    leaves. -/
structure Grammar (Mode : Type) where
  step : Mode → Piece → List Piece → List (Part Mode) × List Piece
  shrinks : ∀ mode p rest, Part.weights (step mode p rest).1 + Piece.weights (step mode p rest).2 < Piece.weights (p :: rest)

namespace Grammar

/-- The nodes of pieces, found with at most so many steps inside and after one another. -/
def readWithin (g : Grammar Mode) : Nat → Mode → List Piece → List Node
  | 0, _, _ => []
  | _, _, [] => []
  | limit + 1, mode, p :: rest =>
    let found := g.step mode p rest
    Part.allNodes (readWithin g limit) found.1 ++ readWithin g limit mode found.2

/-- The nodes of pieces. There are no more steps than tokens. -/
def read (g : Grammar Mode) (mode : Mode) (pieces : List Piece) : List Node := g.readWithin (Piece.weights pieces) mode pieces

variable (g : Grammar Mode)

/-- With as many steps as there are tokens, it does not matter how many more there may be. -/
theorem readWithin_eq {limit other : Nat} {mode : Mode} {pieces : List Piece} (h : Piece.weights pieces ≤ limit)
    (hother : Piece.weights pieces ≤ other) : g.readWithin limit mode pieces = g.readWithin other mode pieces := by
  induction limit generalizing other mode pieces with
  | zero =>
    cases pieces with
    | nil => cases other <;> simp [readWithin]
    | cons p rest => exact absurd h (by simp; have := p.weight_pos; omega)
  | succ limit ih =>
    cases pieces with
    | nil => cases other <;> simp [readWithin]
    | cons p rest =>
      obtain ⟨other, rfl⟩ : ∃ n, other = n + 1 := ⟨other - 1, by have := p.weight_pos; simp at hother; omega⟩
      have hshrinks := g.shrinks mode p rest
      have hsame : ∀ mode pieces, Piece.weights pieces < Piece.weights (p :: rest) →
          g.readWithin limit mode pieces = g.readWithin other mode pieces := fun mode pieces hlt =>
        ih (by omega) (by omega)
      have hbelow := Part.allNodes_congr (g.step mode p rest).1 fun mode pieces hle => hsame mode pieces (by omega)
      simp only [readWithin]
      rw [hbelow, hsame mode _ (by omega)]

@[simp] theorem read_nil (mode : Mode) : g.read mode [] = [] := by simp [read, readWithin]

/-- Reading is one step, and reading on in what it leaves. -/
theorem read_cons (mode : Mode) (p : Piece) (rest : List Piece) :
    g.read mode (p :: rest) = Part.allNodes g.read (g.step mode p rest).1 ++ g.read mode (g.step mode p rest).2 := by
  have hshrinks := g.shrinks mode p rest
  obtain ⟨limit, hlimit⟩ : ∃ n, Piece.weights (p :: rest) = n + 1 := ⟨Piece.weights (p :: rest) - 1, by omega⟩
  rw [read, hlimit]
  simp only [readWithin]
  congr 1
  · exact Part.allNodes_congr _ fun mode pieces hle => g.readWithin_eq (by omega) (Nat.le_refl _)
  · exact g.readWithin_eq (by omega) (Nat.le_refl _)

/-- The tree of a source, whose root is of a given kind. -/
def tree (g : Grammar Mode) (lexer : Lexer) (kind : String) (mode : Mode) (source : List Char) : SourceTree :=
  let (pieces, faulty) := group (lexer.tokens source)
  ⟨⟨kind, 0, byteLength source, true, none, g.read mode pieces⟩, faulty⟩

end Grammar

/-! ### Searching for declarations -/

/-- What opens pieces among which declarations may stand: one of them, or else a piece whose contents are searched. A word
    after a point opens nothing. -/
def searchStep (mode : Mode) (declaration? : List Piece → Option (Part Mode × List Piece)) (p : Piece)
    (rest : List Piece) : List (Part Mode) × List Piece :=
  match declaration? (p :: rest) with
  | some (part, more) => ([part], more)
  | none => ([.unread mode p.contents], if p.isSymbol "." then afterPoint rest else rest)

theorem searchStep_shrinks {declaration? : List Piece → Option (Part Mode × List Piece)} {p : Piece} {rest : List Piece}
    (h : ∀ {part more}, declaration? (p :: rest) = some (part, more) →
      part.weight + Piece.weights more < Piece.weights (p :: rest)) (mode : Mode) :
    Part.weights (searchStep mode declaration? p rest).1 + Piece.weights (searchStep mode declaration? p rest).2 <
      Piece.weights (p :: rest) := by
  have hcontents := p.weights_contents
  unfold searchStep
  split
  · rename_i part more hread
    simpa using h hread
  · have hrest := Piece.weights_le_of_suffix (afterPoint_suffix rest)
    simp only [Part.weights_cons, Part.weight_unread, Part.weights_nil, Piece.weights_cons]
    split <;> omega

end Recordsmith.Source
