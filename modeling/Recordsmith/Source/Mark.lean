import Recordsmith.Source.Part
import Recordsmith.Total

/-!
Marks: the modifiers and attributes in front of declarations. Declarations may stand in the arguments of a mark, as they
may in anything that is not read further.
-/

namespace Recordsmith.Source

open Recordsmith.Tree (Node)

variable {Mode : Type}

/-- A modifier or an attribute, with its arguments. -/
structure Mark where
  node : Node
  arguments : List Piece := []

namespace Mark

/-- Declarations may stand in the arguments of a mark. -/
def part (mode : Mode) (m : Mark) : Part Mode := .node m.node [.unread mode m.arguments]

/-- The node of a mark list, unless it is empty. -/
def listed (mode : Mode) : List Mark → List (Part Mode)
  | [] => []
  | first :: more =>
    let stop := ((first :: more).getLast?.map (·.node.stop)).getD first.node.stop
    [.node ⟨"modifiers", first.node.start, stop, true, none, []⟩ ((first :: more).map (part mode))]

/-- What is nothing of its own is only read on, with the arguments of the marks in front of it. -/
def loose (mode : Mode) (marks : List Mark) (pieces : List Piece) : List (Part Mode) :=
  marks.map (fun m => .unread mode m.arguments) ++ [.unread mode pieces]

/-- Where the first of the marks in front of a place starts, or that place if there are none. -/
def startOf (marks : List Mark) (start : Nat) : Nat := (marks.head?.map (·.node.start)).getD start

/-- What is to be read in the arguments of marks. -/
def weights (marks : List Mark) : Nat := total (marks.map fun m => Piece.weights m.arguments)

@[simp, grind =] theorem weights_map_part (mode : Mode) (marks : List Mark) :
    Part.weights (marks.map (part mode)) = weights marks := by
  induction marks with
  | nil => simp [weights]
  | cons m marks ih => simpa [weights, part] using ih

@[simp, grind =] theorem weights_listed (mode : Mode) (marks : List Mark) :
    Part.weights (listed mode marks) = weights marks := by
  cases marks with
  | nil => simp [listed, weights]
  | cons first more => rw [listed, Part.weights_cons, Part.weight_node, weights_map_part, Part.weights_nil, Nat.add_zero]

@[simp, grind =] theorem weights_loose (mode : Mode) (marks : List Mark) (pieces : List Piece) :
    Part.weights (loose mode marks pieces) = weights marks + Piece.weights pieces := by
  induction marks with
  | nil => simp [loose, weights]
  | cons m marks ih =>
    simp only [loose, List.map_cons, List.cons_append, Part.weights_cons, Part.weight_unread, weights, total_cons] at ih ⊢
    rw [ih, Nat.add_assoc]

end Mark

/-- How the mark that opens a sequence of pieces is read. -/
structure MarkReader where
  mark? : List Piece → Option (Mark × List Piece)
  shrinks : ∀ {pieces rest m}, mark? pieces = some (m, rest) →
    Piece.weights m.arguments + Piece.weights rest < Piece.weights pieces ∧ rest <:+ pieces

namespace MarkReader
variable (r : MarkReader) {pieces : List Piece}

/-- The marks that open a sequence of pieces, and what follows them. -/
def take (pieces : List Piece) : List Mark × List Piece :=
  match _h : r.mark? pieces with
  | none => ([], pieces)
  | some (m, rest) =>
    let found := take rest
    (m :: found.1, found.2)
termination_by Piece.weights pieces
decreasing_by
  have hshrinks := (r.shrinks _h).1
  omega

theorem take_suffix (pieces : List Piece) : (r.take pieces).2 <:+ pieces := by
  fun_induction take r pieces with
  | case1 => exact List.suffix_refl _
  | case2 pieces m rest h found ih => exact ih.trans (r.shrinks h).2

theorem weight_take (pieces : List Piece) : Mark.weights (r.take pieces).1 + Piece.weights (r.take pieces).2 ≤ Piece.weights pieces := by
  fun_induction take r pieces with
  | case1 pieces _ => simp [Mark.weights]
  | case2 pieces m rest h found ih =>
    have hshrinks := (r.shrinks h).1
    have hfound : Mark.weights found.1 + Piece.weights found.2 ≤ Piece.weights rest := ih
    simp only [Mark.weights, List.map_cons, total_cons] at hfound ⊢
    omega

/-- Marks take something away. -/
theorem weight_take_lt (h : (r.take pieces).1 ≠ []) :
    Mark.weights (r.take pieces).1 + Piece.weights (r.take pieces).2 < Piece.weights pieces := by
  rw [take] at h ⊢
  split at h
  · exact absurd rfl h
  · rename_i m rest hmark
    have hshrinks := (r.shrinks hmark).1
    have hrest := r.weight_take rest
    simp only [Mark.weights, List.map_cons, total_cons] at hrest ⊢
    omega

theorem take_of_nil (h : (r.take pieces).1 = []) : (r.take pieces).2 = pieces := by
  rw [take] at h ⊢
  split at h
  · rfl
  · cases h

/-- Something is taken away with the marks and one more token, if there is one. -/
theorem weight_take_sub_one_lt (h : pieces ≠ []) :
    Mark.weights (r.take pieces).1 + (Piece.weights (r.take pieces).2 - 1) < Piece.weights pieces := by
  by_cases hnone : (r.take pieces).1 = []
  · obtain ⟨p, rest, rfl⟩ := List.exists_cons_of_ne_nil h
    have hp := p.weight_pos
    rw [r.take_of_nil hnone, hnone, Piece.weights_cons]
    simp only [Mark.weights, List.map_nil, total_nil]
    omega
  · have hmarks := r.weight_take_lt hnone
    omega

end MarkReader

/-! ### Type parameters -/

/-- The list of type parameters that may open a sequence of pieces, and what follows it. A parameter is named by its
    first piece after its marks. -/
def typeParameterList (r : MarkReader) (mode : Mode) (field : Option String) (names : Piece → List Node)
    (pieces : List Piece) : List (Part Mode) × List Piece :=
  match pieces with
  | p :: rest =>
    if p.isSymbol "<" then
      match throughAngle 0 false rest with
      | none => ([], pieces)
      | some (inner, close, more) =>
        let parameters := (commaRuns 0 inner).filterMap fun run =>
          (r.take run).2.head?.map fun name =>
            (⟨"type_parameter", name.start, endOf name.stop run, true, none, names name⟩ : Node)
        ([.node ⟨"type_parameters", p.start, close.stop, true, field, parameters⟩ [.unread mode inner]], more)
    else ([], pieces)
  | [] => ([], [])

section typeParameterList
variable (r : MarkReader) (mode : Mode) (field : Option String) (names : Piece → List Node) (pieces : List Piece)

theorem typeParameterList_shrinks : Part.weights (typeParameterList r mode field names pieces).1 +
    Piece.weights (typeParameterList r mode field names pieces).2 ≤ Piece.weights pieces := by
  unfold typeParameterList
  grind [→ throughAngle_eq]

theorem typeParameterList_suffix : (typeParameterList r mode field names pieces).2 <:+ pieces := by
  unfold typeParameterList
  grind [List.suffix_cons, List.IsSuffix.trans]

end typeParameterList

end Recordsmith.Source
