import Recordsmith.Proofs.Source.Pieces
import Recordsmith.Source.Mark

/-!
Where the nodes stand that reading gives. If every step of a grammar gives parts with their ends where its pieces have
theirs, so does reading as a whole.
-/

namespace Recordsmith.Source

open Recordsmith.Tree (Node)

variable {P : Nat → Prop} {Mode : Type}

/-! ### Parts -/

mutual

/-- A part whose ends have a property, in its nodes and in what is still to be read. -/
def Part.On (P : Nat → Prop) : Part Mode → Prop
  | .node n below => NodeOn P n ∧ PartsOn P below
  | .unread _ pieces => PiecesOn P pieces

def PartsOn (P : Nat → Prop) : List (Part Mode) → Prop
  | [] => True
  | part :: more => part.On P ∧ PartsOn P more

end

section PartsOn
variable {part : Part Mode} {parts more : List (Part Mode)} {n : Node} {mode : Mode} {pieces : List Piece}

@[simp, grind =] theorem part_on_node : (Part.node n parts).On P ↔ NodeOn P n ∧ PartsOn P parts := by simp [Part.On]

@[simp, grind =] theorem part_on_unread : (Part.unread mode pieces).On P ↔ PiecesOn P pieces := by simp [Part.On]

@[simp, grind .] theorem partsOn_nil : PartsOn P ([] : List (Part Mode)) := by simp [PartsOn]

@[simp, grind =] theorem partsOn_cons : PartsOn P (part :: parts) ↔ part.On P ∧ PartsOn P parts := by simp [PartsOn]

@[simp, grind =] theorem partsOn_append : PartsOn P (parts ++ more) ↔ PartsOn P parts ∧ PartsOn P more := by
  induction parts with
  | nil => simp
  | cons part parts ih => simp [ih, and_assoc]

theorem partsOn_iff : PartsOn P parts ↔ ∀ part ∈ parts, part.On P := by
  induction parts with
  | nil => simp
  | cons part parts ih => simp [ih]

end PartsOn

/-- The nodes of parts stand where the parts do, if what is still to be read gives such nodes. -/
theorem PartsOn.allNodes {read : Mode → List Piece → List Node} {parts : List (Part Mode)}
    (hread : ∀ mode pieces, PiecesOn P pieces → NodesOn P (read mode pieces)) (h : PartsOn P parts) :
    NodesOn P (Part.allNodes read parts) := by
  match parts with
  | [] => simp [Part.allNodes]
  | .node n below :: more =>
    obtain ⟨⟨hn, hbelow⟩, hmore⟩ := partsOn_cons.mp h |>.imp_left part_on_node.mp
    obtain ⟨hstart, hstop, hchildren⟩ := nodeOn_iff.mp hn
    simp only [Part.allNodes, Part.nodes, List.singleton_append, nodesOn_cons, nodeOn_mk, nodesOn_append]
    exact ⟨⟨hstart, hstop, hchildren, PartsOn.allNodes hread hbelow⟩, PartsOn.allNodes hread hmore⟩
  | .unread mode pieces :: more =>
    obtain ⟨hpieces, hmore⟩ := partsOn_cons.mp h |>.imp_left part_on_unread.mp
    simp only [Part.allNodes, Part.nodes, nodesOn_append]
    exact ⟨hread mode pieces hpieces, PartsOn.allNodes hread hmore⟩

/-! ### Reading -/

/-- A grammar whose steps keep to where their pieces have their ends. -/
def Grammar.KeepsTo (P : Nat → Prop) (g : Grammar Mode) : Prop :=
  ∀ mode p rest, PiecesOn P (p :: rest) → PartsOn P (g.step mode p rest).1 ∧ PiecesOn P (g.step mode p rest).2

theorem Grammar.KeepsTo.readWithin {g : Grammar Mode} (hg : g.KeepsTo P) (limit : Nat) {mode : Mode} {pieces : List Piece}
    (h : PiecesOn P pieces) : NodesOn P (g.readWithin limit mode pieces) := by
  induction limit generalizing mode pieces with
  | zero => simp [Grammar.readWithin]
  | succ limit ih =>
    cases pieces with
    | nil => simp [Grammar.readWithin]
    | cons p rest =>
      obtain ⟨hparts, hrest⟩ := hg mode p rest h
      simp only [Grammar.readWithin, nodesOn_append]
      exact ⟨hparts.allNodes fun _ _ hpieces => ih hpieces, ih hrest⟩

theorem Grammar.KeepsTo.read {g : Grammar Mode} (hg : g.KeepsTo P) {mode : Mode} {pieces : List Piece}
    (h : PiecesOn P pieces) : NodesOn P (g.read mode pieces) :=
  hg.readWithin _ h

/-- Every node of a tree has its ends between characters of the source, if the steps keep to the ends of pieces. -/
theorem Grammar.tree_on {g : Grammar Mode} (lexer : Lexer) (kind : String) (mode : Mode) (source : List Char)
    (hg : g.KeepsTo (Text.Utf8.IsBoundary source)) :
    NodeOn (Text.Utf8.IsBoundary source) (g.tree lexer kind mode source).root := by
  refine nodeOn_mk.mpr ⟨isBoundary_byteLength [] source, ?_, hg.read (pieces_on lexer source)⟩
  have hend := isBoundary_byteLength source []
  rwa [List.append_nil] at hend

theorem searchStep_on {declaration? : List Piece → Option (Part Mode × List Piece)} {p : Piece} {rest : List Piece}
    (hdeclaration : ∀ {part more}, declaration? (p :: rest) = some (part, more) → PiecesOn P (p :: rest) →
      part.On P ∧ PiecesOn P more) (mode : Mode) (h : PiecesOn P (p :: rest)) :
    PartsOn P (searchStep mode declaration? p rest).1 ∧ PiecesOn P (searchStep mode declaration? p rest).2 := by
  obtain ⟨hp, hrest⟩ := piecesOn_cons.mp h
  unfold searchStep
  split
  · rename_i part more hread
    obtain ⟨hpart, hmore⟩ := hdeclaration hread h
    exact ⟨partsOn_cons.mpr ⟨hpart, partsOn_nil⟩, hmore⟩
  · refine ⟨partsOn_cons.mpr ⟨part_on_unread.mpr hp.contents, partsOn_nil⟩, ?_⟩
    split
    · exact hrest.suffix (afterPoint_suffix rest)
    · exact hrest

/-! ### Marks -/

/-- Marks whose ends have a property, also in their arguments. -/
def MarksOn (P : Nat → Prop) (marks : List Mark) : Prop := ∀ m ∈ marks, NodeOn P m.node ∧ PiecesOn P m.arguments

section MarksOn
variable {marks : List Mark}

theorem MarksOn.parts (h : MarksOn P marks) (mode : Mode) : PartsOn P (marks.map (Mark.part mode)) := by
  refine partsOn_iff.mpr fun part hpart => ?_
  obtain ⟨m, hm, rfl⟩ := List.mem_map.mp hpart
  simpa [Mark.part] using h m hm

theorem MarksOn.startOf (h : MarksOn P marks) {start : Nat} (hstart : P start) : P (Mark.startOf marks start) := by
  cases marks with
  | nil => exact hstart
  | cons first more => exact (h first List.mem_cons_self).1.start

theorem MarksOn.listed (h : MarksOn P marks) (mode : Mode) : PartsOn P (Mark.listed mode marks) := by
  cases marks with
  | nil => simp [Mark.listed]
  | cons first more =>
    obtain ⟨last, hlast⟩ : ∃ m, (first :: more).getLast? = some m := ⟨_, List.getLast?_cons ..⟩
    have hstop := (h last (List.mem_of_getLast? hlast)).1.stop
    simp only [Mark.listed, hlast, partsOn_cons, part_on_node, nodeOn_mk]
    exact ⟨⟨⟨(h first List.mem_cons_self).1.start, hstop, nodesOn_nil⟩, h.parts mode⟩, partsOn_nil⟩

grind_pattern MarksOn.listed => MarksOn P marks, Mark.listed mode marks

/-- The marks that are read stand where the pieces do, if each single one does. -/
theorem MarkReader.take_on {r : MarkReader} {pieces : List Piece}
    (hr : ∀ {pieces rest m}, r.mark? pieces = some (m, rest) → PiecesOn P pieces →
      NodeOn P m.node ∧ PiecesOn P m.arguments)
    (h : PiecesOn P pieces) : MarksOn P (r.take pieces).1 ∧ PiecesOn P (r.take pieces).2 := by
  refine ⟨?_, h.suffix (r.take_suffix pieces)⟩
  fun_induction MarkReader.take r pieces with
  | case1 => exact fun _ hm => absurd hm List.not_mem_nil
  | case2 pieces m rest hmark found ih =>
    exact List.forall_mem_cons.mpr ⟨hr hmark h, ih (h.suffix (r.shrinks hmark).2)⟩

theorem MarksOn.loose (h : MarksOn P marks) (mode : Mode) {pieces : List Piece} (hpieces : PiecesOn P pieces) :
    PartsOn P (Mark.loose mode marks pieces) := by
  refine partsOn_append.mpr ⟨partsOn_iff.mpr fun part hpart => ?_, by simpa using hpieces⟩
  obtain ⟨m, hm, rfl⟩ := List.mem_map.mp hpart
  exact part_on_unread.mpr (h m hm).2

end MarksOn

theorem typeParameterList_on {r : MarkReader} {mode : Mode} {field : Option String} {names : Piece → List Node}
    {pieces : List Piece} (hnames : ∀ {p : Piece}, p.On P → NodesOn P (names p)) (h : PiecesOn P pieces) :
    PartsOn P (typeParameterList r mode field names pieces).1 := by
  unfold typeParameterList
  split
  · rename_i p rest
    split
    · split
      · exact partsOn_nil
      · rename_i inner close more hfound
        obtain ⟨hp, hrest⟩ := piecesOn_cons.mp h
        obtain ⟨hinner, hclose, hmore⟩ := throughAngle_on hfound hrest
        simp only [partsOn_cons, part_on_node, nodeOn_mk, part_on_unread]
        refine ⟨⟨⟨hp.start, hclose.stop, ?_⟩, hinner, partsOn_nil⟩, partsOn_nil⟩
        intro parameter hparameter
        obtain ⟨run, hrun, hname⟩ := List.mem_filterMap.mp hparameter
        obtain ⟨name, hhead, rfl⟩ := Option.map_eq_some_iff.mp hname
        have hruns := commaRuns_on hinner run hrun
        have hon : name.On P := hruns.suffix (r.take_suffix run) name (List.mem_of_head? hhead)
        exact nodeOn_mk.mpr ⟨hon.start, endOf_on hon.stop hruns, hnames hon⟩
    · exact partsOn_nil
  · exact partsOn_nil

end Recordsmith.Source
