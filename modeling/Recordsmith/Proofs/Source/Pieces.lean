import Recordsmith.Proofs.Text.Utf8
import Recordsmith.Proofs.Tree.Order
import Recordsmith.Source.Part

/-!
Where tokens and pieces stand: between the characters of their source. `P` is any property of byte offsets that the
tokens' ends have; what is grouped and taken apart keeps it.
-/

namespace Recordsmith.Source

open Recordsmith.Tree (Node)
open Text.Utf8 (IsBoundary)

variable {P : Nat → Prop}

/-! ### Pieces and nodes on offsets -/

/-- A piece whose ends have a property, as those of all pieces in it. -/
inductive Piece.On (P : Nat → Prop) : Piece → Prop
  | token {t : Token} (hstart : P t.start) (hstop : P t.stop) : On P (.token t)
  | group {opening : Token} {inner : List Piece} {stop : Nat} (hstart : P opening.start) (hinner : ∀ p ∈ inner, On P p)
      (hstop : P stop) : On P (.group opening inner stop)

/-- Pieces whose ends have a property, at every depth. -/
def PiecesOn (P : Nat → Prop) (pieces : List Piece) : Prop := ∀ p ∈ pieces, p.On P

section PiecesOn
variable {p : Piece} {pieces more : List Piece}

@[simp, grind .] theorem piecesOn_nil : PiecesOn P [] := fun _ h => absurd h List.not_mem_nil

@[simp, grind =] theorem piecesOn_cons : PiecesOn P (p :: pieces) ↔ p.On P ∧ PiecesOn P pieces := List.forall_mem_cons

@[simp, grind =] theorem piecesOn_append : PiecesOn P (pieces ++ more) ↔ PiecesOn P pieces ∧ PiecesOn P more :=
  List.forall_mem_append

@[grind =] theorem on_token {t : Token} : (Piece.token t).On P ↔ P t.start ∧ P t.stop := by
  constructor
  · intro h
    cases h with
    | token hstart hstop => exact ⟨hstart, hstop⟩
  · exact fun h => .token h.1 h.2

theorem PiecesOn.mono (h : PiecesOn P pieces) (hsub : more ⊆ pieces) : PiecesOn P more := fun p hp => h p (hsub hp)

@[grind →] theorem PiecesOn.suffix (h : PiecesOn P pieces) (hsuffix : more <:+ pieces) : PiecesOn P more :=
  h.mono hsuffix.subset

@[grind .] theorem PiecesOn.upTo (h : PiecesOn P pieces) (rest : List Piece) : PiecesOn P (upTo rest pieces) :=
  h.mono (List.take_subset ..)

@[simp] theorem piecesOn_reverse : PiecesOn P pieces.reverse ↔ PiecesOn P pieces :=
  forall_congr' fun _ => by rw [List.mem_reverse]

end PiecesOn

namespace Piece.On
variable {p : Piece}

@[grind →] theorem start (h : p.On P) : P p.start := by
  cases h with
  | token hstart _ => exact hstart
  | group hstart _ _ => exact hstart

@[grind →] theorem stop (h : p.On P) : P p.stop := by
  cases h with
  | token _ hstop => exact hstop
  | group _ _ hstop => exact hstop

@[grind →] theorem contents (h : p.On P) : PiecesOn P p.contents := by
  cases h with
  | token _ _ => exact piecesOn_nil
  | group _ hall _ => exact hall

@[grind →] theorem inner {bracket : String} {inner : List Piece} (h : p.On P) (hinner : p.inner? bracket = some inner) :
    PiecesOn P inner :=
  Piece.contents_of_inner? hinner ▸ h.contents

end Piece.On

/-- A node whose ends have a property, as those of all nodes below it. -/
def NodeOn (P : Nat → Prop) (n : Node) : Prop := ∀ x ∈ n.preorder, P x.start ∧ P x.stop

def NodesOn (P : Nat → Prop) (nodes : List Node) : Prop := ∀ n ∈ nodes, NodeOn P n

section NodesOn
variable {n : Node} {nodes more : List Node}

@[simp, grind .] theorem nodesOn_nil : NodesOn P [] := fun _ h => absurd h List.not_mem_nil

@[simp, grind =] theorem nodesOn_cons : NodesOn P (n :: nodes) ↔ NodeOn P n ∧ NodesOn P nodes := List.forall_mem_cons

@[simp, grind =] theorem nodesOn_append : NodesOn P (nodes ++ more) ↔ NodesOn P nodes ∧ NodesOn P more :=
  List.forall_mem_append

@[simp, grind =] theorem nodeOn_mk {kind : String} {start stop : Nat} {named : Bool} {field : Option String} :
    NodeOn P ⟨kind, start, stop, named, field, nodes⟩ ↔ P start ∧ P stop ∧ NodesOn P nodes := by
  constructor
  · intro h
    obtain ⟨hstart, hstop⟩ := h _ (Node.self_mem_preorder _)
    exact ⟨hstart, hstop, fun n hn x hx => h x (Node.mem_preorder_child hn hx)⟩
  · rintro ⟨hstart, hstop, hnodes⟩ x hx
    rcases Node.mem_preorder_iff.mp hx with rfl | ⟨n, hn, hx⟩
    · exact ⟨hstart, hstop⟩
    · exact hnodes n hn x hx

theorem nodeOn_iff : NodeOn P n ↔ P n.start ∧ P n.stop ∧ NodesOn P n.children := by
  cases n
  exact nodeOn_mk

@[simp, grind .] theorem nodeOn_leaf {p : Piece} (h : p.On P) (kind : String) (named : Bool) (field : Option String) :
    NodeOn P (p.leaf kind named field) :=
  nodeOn_mk.mpr ⟨h.start, h.stop, nodesOn_nil⟩

@[grind →] theorem NodeOn.start (h : NodeOn P n) : P n.start := (h n n.self_mem_preorder).1

@[grind →] theorem NodeOn.stop (h : NodeOn P n) : P n.stop := (h n n.self_mem_preorder).2

end NodesOn

/-! ### Tokens -/

theorem byteLength_eq (text : List Char) : byteLength text = (Text.Utf8.encode text).length := by
  induction text with
  | nil => rfl
  | cons c rest ih =>
    rw [Text.Utf8.encode_cons, List.length_append, ← ih, String.length_utf8EncodeChar]
    rfl

theorem byteLength_append (a b : List Char) : byteLength (a ++ b) = byteLength a + byteLength b := by
  rw [byteLength_eq, byteLength_eq, byteLength_eq, Text.Utf8.encode_append, List.length_append]

theorem isBoundary_byteLength (before rest : List Char) : IsBoundary (before ++ rest) (byteLength before) := by
  refine ⟨before.length, ?_, ?_⟩
  · rw [List.length_append]
    exact Nat.le_add_right ..
  · rw [Text.Utf8.byteOffset, List.take_left, byteLength_eq]

/-- The ends of the tokens of a text lie between its characters, after those that have been read. -/
theorem tokens_on (lexer : Lexer) (before : List Char) {position : Nat} {apart opensLine afterOperand : Bool}
    {text : List Char} (hposition : position = byteLength before) {t : Token}
    (ht : t ∈ tokens lexer position apart opensLine afterOperand text) :
    IsBoundary (before ++ text) t.start ∧ IsBoundary (before ++ text) t.stop := by
  fun_induction tokens lexer position apart opensLine afterOperand text generalizing before with
  | case1 => cases ht
  | case2 position apart opensLine afterOperand c rest found taken stop hkind =>
    rename_i ih
    have hstop : stop = byteLength (before ++ taken) := by rw [byteLength_append, ← hposition]
    have hsplit : before ++ c :: rest = before ++ taken ++ rest.drop found.extra := by
      simp [taken, List.take_append_drop]
    rw [hsplit]
    exact ih _ hstop ht
  | case3 position apart opensLine afterOperand c rest found taken stop kind hkind token =>
    rename_i ih
    have hstop : stop = byteLength (before ++ taken) := by rw [byteLength_append, ← hposition]
    have hsplit : before ++ c :: rest = before ++ taken ++ rest.drop found.extra := by
      simp [taken, List.take_append_drop]
    rcases List.mem_cons.mp ht with rfl | ht
    · refine ⟨?_, ?_⟩
      · show IsBoundary _ position
        rw [hposition]
        exact isBoundary_byteLength ..
      · rw [hsplit]
        show IsBoundary _ stop
        rw [hstop]
        exact isBoundary_byteLength ..
    · rw [hsplit]
      exact ih _ hstop ht

/-! ### Grouping -/

/-- What is known of the groups that are open. -/
structure Nesting.On (P : Nat → Prop) (n : Nesting) : Prop where
  frames : ∀ frame ∈ n.frames, P frame.1.start ∧ PiecesOn P frame.2
  current : ∀ p ∈ n.current, p.On P
  last : P n.last

theorem closeThrough_on {closing : Token} {last : Nat} {frames outer : Frames} {current pieces : List Piece}
    (hclosing : P closing.stop) (hlast : P last) (hframes : ∀ frame ∈ frames, P frame.1.start ∧ PiecesOn P frame.2)
    (hcurrent : PiecesOn P current) (h : closeThrough closing last frames current = some (outer, pieces)) :
    (∀ frame ∈ outer, P frame.1.start ∧ PiecesOn P frame.2) ∧ PiecesOn P pieces := by
  induction frames generalizing current with
  | nil => cases h
  | cons frame rest ih =>
    -- The innermost group ends here, at the closing token or, if that closes an outer one, where its last piece did.
    obtain ⟨opening, before⟩ := frame
    obtain ⟨⟨hopening, hbefore⟩, hrest⟩ := List.forall_mem_cons.mp hframes
    have hgroup : ∀ stop, P stop → PiecesOn P (.group opening current.reverse stop :: before) := fun stop hstop =>
      piecesOn_cons.mpr ⟨.group hopening (piecesOn_reverse.mpr hcurrent) hstop, hbefore⟩
    rw [closeThrough] at h
    split at h
    · obtain ⟨rfl, rfl⟩ := Prod.mk.inj (Option.some.inj h)
      exact ⟨hrest, hgroup _ hclosing⟩
    · exact ih hrest (hgroup _ hlast) h

theorem Nesting.On.push {n : Nesting} (hn : n.On P) {t : Token} (hstart : P t.start) (hstop : P t.stop) :
    (n.push t).On P := by
  unfold Nesting.push
  split
  · exact ⟨List.forall_mem_cons.mpr ⟨⟨hstart, hn.current⟩, hn.frames⟩, piecesOn_nil, hstop⟩
  · split
    · split
      · rename_i frames current hclose
        obtain ⟨hframes, hcurrent⟩ := closeThrough_on hstop hn.last hn.frames hn.current hclose
        exact ⟨hframes, hcurrent, hstop⟩
      · exact ⟨hn.frames, hn.current, hn.last⟩
    · exact ⟨hn.frames, piecesOn_cons.mpr ⟨.token hstart hstop, hn.current⟩, hstop⟩

theorem Nesting.On.foldl {n : Nesting} (hn : n.On P) {found : List Token} (h : ∀ t ∈ found, P t.start ∧ P t.stop) :
    (found.foldl Nesting.push n).On P := by
  induction found generalizing n with
  | nil => exact hn
  | cons t rest ih =>
    obtain ⟨⟨hstart, hstop⟩, hrest⟩ := List.forall_mem_cons.mp h
    exact ih (hn.push hstart hstop) hrest

theorem closeAll_on {last : Nat} {frames : Frames} {current : List Piece} (hlast : P last)
    (hframes : ∀ frame ∈ frames, P frame.1.start ∧ PiecesOn P frame.2) (hcurrent : PiecesOn P current) :
    PiecesOn P (closeAll last frames current) := by
  induction frames generalizing current with
  | nil => exact piecesOn_reverse.mpr hcurrent
  | cons frame rest ih =>
    obtain ⟨opening, before⟩ := frame
    obtain ⟨⟨hopening, hbefore⟩, hrest⟩ := List.forall_mem_cons.mp hframes
    exact ih hrest (piecesOn_cons.mpr ⟨.group hopening (piecesOn_reverse.mpr hcurrent) hlast, hbefore⟩)

/-- The pieces of a token sequence have their ends where its tokens have theirs. -/
theorem group_on {found : List Token} (hzero : P 0) (h : ∀ t ∈ found, P t.start ∧ P t.stop) :
    PiecesOn P (group found).1 := by
  have hstart : Nesting.On P {} := ⟨by simp, by simp, hzero⟩
  obtain ⟨hframes, hcurrent, hlast⟩ := hstart.foldl h
  exact closeAll_on hlast hframes hcurrent

/-- The pieces of a text have their ends between its characters. -/
theorem pieces_on (lexer : Lexer) (text : List Char) : PiecesOn (IsBoundary text) (group (lexer.tokens text)).1 :=
  group_on (isBoundary_byteLength [] text) fun _ ht => tokens_on lexer [] rfl ht

/-! ### Walking over pieces -/

@[grind .] theorem endOf_on {start : Nat} {pieces : List Piece} (hstart : P start) (h : PiecesOn P pieces) :
    P (endOf start pieces) := by
  unfold endOf
  cases hlast : pieces.getLast? with
  | none => exact hstart
  | some p => exact (h p (List.mem_of_getLast? hlast)).stop

@[grind →] theorem throughAngle_on {depth : Nat} {afterDash : Bool} {pieces inner more : List Piece} {close : Piece}
    (hfound : throughAngle depth afterDash pieces = some (inner, close, more)) (h : PiecesOn P pieces) :
    PiecesOn P inner ∧ close.On P ∧ PiecesOn P more := by
  rw [throughAngle_eq hfound, piecesOn_append, piecesOn_cons] at h
  exact h

theorem commaRuns_on {depth : Nat} {pieces : List Piece} (h : PiecesOn P pieces) :
    ∀ run ∈ commaRuns depth pieces, PiecesOn P run := by
  fun_induction commaRuns depth pieces <;> grind

@[grind .] theorem dottedName_on {stop : Nat} {pieces : List Piece} (hstop : P stop) (h : PiecesOn P pieces) :
    P (dottedName stop pieces).1 ∧ PiecesOn P (dottedName stop pieces).2 := by
  fun_induction dottedName stop pieces <;> grind

end Recordsmith.Source
