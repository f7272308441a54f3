import Recordsmith.Proofs.Source.Parts
import Recordsmith.Source.JavaSource

/-!
The nodes of a Java tree have their ends where the pieces of the source have theirs. There is one lemma for each reader,
and the steps of the grammar put them together.
-/

namespace Recordsmith.Source.JavaSource

open Recordsmith.Tree (Node)

variable {P : Nat → Prop} {pieces rest : List Piece}

/-! ### Marks -/

theorem annotationAfter_on {sign name : Piece} (hsign : sign.On P) (hname : name.On P) (hrest : PiecesOn P rest) :
    NodeOn P (annotationAfter sign name rest).1.node ∧ PiecesOn P (annotationAfter sign name rest).1.arguments := by
  obtain ⟨hstop, hmore⟩ := dottedName_on hname.stop hrest
  unfold annotationAfter
  grind

grind_pattern annotationAfter_on => annotationAfter sign name rest, PiecesOn P rest

theorem mark?_on {m : Mark} (h : mark? pieces = some (m, rest)) (hpieces : PiecesOn P pieces) :
    NodeOn P m.node ∧ PiecesOn P m.arguments := by
  unfold mark? at h
  grind

theorem marks_on (h : PiecesOn P pieces) : MarksOn P (marks.take pieces).1 ∧ PiecesOn P (marks.take pieces).2 :=
  MarkReader.take_on mark?_on h

grind_pattern marks_on => marks.take pieces, PiecesOn P pieces

@[grind =] theorem searched_on : (searched pieces).On P ↔ PiecesOn P pieces := part_on_unread

/-! ### Types -/

theorem typeParameters_on (h : PiecesOn P pieces) :
    PartsOn P (typeParameters pieces).1 ∧ PiecesOn P (typeParameters pieces).2 :=
  ⟨typeParameterList_on (fun hp => nodesOn_cons.mpr ⟨nodeOn_leaf hp _ _ _, nodesOn_nil⟩) h,
    h.suffix (typeParameterList_suffix ..)⟩

theorem dimensions_on {stop : Option Nat} (hstop : ∀ n, stop = some n → P n) (h : PiecesOn P pieces) :
    ∀ n, (dimensions stop pieces).1 = some n → P n := by
  fun_induction dimensions stop pieces <;> grind

theorem dimensions_none_on (h : PiecesOn P pieces) :
    (∀ n, (dimensions none pieces).1 = some n → P n) ∧ PiecesOn P (dimensions none pieces).2 :=
  ⟨dimensions_on (fun _ h => nomatch h) h, h.suffix (dimensions_suffix ..)⟩

grind_pattern dimensions_none_on => dimensions none pieces, PiecesOn P pieces

@[grind .] theorem typeTail_on {stop : Nat} (hstop : P stop) (h : PiecesOn P pieces) : P (typeTail stop pieces).1 := by
  fun_induction typeTail stop pieces <;> grind

theorem type?_on {start stop : Nat} (htype : type? pieces = some (start, stop, rest)) (h : PiecesOn P pieces) :
    P start ∧ P stop := by
  unfold type? at htype
  grind

/-! ### Declarations -/

theorem head?_on {kind : String} {bodyKind : BodyKind} {keyword name : Piece}
    (hhead : head? pieces = some (kind, bodyKind, keyword, name, rest)) (h : PiecesOn P pieces) :
    keyword.On P ∧ name.On P ∧ PiecesOn P rest := by
  unfold head? at hhead
  grind

theorem body?_on {before inner : List Piece} {body : Piece} (hbody : body? pieces = some (before, body, inner, rest))
    (h : PiecesOn P pieces) : PiecesOn P before ∧ body.On P ∧ PiecesOn P inner ∧ PiecesOn P rest := by
  obtain ⟨rfl, hinner⟩ := body?_eq hbody
  rw [piecesOn_append, piecesOn_cons] at h
  exact ⟨h.1, h.2.1, h.2.1.inner hinner, h.2.2⟩

theorem declaration?_on {part : Part Mode} (hread : declaration? pieces = some (part, rest)) (h : PiecesOn P pieces) :
    part.On P ∧ PiecesOn P rest := by
  obtain ⟨⟨kind, bodyKind, keyword, name, afterName⟩, hhead, hread⟩ := Option.bind_eq_some_iff.mp hread
  obtain ⟨⟨before, body, inner, more⟩, hbody, hread⟩ := Option.bind_eq_some_iff.mp hread
  obtain ⟨rfl, rfl⟩ := Prod.mk.inj (Option.some.inj hread)
  obtain ⟨hmarks, hafter⟩ := marks_on h
  obtain ⟨hkeyword, hname, hafterName⟩ := head?_on hhead hafter
  obtain ⟨hparameters, hafterParameters⟩ := typeParameters_on hafterName
  obtain ⟨hbefore, hbody, hinner, hmore⟩ := body?_on hbody hafterParameters
  simp only [part_on_node, nodeOn_mk, partsOn_append, partsOn_cons, searched_on, part_on_unread]
  exact ⟨⟨⟨hmarks.startOf hkeyword.start, hbody.stop, nodesOn_nil⟩,
    ⟨hmarks.listed _, ⟨nodeOn_leaf hname _ _ _, partsOn_nil⟩, hparameters⟩,
    hbefore, ⟨⟨hbody.start, hbody.stop, nodesOn_nil⟩, hinner, partsOn_nil⟩, partsOn_nil⟩, hmore⟩

/-! ### Members -/

theorem throughEnd_on (blockEnds : Bool) (h : PiecesOn P pieces) :
    PiecesOn P (throughEnd blockEnds pieces).1 ∧ PiecesOn P (throughEnd blockEnds pieces).2 := by
  rwa [← piecesOn_append, throughEnd_append]

section signature
variable {kind : BodyKind} {start : Nat} {before : List (Part Mode)} {name : Piece}

theorem callable_on (nodeKind : String) (hstart : P start) (hbefore : PartsOn P before) (hname : name.On P)
    (h : PiecesOn P rest) : PartsOn P (callable kind nodeKind start before name rest).1 ∧
      PiecesOn P (callable kind nodeKind start before name rest).2 := by
  obtain ⟨htail, hmore⟩ := throughEnd_on (kind ≠ .attributeBody) h
  simp only [callable, partsOn_cons, part_on_node, nodeOn_mk, partsOn_append, searched_on]
  exact ⟨⟨⟨⟨hstart, endOf_on hname.stop htail, nodesOn_nil⟩, hbefore, ⟨nodeOn_leaf hname _ _ _, partsOn_nil⟩, htail,
    partsOn_nil⟩, partsOn_nil⟩, hmore⟩

theorem declaratorParts_on (h : PiecesOn P pieces) : PartsOn P (declaratorParts pieces) := by
  obtain ⟨hstop, hvalue⟩ := dimensions_none_on h
  have hdimensions : PartsOn P ((dimensions none pieces).1.toList.map fun stop =>
      Part.node ⟨"dimensions", (pieces.head?.map Piece.start).getD stop, stop, true, some "dimensions", []⟩
        [searched (upTo (dimensions none pieces).2 pieces)]) := by
    refine partsOn_iff.mpr fun part hpart => ?_
    obtain ⟨stop, hmem, rfl⟩ := List.mem_map.mp hpart
    have hend := hstop stop (Option.mem_toList.mp hmem)
    simp only [part_on_node, nodeOn_mk, partsOn_cons, searched_on]
    refine ⟨⟨?_, hend, nodesOn_nil⟩, h.upTo _, partsOn_nil⟩
    cases pieces with
    | nil => exact hend
    | cons p rest => exact (piecesOn_cons.mp h).1.start
  unfold declaratorParts
  grind

theorem field_on (hstart : P start) (hbefore : PartsOn P before) (hname : name.On P) (h : PiecesOn P rest) :
    PartsOn P (field kind start before name rest).1 ∧ PiecesOn P (field kind start before name rest).2 := by
  obtain ⟨htail, hmore⟩ := throughEnd_on false h
  have hend := endOf_on hname.stop htail
  simp only [field, partsOn_cons, part_on_node, nodeOn_mk, partsOn_append]
  exact ⟨⟨⟨⟨hstart, hend, nodesOn_nil⟩, hbefore, ⟨⟨hname.start, hend, nodesOn_nil⟩,
    ⟨nodeOn_leaf hname _ _ _, partsOn_nil⟩, declaratorParts_on htail⟩, partsOn_nil⟩, partsOn_nil⟩, hmore⟩

theorem signature_on {found : List Mark} {skipped : List Piece} (hfound : MarksOn P found) (hstart : P start)
    (hskipped : PiecesOn P skipped) (h : PiecesOn P pieces) :
    PartsOn P (signature kind found start skipped pieces).1 ∧ PiecesOn P (signature kind found start skipped pieces).2 := by
  have hbefore : PartsOn P (Mark.listed .declarations found ++ [searched skipped]) := by
    simp [hfound.listed, searched_on, hskipped]
  unfold signature
  split
  · exact ⟨hfound.loose _ (hskipped.suffix (List.drop_suffix ..)), piecesOn_nil⟩
  obtain ⟨hp, hrest⟩ := piecesOn_cons.mp h
  split
  · exact callable_on _ hstart hbefore hp hrest
  split
  · rename_i p rest _ _ typeStart typeStop name afterName htype
    obtain ⟨htypeStart, htypeStop⟩ := type?_on htype h
    obtain ⟨hname, hafterName⟩ := piecesOn_cons.mp (h.suffix (type?_suffix htype))
    have htypePieces := h.upTo (name :: afterName)
    have hbefore : PartsOn P (Mark.listed .declarations found ++ [searched skipped] ++
        [.node ⟨"type", typeStart, typeStop, true, some "type", []⟩ [searched (upTo (name :: afterName) (p :: rest))]]) := by
      simp only [partsOn_append, partsOn_cons, part_on_node, nodeOn_mk, searched_on] at hbefore ⊢
      exact ⟨hbefore, ⟨⟨htypeStart, htypeStop, nodesOn_nil⟩, htypePieces, partsOn_nil⟩, partsOn_nil⟩
    dsimp only
    split
    · exact ⟨hfound.loose _ (by simp [hskipped, htypePieces, hname.contents]), hafterName⟩
    split
    · exact callable_on _ hstart hbefore hname hafterName
    · exact field_on hstart hbefore hname hafterName
  · exact ⟨hfound.loose _ (by simp [hskipped, hp.contents]), hrest⟩

theorem member_on {found : List Mark} (hfound : MarksOn P found) (hstart : P start) (h : PiecesOn P pieces) :
    PartsOn P (member kind found start pieces).1 ∧ PiecesOn P (member kind found start pieces).2 := by
  unfold member
  split
  · exact ⟨hfound.loose _ piecesOn_nil, piecesOn_nil⟩
  obtain ⟨hp, hrest⟩ := piecesOn_cons.mp h
  split
  · rename_i inner hinner
    simp only [partsOn_cons, part_on_node, nodeOn_mk, partsOn_append, searched_on]
    exact ⟨⟨⟨⟨hstart, hp.stop, nodesOn_nil⟩, hfound.listed _, hp.inner hinner, partsOn_nil⟩, partsOn_nil⟩, hrest⟩
  · obtain ⟨-, hafter⟩ := typeParameters_on h
    exact signature_on hfound hstart (h.upTo _) (marks_on hafter).2

end signature

/-! ### Trees -/

theorem memberStep_on (kind : BodyKind) {p : Piece} (h : PiecesOn P (p :: rest)) :
    PartsOn P (memberStep kind p rest).1 ∧ PiecesOn P (memberStep kind p rest).2 := by
  obtain ⟨hp, hrest⟩ := piecesOn_cons.mp h
  unfold memberStep
  split
  · exact ⟨partsOn_nil, hrest⟩
  split
  · rename_i part more hread
    obtain ⟨hpart, hmore⟩ := declaration?_on hread h
    exact ⟨partsOn_cons.mpr ⟨hpart, partsOn_nil⟩, hmore⟩
  · obtain ⟨hmarks, hafter⟩ := marks_on h
    exact member_on hmarks (hmarks.startOf hp.start) hafter

theorem constantStep_on {p : Piece} (h : PiecesOn P (p :: rest)) :
    PartsOn P (constantStep p rest).1 ∧ PiecesOn P (constantStep p rest).2 := by
  obtain ⟨hp, hrest⟩ := piecesOn_cons.mp h
  unfold constantStep
  split
  · exact ⟨partsOn_nil, hrest⟩
  split
  · simp only [partsOn_cons, part_on_node, nodeOn_mk, part_on_unread]
    exact ⟨⟨⟨⟨hp.start, endOf_on hp.stop hrest, nodesOn_nil⟩, hrest, partsOn_nil⟩, partsOn_nil⟩, piecesOn_nil⟩
  · obtain ⟨hmarks, hafter⟩ := marks_on h
    dsimp only
    split
    · exact ⟨hmarks.loose _ piecesOn_nil, piecesOn_nil⟩
    · rename_i name more htake
      obtain ⟨hname, hmore⟩ := piecesOn_cons.mp (htake ▸ hafter)
      have hdetails := hmore.mono (List.takeWhile_subset fun q => q.isGroup "(" || q.isGroup "\x7b")
      simp only [partsOn_cons, part_on_node, nodeOn_mk, partsOn_append, searched_on]
      exact ⟨⟨⟨⟨hmarks.startOf hname.start, endOf_on hname.stop hdetails, nodesOn_nil⟩, hmarks.listed _,
        ⟨nodeOn_leaf hname _ _ _, partsOn_nil⟩, hdetails, partsOn_nil⟩, partsOn_nil⟩,
        hmore.suffix (List.dropWhile_suffix _)⟩

theorem grammar_keepsTo : grammar.KeepsTo P
  | .declarations, _, _, h => searchStep_on declaration?_on _ h
  | .members kind, _, _, h => memberStep_on kind h
  | .constants, _, _, h => constantStep_on h

/-- Every node of a tree has its ends between characters of the source. -/
theorem read_on (source : List Char) : NodeOn (Text.Utf8.IsBoundary source) (read source).root :=
  Grammar.tree_on _ _ _ source grammar_keepsTo

end Recordsmith.Source.JavaSource
