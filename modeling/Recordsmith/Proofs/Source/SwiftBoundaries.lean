import Recordsmith.Proofs.Source.Parts
import Recordsmith.Source.SwiftSource

/-!
The nodes of a Swift tree have their ends where the pieces of the source have theirs. There is one lemma for each reader,
and the steps of the grammar put them together.
-/

namespace Recordsmith.Source.SwiftSource

open Recordsmith.Tree (Node)

variable {P : Nat → Prop} {pieces rest : List Piece}

/-! ### Marks -/

theorem adjacentArguments_on {stop : Nat} (hstop : P stop) (h : PiecesOn P pieces) :
    P (adjacentArguments stop pieces).1 ∧ PiecesOn P (adjacentArguments stop pieces).2 := by
  unfold adjacentArguments
  grind

grind_pattern adjacentArguments_on => adjacentArguments stop pieces, PiecesOn P pieces

theorem attributeArguments_on {stop : Nat} (hstop : P stop) (h : PiecesOn P pieces) :
    P (attributeArguments stop pieces).1 := by
  unfold attributeArguments
  grind

theorem attributeAfter_on {sign name : Piece} (hsign : sign.On P) (hname : name.On P) (hrest : PiecesOn P rest) :
    NodeOn P (attributeAfter sign name rest).1.node ∧ PiecesOn P (attributeAfter sign name rest).1.arguments := by
  obtain ⟨hstop, hmore⟩ := dottedName_on hname.stop hrest
  obtain ⟨hstop, hmore⟩ := adjacentArguments_on hstop hmore
  have hend := attributeArguments_on hstop hmore
  simp only [attributeAfter, nodeOn_mk, nodesOn_cons]
  exact ⟨⟨hsign.start, hend, ⟨hname.start, hstop, nodesOn_nil⟩, nodesOn_nil⟩, hrest.upTo _⟩

grind_pattern attributeAfter_on => attributeAfter sign name rest, PiecesOn P rest

theorem mark?_on {m : Mark} (h : mark? pieces = some (m, rest)) (hpieces : PiecesOn P pieces) :
    NodeOn P m.node ∧ PiecesOn P m.arguments := by
  unfold mark? at h
  grind

theorem marks_on (h : PiecesOn P pieces) : MarksOn P (marks.take pieces).1 ∧ PiecesOn P (marks.take pieces).2 :=
  MarkReader.take_on mark?_on h

theorem markParts_on {found : List Mark} (scope : Scope) (h : MarksOn P found) : PartsOn P (scope.markParts found) := by
  cases scope with
  | outer => exact h.listed _
  | inner => exact h.parts _

@[grind =] theorem searched_on : (searched pieces).On P ↔ PiecesOn P pieces := part_on_unread

/-! ### Types -/

theorem typeParameters_on (h : PiecesOn P pieces) :
    PartsOn P (typeParameters pieces).1 ∧ PiecesOn P (typeParameters pieces).2 := by
  refine ⟨typeParameterList_on (fun hp => ?_) h, h.suffix (typeParameterList_suffix ..)⟩
  split
  · exact nodesOn_nil
  · exact nodesOn_cons.mpr ⟨nodeOn_leaf hp _ _ _, nodesOn_nil⟩

theorem typeTail_on {stop : Nat} (hstop : P stop) (h : PiecesOn P pieces) : P (typeTail stop pieces).1 := by
  fun_induction typeTail stop pieces <;> grind

grind_pattern typeTail_on => typeTail stop pieces, PiecesOn P pieces

@[grind →] theorem type?_on {stop : Nat} (htype : type? pieces = some (stop, rest)) (h : PiecesOn P pieces) : P stop := by
  fun_induction type? pieces <;> grind [Option.or_eq_some_iff]

/-! ### Ends of members -/

@[grind .] theorem throughEnd_on (blockEnds continued : Bool) (h : PiecesOn P pieces) :
    PiecesOn P (throughEnd blockEnds continued pieces).1 ∧ PiecesOn P (throughEnd blockEnds continued pieces).2 := by
  rwa [← piecesOn_append, throughEnd_append]

theorem restOfLine_on (h : PiecesOn P pieces) : PiecesOn P (restOfLine pieces).1 ∧ PiecesOn P (restOfLine pieces).2 := by
  rwa [← piecesOn_append, restOfLine_append]

@[grind .] theorem expression_on (continued : Bool) (h : PiecesOn P pieces) :
    PiecesOn P (expression continued pieces).1 ∧ PiecesOn P (expression continued pieces).2 := by
  rwa [← piecesOn_append, expression_append]

@[grind .] theorem operatorEnd_on {stop : Nat} (hstop : P stop) (h : PiecesOn P pieces) : P (operatorEnd stop pieces) := by
  fun_induction operatorEnd stop pieces <;> grind

/-! ### Declarations -/

theorem body?_on {continued : Bool} {before inner : List Piece} {body : Piece}
    (hbody : body? continued pieces = some (before, body, inner, rest)) (h : PiecesOn P pieces) :
    PiecesOn P before ∧ body.On P ∧ PiecesOn P inner ∧ PiecesOn P rest := by
  obtain ⟨rfl, hinner⟩ := body?_eq hbody
  rw [piecesOn_append, piecesOn_cons] at h
  exact ⟨h.1, h.2.1, h.2.1.inner hinner, h.2.2⟩

theorem name?_on {keyword : String} {name : Piece} {stop : Nat} (hname : name? keyword pieces = some (name, stop, rest))
    (h : PiecesOn P pieces) : name.On P ∧ P stop := by
  unfold name? at hname
  grind [Option.map_eq_some_iff]

theorem head?_on {start : Nat} {keyword : Piece} {word : String} {bodyKind : BodyKind}
    (hhead : head? pieces = some (start, keyword, word, bodyKind, rest)) (h : PiecesOn P pieces) :
    P start ∧ keyword.On P ∧ PiecesOn P rest := by
  unfold head? at hhead
  grind [Option.map_eq_some_iff]

theorem declaration?_on {scope : Scope} {part : Part Mode} (hread : declaration? scope pieces = some (part, rest))
    (h : PiecesOn P pieces) : part.On P ∧ PiecesOn P rest := by
  obtain ⟨⟨start, keyword, word, bodyKind, afterKeyword⟩, hhead, hread⟩ := Option.bind_eq_some_iff.mp hread
  obtain ⟨⟨name, nameStop, afterName⟩, hname, hread⟩ := Option.bind_eq_some_iff.mp hread
  obtain ⟨⟨before, body, inner, more⟩, hbody, hread⟩ := Option.bind_eq_some_iff.mp hread
  obtain ⟨rfl, rfl⟩ := Prod.mk.inj (Option.some.inj hread)
  obtain ⟨hmarks, hafter⟩ := marks_on h
  obtain ⟨hstart, hkeyword, hafterKeyword⟩ := head?_on hhead hafter
  obtain ⟨hon, hnameStop⟩ := name?_on hname hafterKeyword
  obtain ⟨hparameters, hafterParameters⟩ := typeParameters_on (hafterKeyword.suffix (name?_suffix hname))
  obtain ⟨hbefore, hbody, hinner, hmore⟩ := body?_on hbody hafterParameters
  simp only [part_on_node, nodeOn_mk, partsOn_append, partsOn_cons, searched_on, part_on_unread]
  exact ⟨⟨⟨hmarks.startOf hstart, hbody.stop, nodesOn_nil⟩,
    ⟨markParts_on scope hmarks, ⟨nodeOn_leaf hkeyword _ _ _, partsOn_nil⟩,
      ⟨⟨hon.start, hnameStop, nodesOn_nil⟩, hafterKeyword.upTo _, partsOn_nil⟩, hparameters⟩,
    hbefore, ⟨⟨hbody.start, hbody.stop, nodesOn_nil⟩, hinner, partsOn_nil⟩, partsOn_nil⟩, hmore⟩

/-! ### Members -/

theorem patternNode_on {p : Piece} (h : p.On P) : NodeOn P (patternNode p) := by
  unfold patternNode
  grind

theorem declaredType_on (h : PiecesOn P pieces) : PartsOn P (declaredType pieces).1 ∧ PiecesOn P (declaredType pieces).2 := by
  unfold declaredType
  split
  · exact ⟨partsOn_nil, h⟩
  obtain ⟨hcolon, hafter⟩ := piecesOn_cons.mp h
  split
  · split
    · rename_i stop more htype
      simp only [partsOn_cons, part_on_node, nodeOn_mk, searched_on]
      exact ⟨⟨⟨⟨hcolon.start, type?_on htype hafter, nodesOn_nil⟩, hafter.upTo _, partsOn_nil⟩, partsOn_nil⟩,
        hafter.suffix (type?_suffix htype)⟩
    · exact ⟨partsOn_nil, hafter⟩
  · exact ⟨partsOn_nil, h⟩

theorem initialValue_on (h : PiecesOn P pieces) : PartsOn P (initialValue pieces).1 ∧ PiecesOn P (initialValue pieces).2 := by
  unfold initialValue
  grind

theorem accessors_on (h : PiecesOn P pieces) : PartsOn P (accessors pieces).1 ∧ PiecesOn P (accessors pieces).2 := by
  unfold accessors
  grind

@[grind .] theorem bindingDetails_on (h : PiecesOn P pieces) :
    PartsOn P (bindingDetails pieces).1 ∧ PiecesOn P (bindingDetails pieces).2 := by
  obtain ⟨htype, h⟩ := declaredType_on h
  obtain ⟨hvalue, h⟩ := initialValue_on h
  obtain ⟨hblock, h⟩ := accessors_on h
  simp only [bindingDetails, partsOn_append]
  exact ⟨⟨⟨htype, hvalue⟩, hblock⟩, h⟩

theorem bindings_on (h : PiecesOn P pieces) : PartsOn P (bindings pieces).1 ∧ PiecesOn P (bindings pieces).2 := by
  fun_induction bindings pieces <;> grind [patternNode_on]

theorem property_on {kind : BodyKind} {found : List Mark} {start : Nat} {keyword : Piece} (hfound : MarksOn P found)
    (hstart : P start) (hkeyword : keyword.On P) (h : PiecesOn P pieces) :
    PartsOn P (property kind found start keyword pieces).1 ∧ PiecesOn P (property kind found start keyword pieces).2 := by
  unfold property
  split
  · obtain ⟨htaken, hmore⟩ := throughEnd_on true true h
    simp only [partsOn_cons, part_on_node, nodeOn_mk, partsOn_append, searched_on]
    refine ⟨⟨⟨⟨hstart, endOf_on hkeyword.stop htaken, fun node hnode => ?_⟩, hfound.listed _, htaken, partsOn_nil⟩,
      partsOn_nil⟩, hmore⟩
    obtain ⟨p, hp, rfl⟩ := Option.map_eq_some_iff.mp (Option.mem_toList.mp hnode)
    exact nodeOn_mk.mpr ⟨hkeyword.start, (htaken p (List.mem_of_head? hp)).stop, nodesOn_nil⟩
  · obtain ⟨hparts, hmore⟩ := bindings_on h
    simp only [partsOn_cons, part_on_node, nodeOn_mk, partsOn_append, nodesOn_cons]
    exact ⟨⟨⟨⟨hstart, endOf_on hkeyword.stop (h.upTo _), nodesOn_nil⟩, hfound.listed _,
      ⟨⟨hkeyword.start, hkeyword.stop, nodeOn_leaf hkeyword _ _ _, nodesOn_nil⟩, partsOn_nil⟩, hparts⟩, partsOn_nil⟩, hmore⟩

theorem resultName_on {taken : List Piece} (h : PiecesOn P taken) : NodesOn P (resultName taken) := by
  have hresult : PiecesOn P ((taken.dropWhile (!·.isGroup "(")).drop 1) :=
    (h.suffix (List.dropWhile_suffix _)).suffix (List.drop_suffix ..)
  unfold resultName
  split
  · rename_i q after harrow
    have hafter := hresult.suffix (afterArrow?_suffix harrow)
    intro node hnode
    obtain ⟨⟨stop, more⟩, htype, rfl⟩ := Option.map_eq_some_iff.mp (Option.mem_toList.mp hnode)
    exact nodeOn_mk.mpr ⟨(piecesOn_cons.mp hafter).1.start, type?_on htype hafter, nodesOn_nil⟩
  · exact nodesOn_nil

theorem leadingName_on (kind : String) {taken : List Piece} (h : PiecesOn P taken) :
    NodesOn P (leadingName kind taken) := by
  intro node hnode
  obtain ⟨p, hp, rfl⟩ := Option.map_eq_some_iff.mp (Option.mem_toList.mp hnode)
  exact nodeOn_leaf (h p (List.mem_of_head? hp)) _ _ _

theorem functionName_on {taken : List Piece} (h : PiecesOn P taken) : NodesOn P (functionName taken) := by
  unfold functionName
  grind

theorem ending_on {found : List Mark} {start : Nat} {keyword : Piece} (nodeKind : String) {name : List Piece → List Node}
    {tail : List Piece × List Piece} (hfound : MarksOn P found) (hstart : P start) (hkeyword : keyword.On P)
    (hname : NodesOn P (name tail.1)) (h : PiecesOn P tail.1 ∧ PiecesOn P tail.2) :
    PartsOn P (ending found start keyword nodeKind name tail).1 ∧
      PiecesOn P (ending found start keyword nodeKind name tail).2 := by
  simp only [ending, partsOn_cons, part_on_node, nodeOn_mk, partsOn_append, searched_on]
  exact ⟨⟨⟨⟨hstart, endOf_on hkeyword.stop h.1, hname⟩, hfound.listed _, h.1, partsOn_nil⟩, partsOn_nil⟩, h.2⟩

theorem member_on {kind : BodyKind} {found : List Mark} {start : Nat} (hfound : MarksOn P found) (hstart : P start)
    (h : PiecesOn P pieces) :
    PartsOn P (member kind found start pieces).1 ∧ PiecesOn P (member kind found start pieces).2 := by
  have hafter := h.suffix (List.dropWhile_suffix (·.word? == some "indirect"))
  unfold member
  split
  · exact ⟨hfound.loose _ piecesOn_nil, piecesOn_nil⟩
  rename_i p rest hpieces
  obtain ⟨hp, hrest⟩ := piecesOn_cons.mp (hpieces ▸ hafter)
  have htail := fun blockEnds => throughEnd_on blockEnds true hrest
  have hending {blockEnds : Bool} (nodeKind : String) (name : List Piece → List Node)
      (hname : NodesOn P (name (throughEnd blockEnds true rest).1)) :=
    ending_on nodeKind hfound hstart hp hname (htail blockEnds)
  dsimp only
  split
  · exact property_on hfound hstart hp hrest
  · exact property_on hfound hstart hp hrest
  · exact hending _ _ (functionName_on (htail _).1)
  · exact hending _ (fun _ => [_]) (nodesOn_cons.mpr ⟨nodeOn_leaf hp _ _ _, nodesOn_nil⟩)
  · exact hending _ (fun _ => []) nodesOn_nil
  · exact hending _ _ (resultName_on (htail _).1)
  · exact hending _ _ (leadingName_on _ (htail _).1)
  · exact hending _ _ (leadingName_on _ (htail _).1)
  · exact hending _ _ (leadingName_on _ (htail _).1)
  · exact hending _ (fun _ => []) nodesOn_nil
  · exact ⟨hfound.loose _ hp.contents, hrest⟩

/-! ### Trees -/

theorem memberStep_on (kind : BodyKind) {p : Piece} (h : PiecesOn P (p :: rest)) :
    PartsOn P (memberStep kind p rest).1 ∧ PiecesOn P (memberStep kind p rest).2 := by
  obtain ⟨hp, hrest⟩ := piecesOn_cons.mp h
  unfold memberStep
  split
  · exact ⟨partsOn_nil, hrest⟩
  split
  · obtain ⟨htaken, hmore⟩ := restOfLine_on hrest
    simp only [partsOn_cons, part_on_node, nodeOn_mk]
    exact ⟨⟨⟨⟨hp.start, endOf_on hp.stop htaken, nodesOn_nil⟩, partsOn_nil⟩, partsOn_nil⟩, hmore⟩
  split
  · rename_i part more hread
    obtain ⟨hpart, hmore⟩ := declaration?_on hread h
    exact ⟨partsOn_cons.mpr ⟨hpart, partsOn_nil⟩, hmore⟩
  · obtain ⟨hmarks, hafter⟩ := marks_on h
    exact member_on hmarks (hmarks.startOf hp.start) hafter

theorem grammar_keepsTo : grammar.KeepsTo P
  | .declarations _, _, _, h => searchStep_on declaration?_on _ h
  | .members kind, _, _, h => memberStep_on kind h

/-- Every node of a tree has its ends between characters of the source. -/
theorem read_on (source : List Char) : NodeOn (Text.Utf8.IsBoundary source) (read source).root :=
  Grammar.tree_on _ _ _ source grammar_keepsTo

end Recordsmith.Source.SwiftSource
