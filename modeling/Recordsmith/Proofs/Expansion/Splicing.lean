import Recordsmith.Proofs.Expansion.Placement

/-!
Splicing: the edits of an expansion lie in the source, and they are apart exactly when no marked declaration stands inside
the marker of another. Then the expansion replaces every range at once, and all that it takes away is markers, the gaps
after them and blanks before closing braces.
-/

namespace Recordsmith

open Text.Utf8 (encode charOffset)
open Recordsmith.Tree (Node Dialect SourceTree BodyPlace MarkPlace Placed)

namespace Tree.Dialect

/-- The positions that an expansion may take away: those of markers, of a gap right after a marker, and of blanks right
    before the closing brace of a marked declaration. -/
inductive Erasable (d : Dialect) (source : List Char) (root : Node) (marker : String) (i : Nat) : Prop
  | marker {n body mark : Node} (hn : n ∈ root.preorder) (hmarked : d.Marked (encode source) marker n body mark)
    (low : charOffset source mark.start ≤ i) (high : i < charOffset source mark.stop)
  | gap {n body mark : Node} (hn : n ∈ root.preorder) (hmarked : d.Marked (encode source) marker n body mark)
    (stop : Nat) (low : charOffset source mark.stop ≤ i) (high : i < stop)
    (gap : Text.IsGap ((source.drop (charOffset source mark.stop)).take (stop - charOffset source mark.stop)))
  | ending {n body mark : Node} (hn : n ∈ root.preorder) (hmarked : d.Marked (encode source) marker n body mark)
    (high : i + 1 < charOffset source body.stop)
    (blank : ∀ j, i ≤ j → j + 1 < charOffset source body.stop → ∃ c, source[j]? = some c ∧ Text.isBlank c = true)

end Tree.Dialect

/-! ### The edits of one declaration -/

namespace Tree.Dialect
variable {d : Dialect} {source : List Char} {root n body mark : Node} {marker : String}

/-- The brace that opens a body is visible, after the marker. -/
theorem editPlace_of_places (m : MarkPlace source n body mark) (b : BodyPlace source n body)
    (hstop : charOffset source body.stop ≤ source.length) : EditPlace source n body mark where
  toMarkPlace := m
  visible := ⟨charOffset source body.start, m.stop_le, b.opening_lt, '\x7b', b.opening, by decide⟩
  bodyStop_le := b.stop_le
  inSource := hstop

theorem IsEditOf.isWithin {e : Edit} (h : IsEditOf d source n body mark e) (m : MarkPlace source n body mark)
    (b : BodyPlace source n body) (hstop : charOffset source body.stop ≤ source.length) : e.IsWithin source :=
  (editPlace_of_places m b hstop).isWithin h

theorem pick_removal {keep : Nat → Bool} (hkeep : ∀ i, keep i = true → ¬d.Erasable source root marker i)
    (hn : n ∈ root.preorder) (hm : d.Marked (encode source) marker n body mark)
    (hw : (removal source mark).IsWithin source) :
    Text.pick keep (removal source mark).start.toNat ((removal source mark).replaced source) = [] := by
  refine Text.pick_eq_nil fun i hlow hhigh => ?_
  have hlen := hw.length_replaced
  simp only [removal] at hlow hhigh hlen
  have herasable : d.Erasable source root marker i := by
    by_cases hi : i < charOffset source mark.stop
    · exact .marker hn hm (by omega) hi
    · exact .gap hn hm (Text.gapEnd source (charOffset source mark.stop)) (by omega) (by omega) (Text.isGap_gapEnd ..)
  rw [← Bool.not_eq_true]
  exact fun hk => hkeep i hk herasable

/-- Before the last character of a body only blanks are taken away, and where it is a closing brace, it comes back. -/
theorem pick_ending {keep : Nat → Bool} (hkeep : ∀ i, keep i = true → ¬d.Erasable source root marker i)
    (hn : n ∈ root.preorder) (hm : d.Marked (encode source) marker n body mark) (p : EditPlace source n body mark)
    (hlast : keep (charOffset source body.stop - 1) = true → source[charOffset source body.stop - 1]? = some '\x7d')
    {e : Edit} (hstart : e.start = headLength source body) (hstop : e.stop = charOffset source body.stop) :
    (Text.pick keep e.start.toNat (e.replaced source)).Sublist ['\x7d'] := by
  obtain ⟨blanks, c, hsplit, -, hcount, hc⟩ := p.replaced_ending hstart hstop
  have hlen := p.inSource
  rw [hsplit, Text.pick_append, Text.pick_eq_nil, List.nil_append, hstart, Int.toNat_natCast]
  · by_cases hk : keep (charOffset source body.stop - 1) = true
    · obtain rfl : c = '\x7d' := Option.some.inj (hc.symm.trans (hlast hk))
      exact Text.pick_sublist _
    · rw [Text.pick_eq_nil]
      · exact List.nil_sublist _
      · intro i hlow hhigh
        obtain rfl : i = charOffset source body.stop - 1 := by
          rw [List.length_singleton] at hhigh
          omega
        exact Bool.not_eq_true _ ▸ hk
  · intro i hlow hhigh
    have herasable : d.Erasable source root marker i :=
      .ending hn hm (by omega) fun j hj hjs => isBlank_of_headLength_le (by omega) hjs (by omega)
    rw [← Bool.not_eq_true]
    exact fun hk => hkeep i hk herasable

/-- Of what the edits of a declaration take away, only a closing brace may not go, and it comes back. -/
theorem EditPlace.pick_sublist {keep : Nat → Bool} (p : EditPlace source n body mark)
    (hkeep : ∀ i, keep i = true → ¬d.Erasable source root marker i) (hn : n ∈ root.preorder)
    (hm : d.Marked (encode source) marker n body mark) (hlast : d.DeclaresRecord n →
      keep (charOffset source body.stop - 1) = true → source[charOffset source body.stop - 1]? = some '\x7d') {e : Edit}
    (he : IsEditOf d source n body mark e) : (Text.pick keep e.start.toNat (e.replaced source)).Sublist e.replacement := by
  have hw := p.isWithin he
  rcases he with rfl | ⟨hrecord, hstart, hstop, hbrace⟩
  · rw [pick_removal hkeep hn hm hw]
    exact List.nil_sublist _
  · exact (pick_ending hkeep hn hm p (hlast hrecord) hstart hstop).trans hbrace

theorem IsEditOf.pick_sublist {keep : Nat → Bool} (hkeep : ∀ i, keep i = true → ¬d.Erasable source root marker i)
    (hn : n ∈ root.preorder) (hm : d.Marked (encode source) marker n body mark) (m : MarkPlace source n body mark)
    (b : BodyPlace source n body) (hlen : charOffset source body.stop ≤ source.length) {e : Edit}
    (he : IsEditOf d source n body mark e) : (Text.pick keep e.start.toNat (e.replaced source)).Sublist e.replacement :=
  (editPlace_of_places m b hlen).pick_sublist hkeep hn hm (fun _ _ => b.closing) he

end Tree.Dialect

/-! ### The edits of two declarations -/

namespace Tree.Dialect
variable {d : Dialect} {source : List Char} {root n body mark n' body' mark' : Node} {marker : String}

/-- A well-formed tree is a recovered one, with nothing left to recover. -/
theorem WellFormed.recovered (wf : d.WellFormed source root) (marker : String) : d.Recovered source root marker where
  placed := wf.placed
  solid n hn body mark hm := wf.attributes n hn body hm.toDeclares mark (mem_attributes_of_markerOf hm.marks)
  headFirst n hn body mark hm := wf.attribute_stop_le hn hm.toDeclares (mem_attributes_of_markerOf hm.marks)
  visible n hn body mark hm := by
    have b := wf.bodyPlace hn hm.toDeclares
    have := b.opening_lt
    exact ⟨charOffset source body.start, by omega,
      (wf.markPlace hn hm.toDeclares (mem_attributes_of_markerOf hm.marks)).stop_le, '\x7b', b.opening, by decide⟩
  inner n hn body mark hm _ c hc n' hn' body' mark' hm' _ hstop := by
    have hcRoot := Node.mem_preorder_of_child hn hc
    have hnRoot' := Node.mem_preorder_trans hn' hcRoot
    have hbody := Node.mem_preorder_of_child hn hm.toDeclares.body_mem
    have hbody' := Node.mem_preorder_of_child hnRoot' hm'.toDeclares.body_mem
    have b' := wf.bodyPlace hnRoot' hm'.toDeclares
    refine ⟨?_, '\x7d', b'.closing, by decide⟩
    rcases (Placed.ordered wf.placed n hn).children_cases hc hm.toDeclares.body_mem with rfl | hfront | hback
    · exact wf.stop_lt_of_mem_body hn hm.toDeclares hm'.toDeclares hn'
    · have hbefore := Placed.offset_le wf.placed hcRoot hbody hfront
      have hbelow := (Placed.offset_range wf.placed hcRoot hn').2
      have := (wf.bodyPlace hn hm.toDeclares).opening_lt
      have := b'.stop_le
      omega
    · -- After the body there is no room for another one that ends before it does.
      have hafter := Placed.offset_le wf.placed hbody hcRoot hback
      have hbelow := (Placed.offset_range wf.placed hcRoot hn').1
      have hend := ((wf.placed body' hbody').stop_boundary.charOffset_le_iff
        (wf.placed body hbody).stop_boundary).mpr hstop
      have := b'.start_le
      have := b'.opening_lt
      omega

/-- The marker of a declaration inside the marker of another cannot be removed apart from it. -/
theorem not_apart_of_mem_mark (wf : d.WellFormed source root) (hn : n ∈ root.preorder)
    (hm : d.Marked (encode source) marker n body mark) (hm' : d.Marked (encode source) marker n' body' mark')
    (hin : n' ∈ mark.preorder) :
    removal source mark ≠ removal source mark' ∧ ¬(removal source mark).Apart (removal source mark') := by
  have hmark := mem_preorder_of_mem_attributes hn (mem_attributes_of_markerOf hm.marks)
  have hn' : n' ∈ root.preorder := Node.mem_preorder_trans hin hmark
  have m' := wf.markPlace hn' hm'.toDeclares (mem_attributes_of_markerOf hm'.marks)
  have b' := wf.bodyPlace hn' hm'.toDeclares
  obtain ⟨hlow, hhigh⟩ := Placed.offset_range wf.placed hmark hin
  have hgap : charOffset source mark.stop ≤ Text.gapEnd source (charOffset source mark.stop) := Text.le_gapEnd
  have hgap' : Text.gapEnd source (charOffset source mark'.stop) ≤ charOffset source body'.start :=
    Text.gapEnd_le m'.stop_le b'.opening (by decide)
  have hle' : charOffset source mark'.stop ≤ Text.gapEnd source (charOffset source mark'.stop) := Text.le_gapEnd
  -- The inner declaration starts inside the outer marker and its body ends there, after its own marker and gap.
  have hstart' := m'.start_le
  have hlt' := m'.start_lt
  have hopen' := b'.opening_lt
  have hstop' := b'.stop_le
  constructor
  · intro heq
    have := congrArg Edit.stop heq
    simp only [removal] at this
    omega
  · simp only [Edit.Apart, removal]
    omega

end Tree.Dialect

/-! ### A whole expansion -/

namespace LanguageKit
variable {k : LanguageKit} {source : List Char} {config : Config} {root n body mark : Node} {r : Declaration}
  {members : List GeneratedMember} {t : Treatment}

namespace TreatsAll
variable {pairs : List (Node × Treatment)}

/-- Every edit belongs to a marked declaration of the tree. -/
theorem exists_isEditOf (h : k.TreatsAll source config root.preorder pairs) (wf : k.dialect.WellFormed source root)
    {e : Edit} (he : e ∈ pairs.flatMap (·.2.edits)) :
    ∃ n ∈ root.preorder, ∃ body mark, k.dialect.Marked (encode source) config.synthesis.marker n body mark ∧
      MarkPlace source n body mark ∧ BodyPlace source n body ∧ charOffset source body.stop ≤ source.length ∧
      Dialect.IsEditOf k.dialect source n body mark e := by
  obtain ⟨n, hn, body, mark, hm, place, he⟩ := h.exists_editPlace (wf.recovered _) he
  exact ⟨n, hn, body, mark, hm, place.toMarkPlace, wf.bodyPlace hn hm.toDeclares, place.inSource, he⟩

theorem pairwise_apart (h : k.TreatsAll source config root.preorder pairs) (wf : k.dialect.WellFormed source root)
    (hd : k.dialect.SparesModifiers) (hapart : k.dialect.MarkersApart source root config.synthesis.marker) :
    (pairs.flatMap (·.2.edits)).Pairwise Edit.Apart :=
  h.pairwise_apart_of_recovered (wf.recovered _) hd hapart

theorem removal_mem (h : k.TreatsAll source config root.preorder pairs) (hn : n ∈ root.preorder)
    (hm : k.dialect.Marked (encode source) config.synthesis.marker n body mark) :
    Dialect.removal source mark ∈ pairs.flatMap (·.2.edits) := by
  obtain ⟨p, hp, rfl⟩ := List.mem_map.mp (h.complete n hn body mark hm)
  obtain ⟨body', mark', r, members, htreats⟩ := h.treats p hp
  obtain rfl : mark' = mark := Option.some.inj (Except.ok.inj (htreats.marked.marks.symm.trans hm.marks))
  exact List.mem_flatMap.mpr ⟨p, hp, htreats.removal_mem⟩

theorem markersApart (h : k.TreatsAll source config root.preorder pairs) (wf : k.dialect.WellFormed source root)
    (hapart : (pairs.flatMap (·.2.edits)).Pairwise Edit.Apart) :
    k.dialect.MarkersApart source root config.synthesis.marker := by
  intro n hn body mark hm inner hin innerBody innerMark hinner
  have hmark := Dialect.mem_preorder_of_mem_attributes hn (Dialect.mem_attributes_of_markerOf hm.marks)
  obtain ⟨hne, hnot⟩ := Dialect.not_apart_of_mem_mark wf hn hm hinner hin
  exact hnot (hapart.forall (h.removal_mem hn hm) (h.removal_mem (Node.mem_preorder_trans hin hmark) hinner) hne)

end TreatsAll

end LanguageKit

/-- The edits of an expansion lie in the source, and they are apart exactly when no marked declaration stands inside the
    marker of another. Then the new source is the old one with every range replaced at once, and every character of the
    old one that is not part of a marker, of the gap after it or of the blanks before a closing brace is still there, in
    its place in the order. -/
theorem splicing_is_simultaneous {k : LanguageKit} (hk : k = .swift ∨ k = .java) {source : List Char} {tree : SourceTree}
    {config : Config} {e : Expansion} (wf : k.dialect.WellFormed source tree.root)
    (h : k.expandTree source tree config = .ok e) :
    ∃ declarations treatments edits, k.dialect.extract source tree config.synthesis.marker = .ok declarations ∧
      Expansion.treatments k.renderer source config declarations = .ok treatments ∧
      edits = treatments.flatMap (·.edits) ∧
      (∀ x ∈ edits, x.IsWithin source) ∧
      (edits.Pairwise Edit.Apart ↔ k.dialect.MarkersApart source tree.root config.synthesis.marker) ∧
      (k.dialect.MarkersApart source tree.root config.synthesis.marker → e.source = Edit.atOnce source edits ∧
        ∀ keep : Nat → Bool,
          (∀ i, keep i = true → ¬k.dialect.Erasable source tree.root config.synthesis.marker i) →
            (Text.pick keep 0 source).Sublist e.source) := by
  have hd : k.dialect.SparesModifiers := by
    rcases hk with rfl | rfl
    · exact Dialect.swift_sparesModifiers
    · exact Dialect.java_sparesModifiers
  obtain ⟨declarations, pairs, hextract, htreatments, rfl, hall⟩ := LanguageKit.expandTree_eq_ok h
  have hedits : (pairs.map (·.2)).flatMap (·.edits) = pairs.flatMap (·.2.edits) := List.flatMap_map ..
  have hwithin : ∀ x ∈ pairs.flatMap (·.2.edits), x.IsWithin source := by
    intro x hx
    obtain ⟨n, -, body, mark, -, m, b, hlen, hx⟩ := hall.exists_isEditOf wf hx
    exact hx.isWithin m b hlen
  refine ⟨declarations, _, pairs.flatMap (·.2.edits), hextract, htreatments, hedits.symm, hwithin,
    ⟨hall.markersApart wf, hall.pairwise_apart wf hd⟩, ?_⟩
  intro hmarkers
  have hapart := hall.pairwise_apart wf hd hmarkers
  simp only [Expansion.ofTreatments, hedits]
  refine ⟨Edit.applyAll_eq_atOnce hwithin hapart, fun keep hkeep => ?_⟩
  refine Edit.pick_sublist_applyAll hwithin hapart fun x hx => ?_
  obtain ⟨n, hn, body, mark, hm, m, b, hlen, hx⟩ := hall.exists_isEditOf wf hx
  exact hx.pick_sublist hkeep hn hm m b hlen

/-! ### Nested declarations -/

theorem Tree.Dialect.markersApart_of_plain {d : Dialect} {source : List Char} {root : Node} {marker : String}
    (h : ∀ n ∈ root.preorder, ∀ mark ∈ d.attributes n, ∀ inner ∈ mark.preorder, d.aggregate? inner = none) :
    d.MarkersApart source root marker := by
  intro n hn body mark hm inner hinner innerBody innerMark hmarked
  have hnone := h n hn mark (mem_attributes_of_markerOf hm.marks) inner hinner
  have hsome := hmarked.aggregate
  rw [hnone] at hsome
  cases hsome

namespace Sample

def nestedSource : List Char := "@Buildable struct A \x7b @Buildable struct B \x7b\x7d \x7d".toList

def nestedTree : SourceTree where
  root := ⟨"source_file", 0, 46, true, none, [⟨"class_declaration", 0, 46, true, none, [
    ⟨"modifiers", 0, 10, true, none, [⟨"attribute", 0, 10, true, none, [
      ⟨"@", 0, 1, false, none, []⟩, ⟨"user_type", 1, 10, true, none, []⟩]⟩]⟩,
    ⟨"struct", 11, 17, false, some "declaration_kind", []⟩, ⟨"type_identifier", 18, 19, true, some "name", []⟩,
    ⟨"class_body", 20, 46, true, some "body", [⟨"\x7b", 20, 21, false, none, []⟩,
      ⟨"class_declaration", 22, 44, true, none, [
        ⟨"modifiers", 22, 32, true, none, [⟨"attribute", 22, 32, true, none, [
          ⟨"@", 22, 23, false, none, []⟩, ⟨"user_type", 23, 32, true, none, []⟩]⟩]⟩,
        ⟨"struct", 33, 39, false, some "declaration_kind", []⟩, ⟨"type_identifier", 40, 41, true, some "name", []⟩,
        ⟨"class_body", 42, 44, true, some "body", [
          ⟨"\x7b", 42, 43, false, none, []⟩, ⟨"\x7d", 43, 44, false, none, []⟩]⟩]⟩,
      ⟨"\x7d", 45, 46, false, none, []⟩]⟩]⟩]⟩
  faulty := false

/-- A marker whose argument is an object of a class with a marked declaration in its body. -/
def bodyInMarkerSource : List Char :=
  "@Buildable(new Object() \x7b @Buildable enum B \x7b\x7d \x7d) class A \x7b int x; \x7d".toList

def bodyInMarkerTree : SourceTree where
  root := ⟨"program", 0, 68, true, none, [⟨"class_declaration", 0, 68, true, none, [
    ⟨"modifiers", 0, 49, true, none, [⟨"annotation", 0, 49, true, none, [
      ⟨"@", 0, 1, false, none, []⟩, ⟨"identifier", 1, 10, true, some "name", []⟩,
      ⟨"annotation_argument_list", 10, 49, true, some "arguments", [⟨"(", 10, 11, false, none, []⟩,
        ⟨"object_creation_expression", 11, 48, true, none, [
          ⟨"new", 11, 14, false, none, []⟩, ⟨"type_identifier", 15, 21, true, some "type", []⟩,
          ⟨"argument_list", 21, 23, true, some "arguments", [⟨"(", 21, 22, false, none, []⟩, ⟨")", 22, 23, false, none, []⟩]⟩,
          ⟨"class_body", 24, 48, true, none, [⟨"\x7b", 24, 25, false, none, []⟩,
            ⟨"enum_declaration", 26, 46, true, none, [
              ⟨"modifiers", 26, 36, true, none, [⟨"marker_annotation", 26, 36, true, none, [
                ⟨"@", 26, 27, false, none, []⟩, ⟨"identifier", 27, 36, true, some "name", []⟩]⟩]⟩,
              ⟨"enum", 37, 41, false, none, []⟩, ⟨"identifier", 42, 43, true, some "name", []⟩,
              ⟨"enum_body", 44, 46, true, some "body", [
                ⟨"\x7b", 44, 45, false, none, []⟩, ⟨"\x7d", 45, 46, false, none, []⟩]⟩]⟩,
            ⟨"\x7d", 47, 48, false, none, []⟩]⟩]⟩,
        ⟨")", 48, 49, false, none, []⟩]⟩]⟩]⟩,
    ⟨"class", 50, 55, false, none, []⟩, ⟨"identifier", 56, 57, true, some "name", []⟩,
    ⟨"class_body", 58, 68, true, some "body", [⟨"\x7b", 58, 59, false, none, []⟩,
      ⟨"field_declaration", 60, 66, true, none, [
        ⟨"integral_type", 60, 63, true, some "type", [⟨"int", 60, 63, false, none, []⟩]⟩,
        ⟨"variable_declarator", 64, 65, true, some "declarator", [⟨"identifier", 64, 65, true, some "name", []⟩]⟩,
        ⟨";", 65, 66, false, none, []⟩]⟩,
      ⟨"\x7d", 67, 68, false, none, []⟩]⟩]⟩]⟩
  faulty := false

end Sample

open Sample in
theorem splicing_is_simultaneous_nested :
    LanguageKit.swift.dialect.WellFormed nestedSource nestedTree.root ∧
      LanguageKit.swift.dialect.MarkersApart nestedSource nestedTree.root "Buildable" ∧
      ∃ e edits, LanguageKit.swift.expandTree nestedSource nestedTree {} = .ok e ∧ edits.Pairwise Edit.Apart ∧
        e.source = Edit.atOnce nestedSource edits := by
  have wf : LanguageKit.swift.dialect.WellFormed nestedSource nestedTree.root := by decide +kernel
  have hmarkers : LanguageKit.swift.dialect.MarkersApart nestedSource nestedTree.root "Buildable" :=
    Dialect.markersApart_of_plain (by decide +kernel)
  obtain ⟨e, he⟩ : ∃ e, LanguageKit.swift.expandTree nestedSource nestedTree {} = .ok e :=
    exists_eq_ok (by decide +kernel)
  obtain ⟨-, -, edits, -, -, -, -, hapart, hsource⟩ := splicing_is_simultaneous (Or.inl rfl) wf he
  exact ⟨wf, hmarkers, e, edits, he, hapart.mpr hmarkers, (hsource hmarkers).1⟩

open Sample in
/-- Where a marked declaration stands inside the marker of another, edits overlap. -/
theorem splicing_overlaps_in_marker :
    LanguageKit.java.dialect.WellFormed bodyInMarkerSource bodyInMarkerTree.root ∧
      ∃ declarations treatments,
        LanguageKit.java.dialect.extract bodyInMarkerSource bodyInMarkerTree "Buildable" = .ok declarations ∧
        Expansion.treatments LanguageKit.java.renderer bodyInMarkerSource {} declarations = .ok treatments ∧
        ¬(treatments.flatMap (·.edits)).Pairwise Edit.Apart := by
  refine ⟨by decide +kernel, ?_⟩
  have hrun : ((LanguageKit.java.dialect.extract bodyInMarkerSource bodyInMarkerTree "Buildable").toOption.bind
      fun declarations => (Expansion.treatments LanguageKit.java.renderer bodyInMarkerSource {} declarations).toOption).any
      (fun treatments => !decide ((treatments.flatMap (·.edits)).Pairwise Edit.Apart)) = true := by
    decide +kernel
  obtain ⟨treatments, htreatments, hnot⟩ := (Option.any_eq_true _ _).mp hrun
  obtain ⟨declarations, hdeclarations, htreatments⟩ := Option.bind_eq_some_iff.mp htreatments
  exact ⟨declarations, treatments, Tree.eq_ok_of_toOption hdeclarations, Tree.eq_ok_of_toOption htreatments,
    by simpa using hnot⟩

end Recordsmith
