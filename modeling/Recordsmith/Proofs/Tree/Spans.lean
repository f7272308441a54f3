import Mathlib.Data.List.Forall2
import Recordsmith.Proofs.Text.Blanks
import Recordsmith.Proofs.Tree.Extraction
import Recordsmith.Registry

/-!
Spans of the declarations of a well-formed tree. They come in the order of their starts, and any two of them are apart
or nested, the outer one first. A span ends with the brace that closes the body, and the marker with the gap after it
lies before the brace that opens it.
-/

namespace Recordsmith

open Text.Utf8 (encode charOffset)
open Recordsmith.Tree (Node Dialect SourceTree Placed)

namespace Span

/-- The span of a declaration whose body opens with the brace at `brace` and closes with the last character of the span.
    A marker, with the gap after it, stands before the body. -/
structure IsAround (source : List Char) (brace : Nat) (s : Span) : Prop where
  start_nonneg : 0 ≤ s.start
  start_lt : s.start < s.bodyClose
  stop_eq : s.stop = s.bodyClose + 1
  stop_le : s.stop ≤ source.length
  closing : source[s.bodyClose.toNat]? = some '\x7d'
  opening : source[brace]? = some '\x7b'
  opening_lt : brace < s.bodyClose
  marker : ∀ start ∈ s.markerStart, ∃ stop ∈ s.markerEnd, s.start ≤ start ∧ start < stop ∧ stop ≤ brace

/-- The first of two spans does not start after the second, and ends before it or holds it inside. -/
def Precedes (s t : Span) : Prop := s.start ≤ t.start ∧ (s.stop ≤ t.start ∨ t.stop < s.stop)

end Span

/-! ### The spans of nodes -/

namespace Tree.Dialect.WellFormed
variable {d : Dialect} {source : List Char} {root n body n' body' : Node}

theorem isAround_spanOf (wf : d.WellFormed source root) (hn : n ∈ root.preorder) (hd : d.Declares n body)
    {mark : Option Node} (hmark : ∀ m ∈ mark, m ∈ d.attributes n) :
    (d.spanOf source n body mark).IsAround source (charOffset source body.start) := by
  have b := wf.bodyPlace hn hd
  have hlength := (wf.placed body (Node.mem_preorder_of_child hn hd.body_mem)).stop_boundary.charOffset_le_length
  have hstart := b.start_le
  have hopen := b.opening_lt
  have hclose : ((charOffset source body.stop : Int) - 1).toNat = charOffset source body.stop - 1 := by omega
  exact {
    start_nonneg := Int.natCast_nonneg _
    start_lt := by simp only [spanOf]; omega
    stop_eq := rfl
    stop_le := by simp only [spanOf]; omega
    closing := by simp only [spanOf, hclose]; exact b.closing
    opening := b.opening
    opening_lt := by simp only [spanOf]; omega
    marker := by
      intro start hstart
      obtain ⟨m, hm, rfl⟩ := Option.map_eq_some_iff.mp hstart
      have p := wf.markPlace hn hd (hmark m hm)
      -- The gap cannot pass over the brace that opens the body.
      have hgap : Text.gapEnd source (charOffset source m.stop) ≤ charOffset source body.start :=
        Text.gapEnd_le p.stop_le b.opening (by decide)
      have hlt : charOffset source m.start < Text.gapEnd source (charOffset source m.stop) :=
        Nat.lt_of_lt_of_le p.start_lt Text.le_gapEnd
      exact ⟨_, Option.map_eq_some_iff.mpr ⟨m, hm, rfl⟩, Int.ofNat_le.mpr p.start_le, Int.ofNat_lt.mpr hlt,
        Int.ofNat_le.mpr hgap⟩ }

/-- Of the types declared by two nodes, one after the other in the preorder, the first comes first. -/
theorem precedes_spanOf (wf : d.WellFormed source root) (hn : n ∈ root.preorder) (hd : d.Declares n body)
    (hn' : n' ∈ root.preorder) (hd' : d.Declares n' body') (h : n.Before n') (mark mark' : Option Node) :
    (d.spanOf source n body mark).Precedes (d.spanOf source n' body' mark') := by
  have b := wf.bodyPlace hn hd
  have b' := wf.bodyPlace hn' hd'
  have hbody := Node.mem_preorder_of_child hn hd.body_mem
  have hstart := b.start_le
  have hopen := b.opening_lt
  have hstop' := b'.stop_le
  simp only [Span.Precedes, spanOf, Int.sub_add_cancel, Int.ofNat_le, Int.ofNat_lt]
  rcases Placed.before_cases wf.placed hn hd h with hafter | hinside | ⟨c, hc, hfront, hcstop⟩
  · have hafter := Placed.offset_le wf.placed hbody hn' hafter
    exact ⟨by omega, Or.inl hafter⟩
  · have hinner := (Placed.offset_range wf.placed hbody hinside).1
    exact ⟨by omega, Or.inr (wf.stop_lt_of_mem_body hn hd hd' hinside)⟩
  · -- A type declared in front of the body, inside the marker say, ends before the body opens.
    have hcRoot := Node.mem_preorder_of_child hn hc
    have houter := (Placed.offset_range wf.placed hn (Node.mem_preorder_child hc hfront)).1
    have hinner := (Placed.offset_range wf.placed hcRoot hfront).2
    have hbefore := Placed.offset_le wf.placed hcRoot hbody hcstop
    exact ⟨houter, Or.inr (by omega)⟩

end Tree.Dialect.WellFormed

theorem Tree.Dialect.Declares.isMarked_iff {d : Dialect} {source : List Char} {bytes : List UInt8} {marker : String}
    {n body : Node} {mark : Option Node} {r : Declaration} (hd : d.Declares n body)
    (hmark : d.markerOf bytes marker n = .ok mark) (hspan : r.span = some (d.spanOf source n body mark)) :
    r.isMarked = true ↔ ∃ m, d.Marked bytes marker n body m := by
  rw [Declaration.isMarked, hspan, Option.bind_some, spanOf, Option.isSome_map, Option.isSome_iff_exists]
  constructor
  · rintro ⟨m, rfl⟩
    exact ⟨m, hd, hmark⟩
  · rintro ⟨m, hm⟩
    exact ⟨m, Except.ok.inj (hmark.symm.trans hm.marks)⟩

/-! ### The spans of all declarations -/

theorem pairwise_of_forall₂ {α β : Type} {R : α → β → Prop} {S : α → α → Prop} {T : β → β → Prop} {xs : List α}
    {ys : List β} (h : List.Forall₂ R xs ys) (hxs : xs.Pairwise S)
    (hT : ∀ x x' y y', R x y → R x' y' → S x x' → T y y') : ys.Pairwise T := by
  obtain ⟨hlength, hget⟩ := List.forall₂_iff_get.mp h
  rw [List.pairwise_iff_getElem] at hxs ⊢
  intro i j hi hj hij
  rw [← hlength] at hi hj
  exact hT _ _ _ _ (hget i hi _) (hget j hj _) (hxs i j hi hj hij)

/-- The declarations of a well-formed tree can be read, one for each node that declares a type, in the order of the
    preorder. Each has a span around its body, from the start of its node to the end of the body, and shows a marker if
    its node carries one. The starts of the spans do not decrease, and any two spans are apart, or the one that comes
    first holds the other inside. -/
theorem extracted_spans_nest {k : LanguageKit} (hk : k = .swift ∨ k = .java) {source : List Char} {tree : SourceTree}
    (wf : k.dialect.WellFormed source tree.root) (marker : String) :
    ∃ declarations, k.dialect.extract source tree marker = .ok declarations ∧
      List.Forall₂ (fun n r => ∃ (body : Node) (span : Span), k.dialect.Declares n body ∧ r.span = some span ∧
          span.start = charOffset source n.start ∧ span.stop = charOffset source body.stop ∧
          span.IsAround source (charOffset source body.start) ∧
          (r.isMarked = true ↔ ∃ mark, k.dialect.Marked (encode source) marker n body mark))
        (tree.root.preorder.filter k.dialect.declares) declarations ∧
      declarations.Pairwise fun a b => ∀ s ∈ a.span, ∀ t ∈ b.span, s.Precedes t := by
  have hd : k.dialect.ReadsTexts := by
    rcases hk with rfl | rfl
    · exact Tree.SwiftTree.readsTexts
    · exact Tree.JavaTree.readsTexts
  obtain ⟨declarations, hextract⟩ := hd.exists_extract_eq_ok wf.placed marker
  have hread := (List.forall₂_and_left _ _).mpr
    ⟨fun n hn => (List.mem_filter.mp hn).1, Dialect.forall₂_of_extract hextract⟩
  refine ⟨declarations, hextract, hread.imp ?_, ?_⟩
  · rintro n r ⟨hn, hr⟩
    obtain ⟨body, mark, -, hdeclares, hmark, -, -, -, hspan⟩ := Dialect.declaration?_eq_some hr
    refine ⟨body, _, hdeclares, hspan, rfl, Int.sub_add_cancel .., wf.isAround_spanOf hn hdeclares ?_,
      hdeclares.isMarked_iff hmark hspan⟩
    rintro m rfl
    exact Dialect.mem_attributes_of_markerOf hmark
  · have hbefore : (tree.root.preorder.filter k.dialect.declares).Pairwise Node.Before :=
      (Node.preorder_pairwise_before (Placed.ordered wf.placed)).filter _
    refine pairwise_of_forall₂ hread hbefore ?_
    rintro n n' r r' ⟨hn, hr⟩ ⟨hn', hr'⟩ h s hs t ht
    obtain ⟨body, mark, -, hdeclares, -, -, -, -, hspan⟩ := Dialect.declaration?_eq_some hr
    obtain ⟨body', mark', -, hdeclares', -, -, -, -, hspan'⟩ := Dialect.declaration?_eq_some hr'
    obtain rfl := Option.some.inj (hspan.symm.trans hs)
    obtain rfl := Option.some.inj (hspan'.symm.trans ht)
    exact wf.precedes_spanOf hn hdeclares hn' hdeclares' h mark mark'

namespace Sample

/-- A comment with a character of two bytes, a type with another one inside it, and a third type after it. -/
def familySource : List Char := "/* ä */ @Buildable struct A \x7b struct B \x7b\x7d \x7d enum C \x7b\x7d".toList

def familyTree : SourceTree where
  root := ⟨"source_file", 0, 54, true, none, [
    ⟨"multiline_comment", 0, 8, true, none, []⟩,
    ⟨"class_declaration", 9, 44, true, none, [
      ⟨"modifiers", 9, 19, true, none, [⟨"attribute", 9, 19, true, none, [
        ⟨"@", 9, 10, false, none, []⟩, ⟨"user_type", 10, 19, true, none, []⟩]⟩]⟩,
      ⟨"struct", 20, 26, false, some "declaration_kind", []⟩, ⟨"type_identifier", 27, 28, true, some "name", []⟩,
      ⟨"class_body", 29, 44, true, some "body", [⟨"\x7b", 29, 30, false, none, []⟩,
        ⟨"class_declaration", 31, 42, true, none, [
          ⟨"struct", 31, 37, false, some "declaration_kind", []⟩, ⟨"type_identifier", 38, 39, true, some "name", []⟩,
          ⟨"class_body", 40, 42, true, some "body", [
            ⟨"\x7b", 40, 41, false, none, []⟩, ⟨"\x7d", 41, 42, false, none, []⟩]⟩]⟩,
        ⟨"\x7d", 43, 44, false, none, []⟩]⟩]⟩,
    ⟨"class_declaration", 45, 54, true, none, [
      ⟨"enum", 45, 49, false, some "declaration_kind", []⟩, ⟨"type_identifier", 50, 51, true, some "name", []⟩,
      ⟨"enum_class_body", 52, 54, true, some "body", [
        ⟨"\x7b", 52, 53, false, none, []⟩, ⟨"\x7d", 53, 54, false, none, []⟩]⟩]⟩]⟩
  faulty := false

end Sample

open Sample in
theorem extracted_spans_nest_family :
    LanguageKit.swift.dialect.WellFormed familySource familyTree.root ∧
      ∃ declarations, LanguageKit.swift.dialect.extract familySource familyTree "Buildable" = .ok declarations ∧
        declarations.map (fun r => (r.name, r.span.map fun s => (s.start, s.stop))) =
          [("A", some (8, 43)), ("B", some (30, 41)), ("C", some (44, 53))] ∧
        declarations.Pairwise fun a b => ∀ s ∈ a.span, ∀ t ∈ b.span, s.Precedes t := by
  have wf : LanguageKit.swift.dialect.WellFormed familySource familyTree.root := by decide +kernel
  have hplaces : (LanguageKit.swift.dialect.extract familySource familyTree "Buildable").toOption.map
      (·.map fun r => (r.name, r.span.map fun s => (s.start, s.stop))) =
        some [("A", some (8, 43)), ("B", some (30, 41)), ("C", some (44, 53))] := by
    decide +kernel
  obtain ⟨declarations, hextract, -, hpairwise⟩ := extracted_spans_nest (Or.inl rfl) wf "Buildable"
  rw [hextract] at hplaces
  exact ⟨wf, declarations, hextract, Option.some.inj hplaces, hpairwise⟩

end Recordsmith
