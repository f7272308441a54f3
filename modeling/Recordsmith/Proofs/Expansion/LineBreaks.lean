import Recordsmith.Proofs.Code.LineBreaks
import Recordsmith.Proofs.Expansion.Insertion
import Recordsmith.Proofs.Expansion.Reading
import Recordsmith.Proofs.Expansion.Splicing
import Recordsmith.Proofs.Text.LineBreaks
import Recordsmith.Proofs.Tree.Texts

/-!
Line breaks of an expanded source. A source without `\r` stays without. A source whose line breaks are all `\r\n` stays
so exactly when no text that is repeated in generated members holds an `\r`: the line breaks of such a text are written as
`\r\n` once more. Swift types are put on one line, so it never happens to them; Java types are repeated as they are.
-/

namespace Recordsmith

open Text.Utf8 (encode charOffset)
open Text (OnlyCrlf readBreak)
open Code (HasReturn)
open Recordsmith.Tree (Node Dialect SourceTree)

/-! ### Edits that keep line breaks -/

namespace Edit

/-- An edit that starts and stops where no line break is cut in two, and puts in whole line breaks. -/
structure KeepsBreaks (text : List Char) (e : Edit) : Prop where
  start : ∀ j, j + 1 = e.start.toNat → text[j]? ≠ some '\r'
  stop : ∀ j, j + 1 = e.stop.toNat → text[j]? ≠ some '\r'
  replacement : OnlyCrlf e.replacement

/-- Where an `\n` has to come next, an `\r` stands before. -/
def AfterReturn (text : List Char) (i : Nat) (due : Bool) : Prop := due = true → ∃ j, j + 1 = i ∧ text[j]? = some '\r'

variable {text : List Char} {edits : List Edit} {e : Edit}

theorem afterReturn_step (i : Nat) (due : Bool) (c : Char) (due' : Bool) (_ : AfterReturn text i due)
    (hc : text[i]? = some c) (h : readBreak due c = some due') : AfterReturn text (i + 1) due' := by
  rintro rfl
  exact ⟨i, rfl, Text.readBreak_eq_true h ▸ hc⟩

theorem AfterReturn.eq_false {i : Nat} {due : Bool} (h : AfterReturn text i due)
    (hnot : ∀ j, j + 1 = i → text[j]? ≠ some '\r') : due = false := by
  cases due with
  | false => rfl
  | true =>
    obtain ⟨j, hj, hreturn⟩ := h rfl
    exact absurd hreturn (hnot j hj)

theorem KeepsBreaks.foldlM (h : e.KeepsBreaks text) (hw : e.IsWithin text) {due due' : Bool}
    (hdue : AfterReturn text e.start.toNat due) (hread : (e.replaced text).foldlM readBreak due = some due') :
    e.replacement.foldlM readBreak due = some due' := by
  have hle : e.start.toNat ≤ e.stop.toNat := Int.toNat_le_toNat (Int.le_of_lt hw.start_lt_stop)
  have hdue' : AfterReturn text e.stop.toNat due' := by
    have hlen := hw.stop_le
    have := inv_foldlM afterReturn_step (by omega) hdue hread
    rwa [Nat.add_sub_cancel' hle] at this
  -- Neither where the edit starts nor where it stops, an `\n` has to come next.
  rw [hdue.eq_false h.start, hdue'.eq_false h.stop]
  exact Text.onlyCrlf_iff_foldlM.mp h.replacement

theorem onlyCrlf_atOnce (hw : ∀ e ∈ edits, e.IsWithin text) (hapart : edits.Pairwise Apart)
    (hkeeps : ∀ e ∈ edits, e.KeepsBreaks text) (h : OnlyCrlf text) : OnlyCrlf (atOnce text edits) := by
  rw [Text.onlyCrlf_iff_foldlM] at h ⊢
  rw [← between_zero_length]
  refine foldlM_between hw hapart afterReturn_step (fun e he _ _ hdue hread => (hkeeps e he).foldlM (hw e he) hdue hread)
    (Nat.zero_le _) (Nat.le_refl _) (isClear_zero hw) (isClear_length hw) nofun ?_
  rwa [List.drop_zero, Nat.sub_zero, List.take_length]

/-- A reader that gets through the edited text gets through every replacement. -/
theorem exists_foldlM_replacement (hw : ∀ e ∈ edits, e.IsWithin text) (hapart : edits.Pairwise Apart) (he : e ∈ edits)
    (h : OnlyCrlf (atOnce text edits)) : ∃ due due', e.replacement.foldlM readBreak due = some due' := by
  obtain ⟨-, hlt, hstop⟩ := hw e he
  have hmiddle : e.start.toNat ≤ e.stop.toNat := Int.toNat_le_toNat (Int.le_of_lt hlt)
  have hend : e.stop.toNat ≤ text.length := by omega
  rw [Text.onlyCrlf_iff_foldlM, ← between_zero_length, ← between_append (Nat.zero_le e.stop.toNat) hend,
    ← between_append (Nat.zero_le e.start.toNat) hmiddle, between_of_mem hw hapart he, List.append_assoc,
    List.foldlM_append] at h
  obtain ⟨due, -, h⟩ := Option.bind_eq_some_iff.mp h
  rw [List.foldlM_append] at h
  obtain ⟨due', h, -⟩ := Option.bind_eq_some_iff.mp h
  exact ⟨due, due', h⟩

theorem mem_atOnce {c : Char} (h : c ∈ atOnce text edits) : c ∈ text ∨ ∃ e ∈ edits, c ∈ e.replacement := by
  obtain ⟨⟨first, i⟩, hentry, hc⟩ := List.mem_flatMap.mp h
  rcases List.mem_append.mp hc with hc | hc
  · obtain ⟨e, he, hc⟩ := List.mem_flatMap.mp hc
    exact Or.inr ⟨e, (List.mem_filter.mp he).1, hc⟩
  · split at hc
    · cases hc
    · rw [List.mem_singleton.mp hc]
      exact Or.inl (List.fst_mem_of_mem_zipIdx hentry)

end Edit

/-! ### The edits of a declaration -/

/-- An `\r` is inserted exactly when a member holds one. -/
theorem Span.mem_inserted_iff {span : Span} (source : List Char) (rendered : List String) (hspan : span.IsIndented) :
    '\r' ∈ span.inserted source rendered ↔ ∃ text ∈ rendered, HasReturn text := by
  have hindent : ∀ c, Text.isIndent c = true → (c == '\r') = false := by
    intro c hc
    rw [beq_eq_false_iff_ne]
    rintro rfl
    cases hc
  have hfilter : (span.inserted source rendered).filter (· == '\r') = _ := Span.filter_inserted hspan rfl hindent
  have hmem := congrArg ('\r' ∈ ·) hfilter
  simpa [HasReturn, List.mem_filter] using hmem

namespace Tree.Dialect
variable {d : Dialect} {source : List Char} {n body mark : Node} {rendered : List String}

theorem EditPlace.keepsBreaks_removal (p : EditPlace source n body mark) (h : OnlyCrlf source) :
    (removal source mark).KeepsBreaks source where
  start j hj := h.not_return_before_visible (by rw [hj]; exact p.first)
  stop j hj := h.not_return_before_gapEnd _ hj
  replacement := ⟨nofun, nofun⟩

theorem EditPlace.keepsBreaks_insertion (p : EditPlace source n body mark) (h : OnlyCrlf source) (hbreak : '\n' ∈ source)
    (hclosing : source[charOffset source body.stop - 1]? = some '\x7d') (hrendered : ∀ text ∈ rendered, ¬HasReturn text) :
    ((d.spanOf source n body (some mark)).insertion source rendered).KeepsBreaks source where
  start j hj := by
    rw [insertion_start p.stop_pos, Int.toNat_natCast] at hj
    have hlt := headLength_lt p.stop_pos
    obtain ⟨c, hc, hb⟩ := Text.isVisible_of_length_trimEnd hj
    rw [List.getElem?_take_of_lt (by omega)] at hc
    intro hreturn
    obtain rfl : c = '\r' := Option.some.inj (hc.symm.trans hreturn)
    cases hb
  stop j hj := by
    rw [insertion_stop, Int.toNat_natCast] at hj
    rw [← hj, Nat.add_sub_cancel] at hclosing
    simp [hclosing]
  replacement := by
    have hinserted : '\r' ∉ (d.spanOf source n body (some mark)).inserted source rendered := by
      rw [Span.mem_inserted_iff source rendered (d.isIndented_spanOf source n body (some mark))]
      rintro ⟨text, htext, hreturn⟩
      exact hrendered text htext hreturn
    rw [Text.onlyCrlf_iff_foldlM, Span.insertion_replacement, h.lineBreak_eq hbreak, List.foldlM_append,
      Text.foldlM_withBreaks_crlf hinserted]
    rfl

end Tree.Dialect

theorem Declaration.IsWrittenIn.copies_subset {source : List Char} {r : Declaration} (h : r.IsWrittenIn source)
    (language : Language) : ∀ s ∈ r.copies language, s.toList ⊆ ' ' :: source := by
  have hfields : ∀ p ∈ Field.parameters r.fields, p.name.toList ⊆ ' ' :: source ∧ p.type.toList ⊆ ' ' :: source := by
    intro p hp
    obtain ⟨m, hm, hname, htype⟩ := exists_fieldMember hp
    have hmember := (List.mem_filter.mp hm).1
    exact ⟨List.subset_cons_of_subset _ (h.memberNames m hmember _ hname), h.memberTypes m hmember _ htype⟩
  intro s hs
  rcases List.mem_append.mp hs with hs | hs
  · rcases List.mem_append.mp hs with hs | hs
    · obtain ⟨p, hp, rfl⟩ := List.mem_map.mp hs
      exact (hfields p hp).1
    · obtain ⟨p, hp, rfl⟩ := List.mem_map.mp hs
      exact (hfields p hp).2
  · cases language with
    | swift => cases hs
    | java =>
      refine List.subset_cons_of_subset _ ?_
      rcases List.mem_cons.mp hs with rfl | hs
      · exact h.name
      · split at hs
        · exact h.typeParameters s hs
        · cases hs


namespace LanguageKit
variable {k : LanguageKit} {source : List Char} {config : Config} {n body mark : Node} {r : Declaration}
  {members : List GeneratedMember} {t : Treatment}

theorem Treats.hasReturn_members_iff (h : k.Treats source config n body mark r members t) (hk : k = .swift ∨ k = .java)
    (hparameter : '\r' ∉ config.synthesis.parameterName.toList)
    (hindent : ∀ indent ∈ config.output.indent, '\r' ∉ indent.toList) (hrecord : r.isRecord = true) :
    (∃ text ∈ k.renderer.members members r (Expansion.indentOf config.output r), HasReturn text) ↔
      ∃ s ∈ r.copies k.language, HasReturn s := by
  have hunit : ¬HasReturn (Expansion.indentOf config.output r) := by
    intro hreturn
    rcases Expansion.mem_indentOf h.span (k.dialect.isIndented_spanOf source n body (some mark)) hreturn with
      hc | ⟨indent, hmem, hc⟩
    · cases hc
    · exact hindent indent hmem hc
  exact hasReturn_members hk hrecord h.assembled hparameter hunit

/-- A record always gets a constructor. -/
theorem Treats.members_ne_nil (h : k.Treats source config n body mark r members t) (hrecord : r.isRecord = true) :
    members ≠ [] := by
  rw [(Declaration.assemble_eq_ok hrecord h.assembled).2]
  exact List.cons_ne_nil _ _

theorem Treats.not_mem_replacement (h : k.Treats source config n body mark r members t) (hk : k = .swift ∨ k = .java)
    (hparameter : '\r' ∉ config.synthesis.parameterName.toList)
    (hindent : ∀ indent ∈ config.output.indent, '\r' ∉ indent.toList) (hwritten : r.IsWrittenIn source)
    (hsource : '\r' ∉ source) : ∀ e ∈ t.edits, '\r' ∉ e.replacement := by
  intro e he hmem
  rcases h.edit_cases he with rfl | ⟨hrecord, rfl⟩
  · cases hmem
  · rw [Span.insertion_replacement, Text.lineBreak_of_no_return hsource, Text.withBreaks_lf] at hmem
    rcases List.mem_append.mp hmem with hmem | hmem
    · rw [Span.mem_inserted_iff _ _ (k.dialect.isIndented_spanOf source n body (some mark)),
        h.hasReturn_members_iff hk hparameter hindent hrecord] at hmem
      obtain ⟨s, hs, hreturn⟩ := hmem
      rcases List.mem_cons.mp (hwritten.copies_subset k.language s hs hreturn) with hblank | hmem
      · cases hblank
      · exact hsource hmem
    · cases List.mem_singleton.mp hmem

theorem Treats.keepsBreaks (h : k.Treats source config n body mark r members t) (hk : k = .swift ∨ k = .java)
    (hparameter : '\r' ∉ config.synthesis.parameterName.toList)
    (hindent : ∀ indent ∈ config.output.indent, '\r' ∉ indent.toList) (p : Dialect.EditPlace source n body mark)
    (hclosing : source[charOffset source body.stop - 1]? = some '\x7d') (hsource : OnlyCrlf source)
    (hbreak : '\n' ∈ source) (hcopies : r.isRecord = true → ∀ s ∈ r.copies k.language, ¬HasReturn s) :
    ∀ e ∈ t.edits, e.KeepsBreaks source := by
  intro e he
  rcases h.edit_cases he with rfl | ⟨hrecord, rfl⟩
  · exact p.keepsBreaks_removal hsource
  · refine p.keepsBreaks_insertion hsource hbreak hclosing fun text htext hreturn => ?_
    obtain ⟨s, hs, hs'⟩ := (h.hasReturn_members_iff hk hparameter hindent hrecord).mp ⟨text, htext, hreturn⟩
    exact hcopies hrecord s hs hs'

/-- If a text that is repeated holds an `\r`, one of the edits breaks a line break. -/
theorem Treats.exists_not_readable (h : k.Treats source config n body mark r members t) (hk : k = .swift ∨ k = .java)
    (hparameter : '\r' ∉ config.synthesis.parameterName.toList)
    (hindent : ∀ indent ∈ config.output.indent, '\r' ∉ indent.toList) (hbreak : Text.lineBreak source = .crlf)
    (hrecord : r.isRecord = true) (hcopies : ∃ s ∈ r.copies k.language, HasReturn s) :
    ∃ e ∈ t.edits, ∀ due, e.replacement.foldlM readBreak due = none := by
  rcases h.edits with ⟨hnone, -⟩ | ⟨-, hedits⟩
  · exact absurd hnone (h.members_ne_nil hrecord)
  · refine ⟨_, by rw [hedits]; exact List.mem_cons_of_mem _ (List.mem_singleton_self _), fun due => ?_⟩
    have hinserted := (Span.mem_inserted_iff source _ (k.dialect.isIndented_spanOf source n body (some mark))).mpr
      ((h.hasReturn_members_iff hk hparameter hindent hrecord).mpr hcopies)
    rw [Span.insertion_replacement, hbreak]
    exact Text.foldlM_withBreaks_crlf_of_mem (by decide) hinserted

end LanguageKit

/-- Expansion keeps line breaks. A source without `\r` stays without; and a source with line breaks, all of which are
    `\r\n`, stays so exactly when no text that the members of a marked record repeat holds an `\r`. Types read from Swift
    hold none. -/
theorem expansion_keeps_line_breaks {k : LanguageKit} (hk : k = .swift ∨ k = .java) {source : List Char}
    {tree : SourceTree} {config : Config} {declarations : List Declaration} {e : Expansion}
    (wf : k.dialect.WellFormed source tree.root)
    (hmarkers : k.dialect.MarkersApart source tree.root config.synthesis.marker)
    (hextract : k.dialect.extract source tree config.synthesis.marker = .ok declarations)
    (hparameter : '\r' ∉ config.synthesis.parameterName.toList)
    (hindent : ∀ indent ∈ config.output.indent, '\r' ∉ indent.toList) (h : k.expandTree source tree config = .ok e) :
    ('\r' ∉ source → '\r' ∉ e.source) ∧
    (Text.OnlyCrlf source → '\n' ∈ source → (Text.OnlyCrlf e.source ↔
      ∀ r ∈ declarations, r.isMarked = true → r.isRecord = true → ∀ s ∈ r.copies k.language, '\r' ∉ s.toList)) ∧
    (k = .swift → ∀ r ∈ declarations, ∀ m ∈ r.members, ∀ type ∈ m.type, '\r' ∉ type.toList) := by
  have hr := wf.recovered config.synthesis.marker
  obtain ⟨pairs, -, hs⟩ := LanguageKit.exists_splices hk hr hmarkers h
  rw [hs.result_eq_atOnce]
  have htreats : ∀ p ∈ pairs, ∃ body mark r members, k.Treats source config p.1 body mark r members p.2 ∧
      p.1 ∈ tree.root.preorder := by
    intro p hp
    obtain ⟨body, mark, r, members, ht⟩ := hs.treats p hp
    exact ⟨body, mark, r, members, ht, hs.sublist.subset (List.mem_map_of_mem hp)⟩
  refine ⟨fun hsource hmem => ?_, fun hsource hbreak => ⟨fun hnew r hread hmarked hrecord s hmem hreturn => ?_,
    fun hcopies => Edit.onlyCrlf_atOnce hs.within hs.apart (fun x hx => ?_) hsource⟩, ?_⟩
  · rcases Edit.mem_atOnce hmem with hmem | ⟨x, hx, hmem⟩
    · exact hsource hmem
    · obtain ⟨p, hp, hx⟩ := List.mem_flatMap.mp hx
      obtain ⟨body, mark, r, members, ht, hn⟩ := htreats p hp
      have hwritten := LanguageKit.isWrittenIn hk wf.placed hn ht.read
      exact ht.not_mem_replacement hk hparameter hindent hwritten hsource x hx hmem
  · -- The inserted text is a part of the new source, and no reader gets through it.
    obtain ⟨p, hp, body, mark, members, ht⟩ := hs.exists_treats hextract hread hmarked
    obtain ⟨x, hx, hnone⟩ := ht.exists_not_readable hk hparameter hindent (hsource.lineBreak_eq hbreak) hrecord
      ⟨s, hmem, hreturn⟩
    obtain ⟨due, due', hread⟩ := Edit.exists_foldlM_replacement hs.within hs.apart
      (List.mem_flatMap.mpr ⟨p, hp, hx⟩) hnew
    rw [hnone due] at hread
    cases hread
  · obtain ⟨p, hp, hx⟩ := List.mem_flatMap.mp hx
    obtain ⟨body, mark, r, members, ht, hn⟩ := htreats p hp
    exact ht.keepsBreaks hk hparameter hindent (hr.editPlace hn ht.marked) (wf.bodyPlace hn ht.marked.toDeclares).closing
      hsource hbreak (hcopies r (ht.mem_declarations hextract hn) ht.isMarked) x hx
  · rintro rfl r hread m hm type htype hreturn
    obtain ⟨n, -, hread⟩ := (Dialect.mem_extract hextract).mp hread
    rcases LanguageKit.swift_type_blank hread hm htype _ hreturn with hc | hc <;> cases hc

/-! ### A type on two lines -/

namespace Sample

def wrappedSource : List Char := "@Buildable struct P \x7b\r\n  let m: [Int:\r\n  Int]\r\n\x7d".toList

def wrappedTree : SourceTree where
  root := ⟨"source_file", 0, 48, true, none, [⟨"class_declaration", 0, 48, true, none, [
    ⟨"modifiers", 0, 10, true, none, [⟨"attribute", 0, 10, true, none, [
      ⟨"@", 0, 1, false, none, []⟩, ⟨"user_type", 1, 10, true, none, []⟩]⟩]⟩,
    ⟨"struct", 11, 17, false, some "declaration_kind", []⟩, ⟨"type_identifier", 18, 19, true, some "name", []⟩,
    ⟨"class_body", 20, 48, true, some "body", [⟨"\x7b", 20, 21, false, none, []⟩,
      ⟨"property_declaration", 25, 45, true, none, [
        ⟨"value_binding_pattern", 25, 28, true, none, [⟨"let", 25, 28, false, some "mutability", []⟩]⟩,
        ⟨"pattern", 29, 30, true, some "name", [⟨"simple_identifier", 29, 30, true, some "bound_identifier", []⟩]⟩,
        ⟨"type_annotation", 30, 45, true, none, []⟩]⟩,
      ⟨"\x7d", 47, 48, false, none, []⟩]⟩]⟩]⟩
  faulty := false

end Sample

open Sample in
theorem expansion_keeps_line_breaks_wrapped :
    LanguageKit.swift.dialect.WellFormed wrappedSource wrappedTree.root ∧ Text.OnlyCrlf wrappedSource ∧
      ∃ e, LanguageKit.swift.expandTree wrappedSource wrappedTree {} = .ok e ∧ Text.OnlyCrlf e.source := by
  have wf : LanguageKit.swift.dialect.WellFormed wrappedSource wrappedTree.root := by decide +kernel
  have hmarkers : LanguageKit.swift.dialect.MarkersApart wrappedSource wrappedTree.root ({} : Config).synthesis.marker :=
    Dialect.markersApart_of_plain (by decide +kernel)
  have hsource : Text.OnlyCrlf wrappedSource := by decide +kernel
  obtain ⟨e, he⟩ : ∃ e, LanguageKit.swift.expandTree wrappedSource wrappedTree {} = .ok e :=
    exists_eq_ok (by decide +kernel)
  obtain ⟨declarations, hextract⟩ : ∃ declarations,
      LanguageKit.swift.dialect.extract wrappedSource wrappedTree ({} : Config).synthesis.marker = .ok declarations :=
    exists_eq_ok (by decide +kernel)
  have hcopies : ((LanguageKit.swift.dialect.extract wrappedSource wrappedTree
      ({} : Config).synthesis.marker).toOption.all fun found =>
        ∀ r ∈ found, r.isMarked = true → r.isRecord = true → ∀ s ∈ r.copies .swift, '\r' ∉ s.toList) = true := by
    decide +kernel
  rw [hextract] at hcopies
  obtain ⟨-, hcrlf, -⟩ := expansion_keeps_line_breaks (Or.inl rfl) wf hmarkers hextract (by decide) (by decide) he
  exact ⟨wf, hsource, e, he, (hcrlf hsource (by decide +kernel)).mpr (of_decide_eq_true hcopies)⟩

namespace Sample

def wrappedClassSource : List Char := "@Buildable class P \x7b\r\n  Map<A,\r\n  B> m;\r\n\x7d".toList

def wrappedClassTree : SourceTree where
  root := ⟨"program", 0, 42, true, none, [⟨"class_declaration", 0, 42, true, none, [
    ⟨"modifiers", 0, 10, true, none, [⟨"marker_annotation", 0, 10, true, none, [
      ⟨"@", 0, 1, false, none, []⟩, ⟨"identifier", 1, 10, true, some "name", []⟩]⟩]⟩,
    ⟨"class", 11, 16, false, none, []⟩, ⟨"identifier", 17, 18, true, some "name", []⟩,
    ⟨"class_body", 19, 42, true, some "body", [⟨"\x7b", 19, 20, false, none, []⟩,
      ⟨"field_declaration", 24, 39, true, none, [⟨"generic_type", 24, 36, true, some "type", []⟩,
        ⟨"variable_declarator", 37, 38, true, some "declarator", [⟨"identifier", 37, 38, true, some "name", []⟩]⟩,
        ⟨";", 38, 39, false, none, []⟩]⟩,
      ⟨"\x7d", 41, 42, false, none, []⟩]⟩]⟩]⟩
  faulty := false

end Sample

open Sample in
/-- The line break in the Java type becomes `\r\r\n` in the constructor and in the wither. -/
theorem expansion_doubles_return_of_type :
    LanguageKit.java.dialect.WellFormed wrappedClassSource wrappedClassTree.root ∧
      LanguageKit.java.dialect.MarkersApart wrappedClassSource wrappedClassTree.root "Buildable" ∧
      Text.OnlyCrlf wrappedClassSource ∧ '\n' ∈ wrappedClassSource ∧
      ∃ e, LanguageKit.java.expandTree wrappedClassSource wrappedClassTree {} = .ok e ∧ ¬Text.OnlyCrlf e.source := by
  have wf : LanguageKit.java.dialect.WellFormed wrappedClassSource wrappedClassTree.root := by decide +kernel
  have hmarkers : LanguageKit.java.dialect.MarkersApart wrappedClassSource wrappedClassTree.root "Buildable" :=
    Dialect.markersApart_of_plain (by decide +kernel)
  refine ⟨wf, hmarkers, by decide +kernel, by decide +kernel, ?_⟩
  obtain ⟨e, he⟩ : ∃ e, LanguageKit.java.expandTree wrappedClassSource wrappedClassTree {} = .ok e :=
    exists_eq_ok (by decide +kernel)
  obtain ⟨pairs, hedits, hs⟩ := LanguageKit.exists_splices (Or.inr rfl) (wf.recovered "Buildable") hmarkers he
  have hrun : (LanguageKit.java.edits? wrappedClassSource wrappedClassTree {}).all (fun edits =>
      ¬Text.OnlyCrlf (Edit.atOnce wrappedClassSource edits)) = true := by
    decide +kernel
  rw [hedits, Option.all_some, decide_eq_true_eq, ← hs.result_eq_atOnce] at hrun
  exact ⟨e, he, hrun⟩

end Recordsmith
