import Recordsmith.Proofs.Code.Brackets
import Recordsmith.Proofs.Expansion.Insertion
import Recordsmith.Proofs.Expansion.Reading
import Recordsmith.Proofs.Expansion.Splicing

/-!
Expansion keeps the structure of brackets. An edit takes out a balanced text, or it puts a balanced text in front of a
closing brace; so a reader of brackets does not notice it, and every bracket still closes the one that it closed before.
-/

namespace Recordsmith

open Text.Utf8 (encode charOffset)
open Text (IsPlain Balanced Closes)
open Recordsmith.Tree (Node Dialect SourceTree)

/-! ### Edits that keep brackets -/

namespace Edit

/-- An edit that takes out a balanced text, or puts one in front of a closing brace in place of a text without
    brackets. -/
def KeepsBrackets (text : List Char) (e : Edit) : Prop :=
  e.replacement = [] ∧ Balanced (e.replaced text) ∨
    ∃ blanks inserted, e.replaced text = blanks ++ ['\x7d'] ∧ IsPlain blanks ∧
      e.replacement = inserted ++ ['\x7d'] ∧ Balanced inserted

/-- Where a position of the text comes to stand. -/
def moved (text : List Char) (edits : List Edit) (i : Nat) : Nat := (between text edits 0 i).length

variable {text : List Char} {edits : List Edit} {e : Edit} {i : Nat}

/-- A reader is owed the same brackets after the replacement as after the text that it replaces. -/
theorem KeepsBrackets.foldlM (h : e.KeepsBrackets text) {owed owed' : List Char}
    (hread : (e.replaced text).foldlM Text.readBracket owed = some owed') :
    e.replacement.foldlM Text.readBracket owed = some owed' := by
  rcases h with ⟨hnone, hbalanced⟩ | ⟨blanks, inserted, hreplaced, hplain, hreplacement, hinserted⟩
  · rw [hbalanced.foldlM_readBracket] at hread
    rw [hnone]
    exact hread
  · rw [hreplaced, List.foldlM_append, hplain.balanced.foldlM_readBracket] at hread
    rw [hreplacement, List.foldlM_append, hinserted.foldlM_readBracket]
    exact hread

theorem getElem?_replaced (hw : e.IsWithin text) (hlow : e.start ≤ i) (hhigh : (i : Int) < e.stop) :
    (e.replaced text)[i - e.start.toNat]? = text[i]? := by
  have := hw.start_nonneg
  rw [replaced, List.getElem?_take_of_lt (by omega), List.getElem?_drop, Nat.add_sub_cancel' (by omega)]

/-- Of the brackets that an edit reaches over without taking them out, there is only the closing brace at its end. -/
theorem KeepsBrackets.cases (h : e.KeepsBrackets text) (hw : e.IsWithin text) (hlow : e.start ≤ i)
    (hhigh : (i : Int) < e.stop) {c : Char} (hc : text[i]? = some c) (hbracket : Text.isBracket c = true) :
    e.replacement = [] ∧ Balanced (e.replaced text) ∨
      c = '\x7d' ∧ ∃ blanks inserted, e.replaced text = blanks ++ ['\x7d'] ∧ IsPlain blanks ∧
        e.start.toNat + blanks.length = i ∧ e.stop.toNat = i + 1 ∧
        e.replacement = inserted ++ ['\x7d'] ∧ Balanced inserted := by
  rcases h with hnone | ⟨blanks, inserted, hreplaced, hplain, hreplacement, hinserted⟩
  · exact Or.inl hnone
  · have hlength := hw.length_replaced
    have hstart := hw.start_nonneg
    have hget := getElem?_replaced hw hlow hhigh
    rw [hreplaced, List.length_append, List.length_singleton] at hlength
    rw [hreplaced, hc] at hget
    by_cases hin : i - e.start.toNat < blanks.length
    · rw [List.getElem?_append_left hin] at hget
      rw [hplain c (List.mem_of_getElem? hget)] at hbracket
      cases hbracket
    · rw [List.getElem?_append_right (by omega), List.getElem?_singleton] at hget
      split at hget
      · exact Or.inr ⟨(Option.some.inj hget).symm, blanks, inserted, hreplaced, hplain, by omega, by omega, hreplacement,
          hinserted⟩
      · cases hget

section Pairs
variable {first last : Nat}

theorem balanced_between (hw : ∀ e ∈ edits, e.IsWithin text) (hapart : edits.Pairwise Apart)
    (hkeeps : ∀ e ∈ edits, e.KeepsBrackets text) {j : Nat} (hij : i ≤ j) (hj : j ≤ text.length)
    (hi : IsClear edits i) (hclear : IsClear edits j) (h : Balanced ((text.drop i).take (j - i))) :
    Balanced (between text edits i j) :=
  foldlM_between (I := fun _ _ => True) hw hapart (fun _ _ _ _ _ _ _ => trivial)
    (fun e he _ _ _ hread => (hkeeps e he).foldlM hread) hij hj hi hclear trivial h

/-- An opening bracket that goes takes the one that closes it along. -/
theorem opening_outside (hw : ∀ e ∈ edits, e.IsWithin text) (hkeeps : ∀ e ∈ edits, e.KeepsBrackets text)
    (h : Closes text first last)
    (hlast : ∀ e ∈ edits, e.replacement = [] → e.stop ≤ last ∨ (last : Int) < e.start) :
    ∀ e ∈ edits, e.stop ≤ first ∨ (first : Int) < e.start := by
  intro e he
  by_contra hcover
  obtain ⟨before, opening, inner, closing, after, rfl, rfl, rfl, hcloser, hinner⟩ := h
  have hwe := hw e he
  have hstart := hwe.start_nonneg
  have hopening : (before ++ opening :: (inner ++ closing :: after))[before.length]? = some opening := by simp
  rcases (hkeeps e he).cases hwe (by omega) (by omega) hopening (Text.isBracket_of_closer? hcloser).1 with
    ⟨hnone, hbalanced⟩ | ⟨rfl, -⟩
  · have hout := hlast e he hnone
    have hle : before.length ≤ e.stop.toNat := by omega
    rw [replaced, List.drop_append_of_le_length (by omega), List.take_append, List.length_drop,
      List.take_of_length_le (by rw [List.length_drop]; omega),
      show e.stop.toNat - e.start.toNat - (before.length - e.start.toNat) =
        e.stop.toNat - before.length - 1 + 1 by omega, List.take_succ_cons,
      List.take_append_of_le_length (by omega)] at hbalanced
    exact hbalanced.not_prefix_of_opening hcloser hinner (List.take_prefix ..)
  · cases hcloser

theorem closes_of_between (hw : ∀ e ∈ edits, e.IsWithin text) {opening closing : Char} {inner : List Char}
    (hopening : text[first]? = some opening) (hout : ∀ e ∈ edits, e.stop ≤ first ∨ (first : Int) < e.start)
    (hlt : first < last) (hlast : last < text.length)
    (hinner : between text edits (first + 1) (last + 1) = inner ++ [closing])
    (hcloser : Text.closer? opening = some closing) (hbalanced : Balanced inner) :
    Closes (atOnce text edits) (moved text edits first) (moved text edits (last + 1) - 1) := by
  have hsplit : between text edits 0 (last + 1) = between text edits 0 first ++ opening :: (inner ++ [closing]) := by
    have hrest : between text edits first (last + 1) = opening :: (inner ++ [closing]) := by
      rw [← between_append (Nat.le_succ first) (by omega), between_succ_of_outside hw hopening hout, hinner]
      rfl
    rw [← between_append (Nat.zero_le first) (by omega), hrest]
  refine ⟨between text edits 0 first, opening, inner, closing, between text edits (last + 1) text.length, ?_, rfl, ?_,
    hcloser, hbalanced⟩
  · rw [← between_zero_length, ← between_append (Nat.zero_le (last + 1)) hlast, hsplit]
    simp
  · rw [moved, moved, hsplit]
    simp
    omega

/-- A bracket that stays still closes the one that it closed before. -/
theorem closes_atOnce (hw : ∀ e ∈ edits, e.IsWithin text) (hapart : edits.Pairwise Apart)
    (hkeeps : ∀ e ∈ edits, e.KeepsBrackets text) (h : Closes text first last)
    (hlast : ∀ e ∈ edits, e.replacement = [] → e.stop ≤ last ∨ (last : Int) < e.start) :
    Closes (atOnce text edits) (moved text edits first) (moved text edits (last + 1) - 1) := by
  have hout := opening_outside hw hkeeps h hlast
  obtain ⟨opening, closing, hopening, hclosing, hlt, hcloser, hinner⟩ := h.slice
  have hlen : last < text.length := (List.getElem?_eq_some_iff.mp hclosing).1
  by_cases hkept : ∀ e ∈ edits, e.stop ≤ last ∨ (last : Int) < e.start
  · -- The closing bracket stays where it is.
    have hclear : IsClear edits last := fun e he => by
      have := hkept e he
      omega
    have hbalanced := balanced_between hw hapart hkeeps hlt (by omega) (isClear_succ hout) hclear hinner
    refine closes_of_between hw hopening hout hlt hlen ?_ hcloser hbalanced
    rw [← between_append hlt (Nat.le_succ last), between_succ_of_outside hw hclosing hkept]
  · -- It is written again, after the inserted text.
    obtain ⟨e, he, hcover⟩ : ∃ e ∈ edits, ¬(e.stop ≤ last ∨ (last : Int) < e.start) := by simpa using hkept
    have hwe := hw e he
    have hstart := hwe.start_nonneg
    have hafter := hout e he
    rcases (hkeeps e he).cases hwe (by omega) (by omega) hclosing (Text.isBracket_of_closer? hcloser).2 with
      ⟨hnone, -⟩ | ⟨rfl, blanks, inserted, hreplaced, hplain, hblanks, hstop, hreplacement, hinserted⟩
    · exact absurd (hlast e he hnone) hcover
    · have hfront : Balanced ((text.drop (first + 1)).take (e.start.toNat - (first + 1))) := by
        have hblank : (text.drop e.start.toNat).take (last - e.start.toNat) = blanks := by
          have htake := congrArg (List.take (last - e.start.toNat)) hreplaced
          rwa [replaced, List.take_take, Nat.min_eq_left (by omega), List.take_left' (by omega)] at htake
        rw [show last - (first + 1) = (e.start.toNat - (first + 1)) + (last - e.start.toNat) by omega, List.take_add,
          List.drop_drop, Nat.add_sub_cancel' (by omega), hblank] at hinner
        exact hinner.of_append_plain hplain
      have hbalanced := balanced_between hw hapart hkeeps (by omega) (by omega) (isClear_succ hout)
        (isClear_ends hw hapart he).1 hfront
      refine closes_of_between hw hopening hout hlt hlen ?_ hcloser (hbalanced.append hinserted)
      have hfirst : first + 1 ≤ e.start.toNat := by omega
      rw [← hstop, ← between_append hfirst (by omega), between_of_mem hw hapart he, hreplacement, List.append_assoc]

end Pairs

end Edit

/-! ### The edits of an expansion -/

namespace LanguageKit
variable {k : LanguageKit} {source : List Char} {config : Config} {root n body mark : Node} {r : Declaration}
  {members : List GeneratedMember} {t : Treatment}

theorem keepsBrackets_removal (p : Dialect.EditPlace source n body mark) (hplaced : mark.IsPlaced source)
    (hmark : ∀ text ∈ (mark.text (encode source)).toOption, Balanced text.toList) :
    (Dialect.removal source mark).KeepsBrackets source := by
  refine Or.inl ⟨rfl, ?_⟩
  have hgap := (Text.isGap_gapEnd source (charOffset source mark.stop)).isBlank
  rw [Dialect.replaced_removal (Nat.le_of_lt p.start_lt)]
  refine Text.Balanced.append ?_ (Text.isPlain_of_blanks hgap).balanced
  rw [hplaced.text_eq] at hmark
  simpa using hmark _ rfl

theorem Treats.keepsBrackets (h : k.Treats source config n body mark r members t) (hk : k = .swift ∨ k = .java)
    (p : Dialect.EditPlace source n body mark) (hplaced : mark.IsPlaced source)
    (hmark : ∀ text ∈ (mark.text (encode source)).toOption, Balanced text.toList)
    (hclosing : source[charOffset source body.stop - 1]? = some '\x7d') (hfit : r.BracketsFit)
    (hparameter : IsPlain config.synthesis.parameterName.toList)
    (hindent : ∀ indent ∈ config.output.indent, IsPlain indent.toList) : ∀ e ∈ t.edits, e.KeepsBrackets source := by
  have hindented := k.dialect.isIndented_spanOf source n body (some mark)
  have hnoindent : ∀ c, Text.isIndent c = true → Text.isBracket c = false := fun c hc =>
    Text.isBracket_of_isBlank (Text.isBlank_of_isIndent hc)
  intro e he
  rcases h.edit_cases he with rfl | ⟨-, rfl⟩
  · exact keepsBrackets_removal p hplaced hmark
  · obtain ⟨blanks, c, hreplaced, hblanks, -, hc⟩ := p.replaced_ending (Dialect.insertion_start p.stop_pos (some mark) _)
      (Dialect.insertion_stop ..)
    obtain rfl : c = '\x7d' := Option.some.inj (hc.symm.trans hclosing)
    refine Or.inr ⟨blanks, _, hreplaced, Text.isPlain_of_blanks hblanks, Span.insertion_replacement .., ?_⟩
    have hunit : IsPlain (Expansion.indentOf config.output r).toList := fun c hc => by
      rcases Expansion.mem_indentOf h.span hindented hc with hc | ⟨indent, hmem, hc⟩
      · exact hnoindent c hc
      · exact hindent indent hmem c hc
    rw [← Text.balanced_filter_iff, Text.filter_withBreaks rfl rfl, Span.filter_inserted hindented rfl hnoindent]
    refine Text.balanced_flatMap fun text htext => Text.balanced_filter_iff.mpr ?_
    exact balanced_members hk hfit h.assembled hparameter hunit text htext

end LanguageKit

/-- Expansion of a source with balanced brackets, in whose markers and types they are balanced, too, and in whose names
    there are none: the new source is balanced, what is put in front of a closing brace is balanced, and every bracket
    outside the markers still closes the one that it closed before. -/
theorem expansion_keeps_brackets {k : LanguageKit} (hk : k = .swift ∨ k = .java) {source : List Char}
    {tree : SourceTree} {config : Config} {declarations : List Declaration} {e : Expansion}
    (wf : k.dialect.WellFormed source tree.root)
    (hmarkers : k.dialect.MarkersApart source tree.root config.synthesis.marker)
    (hsource : Text.Balanced source)
    (hmarks : ∀ n ∈ tree.root.preorder, ∀ body mark,
      k.dialect.Marked (encode source) config.synthesis.marker n body mark →
        ∀ text ∈ (mark.text (encode source)).toOption, Text.Balanced text.toList)
    (hextract : k.dialect.extract source tree config.synthesis.marker = .ok declarations)
    (hfit : ∀ r ∈ declarations, r.BracketsFit)
    (hparameter : Text.IsPlain config.synthesis.parameterName.toList)
    (hindent : ∀ indent ∈ config.output.indent, Text.IsPlain indent.toList)
    (h : k.expandTree source tree config = .ok e) :
    ∃ edits, k.edits? source tree config = some edits ∧ e.source = Edit.atOnce source edits ∧
      Text.Balanced e.source ∧ (∀ x ∈ edits, x.KeepsBrackets source) ∧
      ∀ first last, Text.Closes source first last →
        ¬k.dialect.InMarker source tree.root config.synthesis.marker last →
          Text.Closes e.source (Edit.moved source edits first) (Edit.moved source edits (last + 1) - 1) := by
  have hr := wf.recovered config.synthesis.marker
  obtain ⟨pairs, hedits, hs⟩ := LanguageKit.exists_splices hk hr hmarkers h
  have hkeeps : ∀ x ∈ pairs.flatMap (·.2.edits), x.KeepsBrackets source := by
    intro x hx
    obtain ⟨p, hp, hx⟩ := List.mem_flatMap.mp hx
    obtain ⟨body, mark, r, members, htreats⟩ := hs.treats p hp
    have hn : p.1 ∈ tree.root.preorder := hs.sublist.subset (List.mem_map_of_mem hp)
    have hm := htreats.marked
    have hmark := Dialect.mem_preorder_of_mem_attributes hn (Dialect.mem_attributes_of_markerOf hm.marks)
    exact htreats.keepsBrackets hk (hr.editPlace hn hm) (wf.placed mark hmark) (hmarks p.1 hn body mark hm)
      (wf.bodyPlace hn hm.toDeclares).closing (hfit r (htreats.mem_declarations hextract hn)) hparameter hindent x hx
  refine ⟨_, hedits, hs.result_eq_atOnce, ?_, hkeeps, fun first last hcloses hout => ?_⟩
  · rw [hs.result_eq_atOnce, ← Edit.between_zero_length]
    refine Edit.balanced_between hs.within hs.apart hkeeps (Nat.zero_le _) (Nat.le_refl _) (Edit.isClear_zero hs.within)
      (Edit.isClear_length hs.within) ?_
    rw [List.drop_zero, Nat.sub_zero, List.take_length]
    exact hsource
  · rw [hs.result_eq_atOnce]
    refine Edit.closes_atOnce hs.within hs.apart hkeeps hcloses fun x hx hempty => ?_
    -- An edit that replaces by nothing removes a marker and a gap, and in the gap there are no brackets.
    obtain ⟨n, hn, body, mark, hm, place, hedit⟩ := hs.exists_editPlace hr hx
    rcases hedit with rfl | ⟨-, -, -, hbrace⟩
    · by_contra hcover
      obtain ⟨opening, closing, -, hclosing, -, hcloser, -⟩ := hcloses.slice
      have hvisible := Text.isBlank_of_isBracket (Text.isBracket_of_closer? hcloser).2
      simp only [Dialect.removal] at hcover
      refine hout ⟨n, hn, body, mark, hm, by omega, ?_⟩
      by_contra hafter
      have := Text.gapEnd_le (Nat.le_of_not_lt hafter) hclosing hvisible
      omega
    · rw [hempty] at hbrace
      cases hbrace

/-! ### Brackets in a marker and in a type -/

namespace Sample

def closureTypeSource : List Char := "@Buildable(a[0]) struct P \x7b let f: (Int) -> [Int] \x7d".toList

def closureTypeTree : SourceTree where
  root := ⟨"source_file", 0, 51, true, none, [⟨"class_declaration", 0, 51, true, none, [
    ⟨"modifiers", 0, 16, true, none, [⟨"attribute", 0, 16, true, none, [
      ⟨"@", 0, 1, false, none, []⟩, ⟨"user_type", 1, 10, true, none, []⟩, ⟨"(", 10, 11, false, none, []⟩,
      ⟨"call_expression", 11, 15, true, none, []⟩, ⟨")", 15, 16, false, none, []⟩]⟩]⟩,
    ⟨"struct", 17, 23, false, some "declaration_kind", []⟩, ⟨"type_identifier", 24, 25, true, some "name", []⟩,
    ⟨"class_body", 26, 51, true, some "body", [⟨"\x7b", 26, 27, false, none, []⟩,
      ⟨"property_declaration", 28, 49, true, none, [
        ⟨"value_binding_pattern", 28, 31, true, none, [⟨"let", 28, 31, false, some "mutability", []⟩]⟩,
        ⟨"pattern", 32, 33, true, some "name", [⟨"simple_identifier", 32, 33, true, some "bound_identifier", []⟩]⟩,
        ⟨"type_annotation", 33, 49, true, none, []⟩]⟩,
      ⟨"\x7d", 50, 51, false, none, []⟩]⟩]⟩]⟩
  faulty := false

end Sample

open Sample in
/-- The braces of the body are the pair of the positions 26 and 50. -/
theorem expansion_keeps_brackets_closure :
    LanguageKit.swift.dialect.WellFormed closureTypeSource closureTypeTree.root ∧
      Text.Balanced closureTypeSource ∧ Text.Closes closureTypeSource 26 50 ∧
      ∃ e edits, LanguageKit.swift.expandTree closureTypeSource closureTypeTree {} = .ok e ∧
        LanguageKit.swift.edits? closureTypeSource closureTypeTree {} = some edits ∧ Text.Balanced e.source ∧
        Text.Closes e.source (Edit.moved closureTypeSource edits 26) (Edit.moved closureTypeSource edits 51 - 1) := by
  have wf : LanguageKit.swift.dialect.WellFormed closureTypeSource closureTypeTree.root := by decide +kernel
  have hmarkers : LanguageKit.swift.dialect.MarkersApart closureTypeSource closureTypeTree.root
      ({} : Config).synthesis.marker :=
    Dialect.markersApart_of_plain (by decide +kernel)
  have hbalanced : Text.Balanced closureTypeSource := by decide +kernel
  have hcloses : Text.Closes closureTypeSource 26 50 :=
    ⟨closureTypeSource.take 26, '\x7b', (closureTypeSource.drop 27).take 23, '\x7d', [], by decide +kernel,
      by decide +kernel, by decide +kernel, rfl, by decide +kernel⟩
  obtain ⟨e, he⟩ : ∃ e, LanguageKit.swift.expandTree closureTypeSource closureTypeTree {} = .ok e :=
    exists_eq_ok (by decide +kernel)
  obtain ⟨declarations, hextract⟩ : ∃ declarations,
      LanguageKit.swift.dialect.extract closureTypeSource closureTypeTree ({} : Config).synthesis.marker =
        .ok declarations :=
    exists_eq_ok (by decide +kernel)
  have hfit : ((LanguageKit.swift.dialect.extract closureTypeSource closureTypeTree
      ({} : Config).synthesis.marker).toOption.all fun found => ∀ r ∈ found, r.BracketsFit) = true := by
    decide +kernel
  rw [hextract] at hfit
  have hmarks : ∀ n ∈ closureTypeTree.root.preorder, ∀ body mark,
      LanguageKit.swift.dialect.Marked (encode closureTypeSource) ({} : Config).synthesis.marker n body mark →
        ∀ text ∈ (mark.text (encode closureTypeSource)).toOption, Text.Balanced text.toList := by
    decide +kernel
  obtain ⟨edits, hedits, -, hnew, -, hpairs⟩ := expansion_keeps_brackets (Or.inl rfl) wf hmarkers hbalanced hmarks
    hextract (of_decide_eq_true hfit) (by decide) (by decide) he
  exact ⟨wf, hbalanced, hcloses, e, edits, he, hedits, hnew, hpairs 26 50 hcloses (by decide +kernel)⟩

end Recordsmith
