import Mathlib.Data.List.SplitBy
import Recordsmith.Proofs.Expansion.Splicing
import Recordsmith.Proofs.Expansion.Unmarked
import Recordsmith.Proofs.Text.Blanks
import Recordsmith.Source.Token

/-!
Tokens on both sides of a marker. Its removal takes the gap after it and nothing before it. So the tokens it stood between
become one exactly if a word ends right before the marker and a gap at most separates the marker from the next word.
-/

namespace Recordsmith

open Text.Utf8 (encode charOffset)
open Recordsmith.Tree (Node Dialect SourceTree Placed)

/-! ### Tokens of a text -/

namespace Text

/-- Whether two characters in a row belong to one word. -/
def runsOn (a b : Char) : Bool := Source.extendsWord a && Source.extendsWord b

/-- The words of a text, with the characters between them one by one. -/
def tokens (text : List Char) : List (List Char) := text.splitBy runsOn

def EndsInWord (text : List Char) : Prop := ∃ c ∈ text.getLast?, Source.extendsWord c = true

def StartsWithWord (text : List Char) : Prop := ∃ c ∈ text.head?, Source.extendsWord c = true

/-- A text in which a gap at most comes before the first word. -/
def LeadsToWord (text : List Char) : Prop := ∃ gap rest, text = gap ++ rest ∧ IsGap gap ∧ StartsWithWord rest

/-- One after the other, the last token of a text and the first of another are a single one. -/
def Merge (front rest : List Char) : Prop :=
  ∃ before word next after, tokens front = before ++ [word] ∧ tokens rest = next :: after ∧
    tokens (front ++ rest) = before ++ (word ++ next) :: after

instance {text : List Char} : Decidable (EndsInWord text) := Option.decidableExistsMem _

section Tokens
variable {front rest : List Char}

theorem tokens_append (h : ¬(EndsInWord front ∧ StartsWithWord rest)) :
    tokens (front ++ rest) = tokens front ++ tokens rest := by
  refine List.splitBy_append fun c hc d hd => ?_
  refine Bool.eq_false_iff.mpr fun hrun => h ?_
  obtain ⟨hword, hnext⟩ := Bool.and_eq_true_iff.mp hrun
  exact ⟨⟨c, hc, hword⟩, d, hd, hnext⟩

theorem tokens_of_word {word : List Char} (hne : word ≠ []) (h : ∀ c ∈ word, Source.extendsWord c = true) :
    tokens word = [word] := by
  refine List.splitBy_of_isChain hne (List.Pairwise.isChain (List.pairwise_of_forall_mem_list fun c hc d hd => ?_))
  exact Bool.and_eq_true_iff.mpr ⟨h c hc, h d hd⟩

/-- The first word of a text that starts with one goes as far as it can. -/
theorem StartsWithWord.exists_word (h : StartsWithWord rest) :
    ∃ word after, rest = word ++ after ∧ word ≠ [] ∧ (∀ c ∈ word, Source.extendsWord c = true) ∧
      ¬StartsWithWord after := by
  obtain ⟨c, hc, hword⟩ := h
  refine ⟨rest.takeWhile Source.extendsWord, rest.dropWhile Source.extendsWord, List.takeWhile_append_dropWhile.symm,
    ?_, fun c hc => List.mem_takeWhile_imp hc, ?_⟩
  · obtain ⟨tail, rfl⟩ := List.head?_eq_some_iff.mp hc
    rw [List.takeWhile_cons_of_pos hword]
    exact List.cons_ne_nil _ _
  · rintro ⟨d, hd, hnext⟩
    have := List.head?_dropWhile_not Source.extendsWord rest
    rw [hd] at this
    simp [hnext] at this

theorem EndsInWord.exists_word (h : EndsInWord front) :
    ∃ before word, front = before ++ word ∧ word ≠ [] ∧ (∀ c ∈ word, Source.extendsWord c = true) ∧
      ¬EndsInWord before := by
  have hreverse (text : List Char) : EndsInWord text ↔ StartsWithWord text.reverse := by
    simp [EndsInWord, StartsWithWord]
  obtain ⟨word, after, heq, hne, hword, hafter⟩ := ((hreverse front).mp h).exists_word
  refine ⟨after.reverse, word.reverse, ?_, by simpa using hne, by simpa using hword, ?_⟩
  · rw [← List.reverse_append, ← heq, List.reverse_reverse]
  · rwa [hreverse, List.reverse_reverse]

theorem merge_of_words (hfront : EndsInWord front) (hrest : StartsWithWord rest) : Merge front rest := by
  obtain ⟨before, word, rfl, hne, hword, hbefore⟩ := hfront.exists_word
  obtain ⟨next, after, rfl, hne', hnext, hafter⟩ := hrest.exists_word
  have hboth : ∀ c ∈ word ++ next, Source.extendsWord c = true := by
    simpa [or_imp, forall_and] using ⟨hword, hnext⟩
  refine ⟨tokens before, word, next, tokens after, ?_, ?_, ?_⟩
  · rw [tokens_append fun h => hbefore h.1, tokens_of_word hne hword]
  · rw [tokens_append fun h => hafter h.2, tokens_of_word hne' hnext]
    rfl
  · calc tokens (before ++ word ++ (next ++ after))
        = tokens (before ++ ((word ++ next) ++ after)) := by simp
      _ = tokens before ++ tokens ((word ++ next) ++ after) := tokens_append fun h => hbefore h.1
      _ = tokens before ++ (tokens (word ++ next) ++ tokens after) := by rw [tokens_append fun h => hafter h.2]
      _ = tokens before ++ (word ++ next) :: tokens after := by
        rw [tokens_of_word (List.append_ne_nil_of_left_ne_nil hne _) hboth]
        rfl

theorem merge_iff : Merge front rest ↔ EndsInWord front ∧ StartsWithWord rest := by
  refine ⟨fun ⟨before, word, next, after, hfront, hrest, hboth⟩ => ?_, fun ⟨hfront, hrest⟩ => merge_of_words hfront hrest⟩
  -- If the texts fell apart where they meet, there would be one token more.
  by_contra h
  rw [tokens_append h, hfront, hrest] at hboth
  have hlength := congrArg List.length hboth
  simp at hlength

end Tokens

/-! ### Gaps before a word -/

/-- A word starts with no character of a gap. -/
theorem not_gap_of_word {c : Char} (h : Source.extendsWord c = true) : isIndent c = false ∧ c ≠ '\n' ∧ c ≠ '\r' := by
  refine ⟨?_, ?_, ?_⟩
  · by_contra hindent
    simp only [isIndent, Bool.not_eq_false, Bool.or_eq_true, beq_iff_eq] at hindent
    rcases hindent with rfl | rfl <;> revert h <;> decide +kernel
  all_goals
    rintro rfl
    revert h
    decide +kernel

theorem gapLength_append {gap rest : List Char} (h : IsGap gap) (hrest : StartsWithWord rest) :
    gapLength (gap ++ rest) = gap.length := by
  obtain ⟨c, hc, hword⟩ := hrest
  obtain ⟨tail, rfl⟩ := List.head?_eq_some_iff.mp hc
  obtain ⟨hindent, hfeed, hreturn⟩ := not_gap_of_word hword
  obtain ⟨before, after, hbefore, hafter, rfl | rfl | rfl⟩ := h
  · simp only [gapLength, takeWhile_indent tail hbefore hindent, List.drop_left]
    split <;> simp_all
  · have hrun := takeWhile_indent (after ++ c :: tail) hbefore (show isIndent '\n' = false by decide)
    simp only [List.append_assoc, List.cons_append, gapLength, hrun, List.drop_left,
      takeWhile_indent tail hafter hindent, List.length_append, List.length_cons]
    omega
  · have hrun := takeWhile_indent ('\n' :: (after ++ c :: tail)) hbefore (show isIndent '\r' = false by decide)
    simp only [List.append_assoc, List.cons_append, gapLength, hrun, List.drop_left,
      takeWhile_indent tail hafter hindent, List.length_append, List.length_cons]
    omega

/-- The gap of a text is what stands before its first word, if a gap does. -/
theorem leadsToWord_iff {text gap rest : List Char} (htext : text = gap ++ rest) (hgap : IsGap gap)
    (hlength : gap.length = gapLength text) : LeadsToWord text ↔ StartsWithWord rest := by
  subst htext
  refine ⟨?_, fun h => ⟨gap, rest, rfl, hgap, h⟩⟩
  rintro ⟨gap', rest', heq, hgap', hrest'⟩
  have hsame : gap.length = gap'.length := by rw [hlength, heq, gapLength_append hgap' hrest']
  obtain ⟨-, rfl⟩ := List.append_inj heq hsame
  exact hrest'

end Text

/-! ### Around a marker -/

/-- A source around the marker of a span, which has this text. The gap after the marker is to be removed with it. -/
structure Span.Surrounds (source : List Char) (s : Span) (text front gap rest : List Char) : Prop where
  source_eq : source = front ++ (text ++ (gap ++ rest))
  isGap : Text.IsGap gap
  gap_length : gap.length = Text.gapLength (gap ++ rest)
  start : s.markerStart = some (front.length : Int)
  stop : s.markerEnd = some ((front.length + text.length + gap.length : Nat) : Int)

/-- The two sides of a removed marker meet. -/
theorem Span.Surrounds.apply_eq {source text front gap rest : List Char} {s : Span} {start stop : Int}
    (h : s.Surrounds source text front gap rest) (hstart : s.markerStart = some start) (hstop : s.markerEnd = some stop) :
    Edit.apply source ⟨start, stop, []⟩ = front ++ rest := by
  obtain rfl := Option.some.inj (h.start.symm.trans hstart)
  obtain rfl := Option.some.inj (h.stop.symm.trans hstop)
  have hfront : Text.upTo source (front.length : Int) = front := by
    simp [Text.upTo, Text.resolve, h.source_eq]
  have hrest : Text.startingAt source ((front.length + text.length + gap.length : Nat) : Int) = rest := by
    have hsource : source = front ++ text ++ gap ++ rest := by simp [h.source_eq]
    rw [Text.startingAt, Text.resolve, if_neg (by omega), Int.toNat_natCast, hsource]
    exact List.drop_left' (by simp only [List.length_append])
  rw [Edit.apply, hfront, hrest, List.append_nil]

theorem Tree.Node.IsPlaced.exists_surrounds {source : List Char} {mark : Node} (h : mark.IsPlaced source) (d : Dialect)
    (n body : Node) : ∃ text front gap rest, mark.text (encode source) = .ok (String.ofList text) ∧
      (d.spanOf source n body (some mark)).Surrounds source text front gap rest := by
  have hle := h.offset_le
  have hin := h.stop_boundary.charOffset_le_length
  obtain ⟨gap, rest, hafter, hlength, hgap⟩ := Text.exists_gap_append (source.drop (charOffset source mark.stop))
  have hfront : (source.take (charOffset source mark.start)).length = charOffset source mark.start :=
    List.length_take_of_le (by omega)
  have htext : ((source.drop (charOffset source mark.start)).take
      (charOffset source mark.stop - charOffset source mark.start)).length =
        charOffset source mark.stop - charOffset source mark.start :=
    List.length_take_of_le (by rw [List.length_drop]; omega)
  refine ⟨_, source.take (charOffset source mark.start), gap, rest, h.text_eq, ?_, hgap, by rw [hlength, hafter], ?_, ?_⟩
  · have hdrop : source.drop (charOffset source mark.stop) = (source.drop (charOffset source mark.start)).drop
        (charOffset source mark.stop - charOffset source mark.start) := by
      rw [List.drop_drop, Nat.add_sub_cancel' hle]
    rw [← hafter, hdrop, List.take_append_drop, List.take_append_drop]
  · rw [hfront]
    rfl
  · rw [hfront, htext, Nat.add_sub_cancel' hle, hlength]
    rfl

/-- The declarations of a placed tree can be read, and the edit that removes a marker puts what stands before the marker
    and what follows the gap after it together. By that the last token before the marker becomes one with the first after
    it exactly if a word ends right before the marker and a gap at most separates the marker from another. Otherwise the
    tokens are those before the marker and those after it. -/
theorem removal_merges_only_adjacent_words {k : LanguageKit} (hk : k = .swift ∨ k = .java) {source : List Char}
    {tree : SourceTree} (hp : Placed source tree.root) (marker : String) :
    ∃ declarations, k.dialect.extract source tree marker = .ok declarations ∧
      ∀ r ∈ declarations, ∀ span ∈ r.span, ∀ start ∈ span.markerStart, ∃ stop ∈ span.markerEnd,
        ∃ n ∈ tree.root.preorder, ∃ body mark, k.dialect.Marked (encode source) marker n body mark ∧
          ∃ text front gap rest, mark.text (encode source) = .ok (String.ofList text) ∧
            span.Surrounds source text front gap rest ∧
            Edit.apply source ⟨start, stop, []⟩ = front ++ rest ∧
            (Text.Merge front rest ↔ Text.EndsInWord front ∧ Text.LeadsToWord (gap ++ rest)) ∧
            (¬Text.Merge front rest → Text.tokens (front ++ rest) = Text.tokens front ++ Text.tokens rest) := by
  obtain ⟨declarations, hextract⟩ := (LanguageKit.readsTexts hk).exists_extract_eq_ok hp marker
  refine ⟨declarations, hextract, fun r hr span hspan start hstart => ?_⟩
  obtain ⟨n, hn, hread⟩ := (Dialect.mem_extract hextract).mp hr
  obtain ⟨body, found, -, hdeclares, hmark, -, -, -, hspanOf⟩ := Dialect.declaration?_eq_some hread
  obtain rfl := Option.some.inj (hspanOf.symm.trans hspan)
  obtain ⟨mark, rfl, -⟩ := Option.map_eq_some_iff.mp hstart
  have hplaced := hp mark (Dialect.mem_preorder_of_mem_attributes hn (Dialect.mem_attributes_of_markerOf hmark))
  obtain ⟨text, front, gap, rest, htext, h⟩ := hplaced.exists_surrounds k.dialect n body
  refine ⟨_, h.stop, n, hn, body, mark, ⟨hdeclares, hmark⟩, text, front, gap, rest, htext, h, h.apply_eq hstart h.stop,
    ?_, fun hmerge => ?_⟩
  · rw [Text.merge_iff, Text.leadsToWord_iff rfl h.isGap h.gap_length]
  · rw [Text.merge_iff] at hmerge
    exact Text.tokens_append hmerge

/-! ### Markers among other modifiers -/

namespace Sample

def markAt (start stop : Nat) : Node :=
  ⟨"marker_annotation", start, stop, true, none, [
    ⟨"@", start, start + 1, false, none, []⟩, ⟨"identifier", start + 1, stop, true, some "name", []⟩]⟩

/-- A class `A` with a marker of ten characters after another modifier. -/
def modifiedClass (modifier : Node) (start : Nat) : SourceTree :=
  let body : Node := ⟨"class_body", start + 19, start + 21, true, some "body", [
    ⟨"\x7b", start + 19, start + 20, false, none, []⟩, ⟨"\x7d", start + 20, start + 21, false, none, []⟩]⟩
  let declaration : Node := ⟨"class_declaration", 0, start + 21, true, none, [
    ⟨"modifiers", 0, start + 10, true, none, [modifier, markAt start (start + 10)]⟩,
    ⟨"class", start + 11, start + 16, false, none, []⟩, ⟨"identifier", start + 17, start + 18, true, some "name", []⟩,
    body]⟩
  ⟨⟨"program", 0, start + 21, true, none, [declaration]⟩, false⟩

def publicSource : List Char := "public @Buildable class A \x7b\x7d".toList

def publicTree : SourceTree := modifiedClass ⟨"public", 0, 6, false, none, []⟩ 7

def annotatedSource : List Char := "@Other@Buildable class A \x7b\x7d".toList

def annotatedTree : SourceTree := modifiedClass (markAt 0 6) 6

end Sample

open Sample in
theorem removal_merges_only_adjacent_words_public :
    LanguageKit.java.dialect.WellFormed publicSource publicTree.root ∧
      ∃ r span, LanguageKit.java.dialect.extract publicSource publicTree "Buildable" = .ok [r] ∧ r.span = some span ∧
        span.markerStart = some 7 ∧ ∃ stop ∈ span.markerEnd,
          Edit.apply publicSource ⟨7, stop, []⟩ = "public class A \x7b\x7d".toList ∧
          Text.tokens "public class A \x7b\x7d".toList =
            Text.tokens "public ".toList ++ Text.tokens "class A \x7b\x7d".toList := by
  have wf : LanguageKit.java.dialect.WellFormed publicSource publicTree.root := by decide +kernel
  have hmarks : (LanguageKit.java.dialect.extract publicSource publicTree "Buildable").toOption.map
      (·.map fun r => r.span.bind (·.markerStart)) = some [some 7] := by decide +kernel
  obtain ⟨declarations, hextract, hall⟩ := removal_merges_only_adjacent_words (Or.inr rfl) wf.placed "Buildable"
  rw [hextract] at hmarks
  obtain ⟨r, rfl, hr⟩ := List.map_eq_singleton_iff.mp (Option.some.inj hmarks)
  obtain ⟨span, hspan, hstart⟩ := Option.bind_eq_some_iff.mp hr
  have hends : (LanguageKit.java.dialect.extract publicSource publicTree "Buildable").toOption.all
      (·.all fun r => r.span.all fun span => span.markerEnd = some 18) = true := by decide +kernel
  have hend : span.markerEnd = some 18 := by simpa [hextract, Except.toOption, hspan] using hends
  obtain ⟨stop, hstop, -, -, -, -, -, text, front, gap, rest, -, h, happly, hmerge, hapart⟩ :=
    hall r (List.mem_singleton_self r) span hspan 7 hstart
  obtain rfl : 18 = stop := Option.some.inj (hend.symm.trans hstop)
  have happlied : Edit.apply publicSource ⟨7, 18, []⟩ = "public class A \x7b\x7d".toList := by decide +kernel
  have hfront : front = "public ".toList := by
    have hlength := Option.some.inj (h.start.symm.trans hstart)
    have htake : publicSource.take 7 = front := by
      rw [h.source_eq]
      exact List.take_left' (by omega)
    rw [← htake]
    decide +kernel
  have hrest : rest = "class A \x7b\x7d".toList := by
    rw [happly, hfront] at happlied
    exact List.append_cancel_left happlied
  have hnot : ¬Text.Merge front rest := by
    rw [hmerge, hfront]
    exact fun hwords => absurd hwords.1 (by decide +kernel)
  refine ⟨wf, r, span, hextract, hspan, hstart, 18, hend, happlied, ?_⟩
  rw [← happlied, happly, hapart hnot, hfront, hrest]

open Sample in
/-- Without a blank before the marker, the annotation before it and the keyword after it are joined. -/
theorem removal_joins_annotation_and_keyword :
    LanguageKit.java.dialect.WellFormed annotatedSource annotatedTree.root ∧
      (∃ r span, LanguageKit.java.dialect.extract annotatedSource annotatedTree "Buildable" = .ok [r] ∧
        r.span = some span ∧ span.markerStart = some 6 ∧ span.markerEnd = some 17) ∧
      annotatedSource[6]? = some '@' ∧
      (annotatedSource[5]?.any Source.extendsWord && annotatedSource[17]?.any Source.extendsWord) = true ∧
      ∃ e, LanguageKit.java.expandTree annotatedSource annotatedTree {} = .ok e ∧ e.expanded = ["A"] ∧
        e.source = "@Otherclass A \x7b\n    A() \x7b\n    \x7d\n\x7d".toList ∧
        "Otherclass".toList ∈ Text.tokens e.source := by
  have wf : LanguageKit.java.dialect.WellFormed annotatedSource annotatedTree.root := by decide +kernel
  have hmarks : (LanguageKit.java.dialect.extract annotatedSource annotatedTree "Buildable").toOption.map
      (·.map fun r => r.span.map fun span => (span.markerStart, span.markerEnd)) = some [some (some 6, some 17)] := by
    decide +kernel
  obtain ⟨declarations, hextract, hlist⟩ := Option.map_eq_some_iff.mp hmarks
  obtain ⟨r, rfl, hr⟩ := List.map_eq_singleton_iff.mp hlist
  obtain ⟨span, hspan, hplaces⟩ := Option.map_eq_some_iff.mp hr
  obtain ⟨hstart, hstop⟩ := Prod.mk.inj hplaces
  refine ⟨wf, ⟨r, span, Tree.eq_ok_of_toOption hextract, hspan, hstart, hstop⟩, by decide +kernel, by decide +kernel, ?_⟩
  -- The edits are sorted before they are made, which does not evaluate; made at once they give the same.
  have hexpanded : (LanguageKit.java.expandTree annotatedSource annotatedTree {}).toOption.any (·.expanded = ["A"]) =
      true := by decide +kernel
  obtain ⟨e, he, hname⟩ := (Option.any_eq_true _ _).mp hexpanded
  obtain ⟨pairs, hedits, hs⟩ := LanguageKit.exists_splices (Or.inr rfl) (wf.recovered _)
    (Dialect.markersApart_of_plain (by decide +kernel)) (Tree.eq_ok_of_toOption he)
  have hrun : (LanguageKit.java.edits? annotatedSource annotatedTree {}).any (fun edits =>
      Edit.atOnce annotatedSource edits = "@Otherclass A \x7b\n    A() \x7b\n    \x7d\n\x7d".toList ∧
        "Otherclass".toList ∈ Text.tokens (Edit.atOnce annotatedSource edits)) = true := by decide +kernel
  rw [hedits, Option.any_some, decide_eq_true_eq, ← hs.result_eq_atOnce] at hrun
  exact ⟨e, Tree.eq_ok_of_toOption he, of_decide_eq_true hname, hrun⟩

end Recordsmith
