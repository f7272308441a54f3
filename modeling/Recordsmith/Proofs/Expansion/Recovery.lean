import Recordsmith.Proofs.Expansion.Splicing

/-!
Expansion of a source that breaks its grammar. The tree is then a recovered one, and the body of a marked record need not
end with a brace. Everything visible outside the markers stays, in its order, but for the last character of a body that
does not end with a brace: the members are put in its place.
-/

namespace Recordsmith

open Text.Utf8 (encode charOffset)
open Recordsmith.Tree (Node Dialect SourceTree)

namespace Tree.Dialect
variable {d : Dialect} {source : List Char} {root n body mark : Node} {marker : String} {i : Nat}

/-- The position of the last character of a marked record's body, where that is no closing brace. -/
def Overwritten (d : Dialect) (source : List Char) (root : Node) (marker : String) (i : Nat) : Prop :=
  ∃ n ∈ root.preorder, ∃ body mark, d.Marked (encode source) marker n body mark ∧ d.DeclaresRecord n ∧
    i + 1 = charOffset source body.stop ∧ source[i]? ≠ some '\x7d'

instance : Decidable (d.Overwritten source root marker i) :=
  decidable_of_iff (¬∀ n ∈ root.preorder, ∀ body mark, d.Marked (encode source) marker n body mark →
      ¬(d.DeclaresRecord n ∧ i + 1 = charOffset source body.stop ∧ source[i]? ≠ some '\x7d'))
    (by simp only [Overwritten]; push Not; rfl)

/-- Of what an expansion may take away, only the markers are visible. -/
theorem Erasable.inMarker (h : d.Erasable source root marker i) (hv : Text.IsVisible source i) :
    d.InMarker source root marker i := by
  obtain ⟨c, hc, hsolid⟩ := hv
  have hblank : Text.isBlank c ≠ true := by simp [hsolid]
  cases h with
  | marker hn hm low high => exact ⟨_, hn, _, _, hm, low, high⟩
  | @gap _ _ mark _ _ stop low high gap =>
    have hmem : c ∈ (source.drop (charOffset source mark.stop)).take (stop - charOffset source mark.stop) := by
      refine List.mem_of_getElem? (i := i - charOffset source mark.stop) ?_
      rw [List.getElem?_take_of_lt (by omega), List.getElem?_drop, Nat.add_sub_cancel' low]
      exact hc
    exact absurd (gap.isBlank c hmem) hblank
  | ending _ _ high blank =>
    obtain ⟨c', hc', hb⟩ := blank i (Nat.le_refl i) high
    obtain rfl : c' = c := Option.some.inj (hc'.symm.trans hc)
    exact absurd hb hblank

theorem EditPlace.eq_brace_of_not_overwritten (p : EditPlace source n body mark) (hn : n ∈ root.preorder)
    (hm : d.Marked (encode source) marker n body mark) (hrecord : d.DeclaresRecord n)
    (h : ¬d.Overwritten source root marker (charOffset source body.stop - 1)) :
    source[charOffset source body.stop - 1]? = some '\x7d' := by
  by_contra hne
  have := p.stop_pos
  exact h ⟨n, hn, body, mark, hm, hrecord, by omega, hne⟩

end Tree.Dialect

/-- An expansion over a recovered tree keeps every visible character outside the markers, in its order, but for the last
    character of a marked record's body where that is no closing brace. -/
theorem recovery_keeps_visible_text {k : LanguageKit} (hk : k = .swift ∨ k = .java) {source : List Char}
    {tree : SourceTree} {config : Config} {e : Expansion}
    (hr : k.dialect.Recovered source tree.root config.synthesis.marker)
    (hmarkers : k.dialect.MarkersApart source tree.root config.synthesis.marker)
    (h : k.expandTree source tree config = .ok e) (keep : Nat → Bool)
    (hkeep : ∀ i, keep i = true → Text.IsVisible source i ∧
      ¬k.dialect.InMarker source tree.root config.synthesis.marker i ∧
      ¬k.dialect.Overwritten source tree.root config.synthesis.marker i) :
    (Text.pick keep 0 source).Sublist e.source := by
  obtain ⟨pairs, -, hs⟩ := LanguageKit.exists_splices hk hr hmarkers h
  have herasable : ∀ i, keep i = true → ¬k.dialect.Erasable source tree.root config.synthesis.marker i :=
    fun i hi herase => (hkeep i hi).2.1 (herase.inMarker (hkeep i hi).1)
  rw [hs.result_eq]
  refine Edit.pick_sublist_applyAll hs.within hs.apart fun x hx => ?_
  obtain ⟨n, hn, body, mark, hm, place, hx⟩ := hs.exists_editPlace hr hx
  exact place.pick_sublist herasable hn hm (fun hrecord hlast =>
    place.eq_brace_of_not_overwritten hn hm hrecord (hkeep _ hlast).2.2) hx

/-! ### A body without its brace -/

namespace Sample

/-- A record whose closing brace is missing. -/
def openSource : List Char := "@Buildable struct P \x7b let q = 7".toList

/-- The missing brace is there without a width, so the body ends with the last token that is in the source. -/
def openTree : SourceTree where
  root := ⟨"source_file", 0, 31, true, none, [⟨"class_declaration", 0, 31, true, none, [
    ⟨"modifiers", 0, 10, true, none, [⟨"attribute", 0, 10, true, none, [
      ⟨"@", 0, 1, false, none, []⟩, ⟨"user_type", 1, 10, true, none, []⟩]⟩]⟩,
    ⟨"struct", 11, 17, false, some "declaration_kind", []⟩, ⟨"type_identifier", 18, 19, true, some "name", []⟩,
    ⟨"class_body", 20, 31, true, some "body", [⟨"\x7b", 20, 21, false, none, []⟩,
      ⟨"property_declaration", 22, 31, true, none, [
        ⟨"value_binding_pattern", 22, 25, true, none, [⟨"let", 22, 25, false, some "mutability", []⟩]⟩,
        ⟨"pattern", 26, 27, true, some "name", [⟨"simple_identifier", 26, 27, true, some "bound_identifier", []⟩]⟩,
        ⟨"=", 28, 29, false, none, []⟩, ⟨"integer_literal", 30, 31, true, some "value", []⟩]⟩,
      ⟨"\x7d", 31, 31, false, none, []⟩]⟩]⟩]⟩
  faulty := true

theorem openTree_recovered : LanguageKit.swift.dialect.Recovered openSource openTree.root "Buildable" := by
  decide +kernel

theorem openTree_markersApart : LanguageKit.swift.dialect.MarkersApart openSource openTree.root "Buildable" :=
  Dialect.markersApart_of_plain (by decide +kernel)

end Sample

open Sample in
theorem recovery_keeps_visible_text_open :
    LanguageKit.swift.dialect.Recovered openSource openTree.root "Buildable" ∧
      LanguageKit.swift.dialect.MarkersApart openSource openTree.root "Buildable" ∧
      ∃ e, LanguageKit.swift.expandTree openSource openTree {} = .ok e ∧ "structP\x7bletq=".toList.Sublist e.source := by
  obtain ⟨e, he⟩ : ∃ e, LanguageKit.swift.expandTree openSource openTree {} = .ok e := exists_eq_ok (by decide +kernel)
  let keep (i : Nat) : Bool := 11 ≤ i && i < 30 && decide (Text.IsVisible openSource i)
  have hkeep : ∀ i < 30, keep i = true → Text.IsVisible openSource i ∧
      ¬LanguageKit.swift.dialect.InMarker openSource openTree.root "Buildable" i ∧
      ¬LanguageKit.swift.dialect.Overwritten openSource openTree.root "Buildable" i := by
    decide +kernel
  have hpick : Text.pick keep 0 openSource = "structP\x7bletq=".toList := by decide +kernel
  refine ⟨openTree_recovered, openTree_markersApart, e, he, hpick ▸ ?_⟩
  refine recovery_keeps_visible_text (Or.inl rfl) openTree_recovered openTree_markersApart he keep fun i hi => ?_
  exact hkeep i (by simp [keep] at hi; omega) hi

open Sample in
/-- The last character of a body without a brace gets lost. -/
theorem recovery_overwrites_last_character :
    LanguageKit.swift.dialect.Recovered openSource openTree.root "Buildable" ∧
      LanguageKit.swift.dialect.MarkersApart openSource openTree.root "Buildable" ∧
      openSource[30]? = some '7' ∧ ¬LanguageKit.swift.dialect.InMarker openSource openTree.root "Buildable" 30 ∧
      ∃ e, LanguageKit.swift.expandTree openSource openTree {} = .ok e ∧ '7' ∉ e.source := by
  refine ⟨openTree_recovered, openTree_markersApart, by decide +kernel, by decide +kernel, ?_⟩
  obtain ⟨e, he⟩ : ∃ e, LanguageKit.swift.expandTree openSource openTree {} = .ok e := exists_eq_ok (by decide +kernel)
  obtain ⟨pairs, hedits, hs⟩ := LanguageKit.exists_splices (Or.inl rfl) openTree_recovered openTree_markersApart he
  have hrun : (LanguageKit.swift.edits? openSource openTree {}).all (fun edits => '7' ∉ Edit.atOnce openSource edits) =
      true := by
    decide +kernel
  rw [hedits, Option.all_some, decide_eq_true_eq, ← hs.result_eq_atOnce] at hrun
  exact ⟨e, he, hrun⟩

end Recordsmith
