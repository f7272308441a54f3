import Recordsmith.Proofs.Expansion.Placement
import Recordsmith.Proofs.Text.Lines

/-!
What an expansion inserts: the generated members, indented and set apart, and the closing brace again. Apart from line
breaks, spaces and tabs, the inserted text holds just what the members hold.
-/

namespace Recordsmith

open Text.Utf8 (encode charOffset)
open Recordsmith.Tree (Node Dialect SourceTree)

/-! ### Indentation -/

/-- A span whose indentations are made of spaces and tabs. -/
structure Span.IsIndented (span : Span) : Prop where
  base : ∀ c ∈ span.baseIndent.toList, Text.isIndent c = true
  member : ∀ c ∈ span.memberIndent.toList, Text.isIndent c = true

theorem isIndent_of_mem_defaultIndent : ∀ c ∈ defaultIndent.toList, Text.isIndent c = true :=
  List.all_eq_true.mp (by decide)

theorem Tree.Dialect.isIndented_spanOf (d : Dialect) (source : List Char) (n body : Node) (mark : Option Node) :
    (d.spanOf source n body mark).IsIndented := by
  have hline (position : Nat) : ∀ c ∈ (String.ofList (Text.lineIndent source position)).toList, Text.isIndent c = true := by
    intro c hc
    rw [String.toList_ofList] at hc
    exact Text.isIndent_of_mem_lineIndent hc
  refine ⟨hline _, fun c hc => ?_⟩
  simp only [spanOf] at hc
  split at hc
  · exact hline _ c hc
  · rw [String.toList_append] at hc
    rcases List.mem_append.mp hc with hc | hc
    · exact hline _ c hc
    · exact isIndent_of_mem_defaultIndent c hc

theorem Declaration.isIndent_of_mem_indentUnit {r : Declaration} {span : Span} (hspan : r.span = some span)
    (hindented : span.IsIndented) : ∀ c ∈ r.indentUnit.toList, Text.isIndent c = true := by
  intro c hc
  simp only [indentUnit, hspan] at hc
  split at hc
  · rw [String.toList_ofList] at hc
    exact hindented.member c (List.mem_of_mem_drop hc)
  · exact isIndent_of_mem_defaultIndent c hc

/-- The unit of indentation is the configured one or made of spaces and tabs. -/
theorem Expansion.mem_indentOf {output : Output} {r : Declaration} {span : Span} (hspan : r.span = some span)
    (hindented : span.IsIndented) {c : Char} (hc : c ∈ (indentOf output r).toList) :
    Text.isIndent c = true ∨ ∃ indent ∈ output.indent, c ∈ indent.toList := by
  unfold indentOf at hc
  split at hc
  · rename_i indent hindent
    split at hc
    · exact Or.inl (Declaration.isIndent_of_mem_indentUnit hspan hindented c hc)
    · exact Or.inr ⟨indent, hindent, hc⟩
  · exact Or.inl (Declaration.isIndent_of_mem_indentUnit hspan hindented c hc)

/-! ### The inserted text -/

namespace Span
variable {span : Span} {source : List Char} {rendered : List String} {p : Char → Bool}

/-- What is put in front of a closing brace, before line breaks are written as in the source. -/
def inserted (span : Span) (source : List Char) (rendered : List String) : List Char :=
  (if (Text.trimEnd (Text.upTo source span.bodyClose)).getLast? = some '\x7b' then ['\n'] else ['\n', '\n']) ++
    span.block rendered ++ '\n' :: span.baseIndent.toList

theorem insertion_replacement (span : Span) (source : List Char) (rendered : List String) :
    (span.insertion source rendered).replacement =
      Text.withBreaks (Text.lineBreak source) (span.inserted source rendered) ++ ['\x7d'] := by
  simp only [insertion, inserted, Text.withBreaks, List.flatMap_append]
  rfl

theorem filter_inserted (hspan : span.IsIndented) (hbreak : p '\n' = false)
    (hindent : ∀ c, Text.isIndent c = true → p c = false) :
    (span.inserted source rendered).filter p = rendered.flatMap fun text => text.toList.filter p := by
  have hnone {indent : List Char} (h : ∀ c ∈ indent, Text.isIndent c = true) : indent.filter p = [] := by
    rw [List.filter_eq_nil_iff]
    intro c hc
    rw [hindent c (h c hc)]
    exact Bool.false_ne_true
  have hseparator : (if (Text.trimEnd (Text.upTo source span.bodyClose)).getLast? = some '\x7b' then ['\n']
      else ['\n', '\n']).filter p = [] := by
    split <;> simp [hbreak]
  have hblock : (span.block rendered).filter p = rendered.flatMap fun text => text.toList.filter p := by
    rw [block, Text.filter_joinWith (by simp [hbreak]), List.flatMap_map]
    exact List.flatMap_congr fun text _ => Text.filter_indentBlock hbreak (hnone hspan.member)
  rw [inserted, List.filter_append, List.filter_append, hseparator, hblock,
    List.filter_cons_of_neg (by rw [hbreak]; exact Bool.false_ne_true), hnone hspan.base]
  simp

end Span

/-! ### Extracted declarations and their treatments -/

theorem Tree.Dialect.mem_extract {d : Dialect} {source : List Char} {tree : SourceTree} {marker : String}
    {declarations : List Declaration} (h : d.extract source tree marker = .ok declarations) {r : Declaration} :
    r ∈ declarations ↔
      ∃ n ∈ tree.root.preorder, d.declaration? source (encode source) marker n = .ok (some r) := by
  obtain ⟨found, hfound, hfiltered⟩ := bind_eq_ok h
  obtain rfl := Except.ok.inj hfiltered
  constructor
  · intro hr
    obtain ⟨r', hr', rfl⟩ := List.mem_filterMap.mp hr
    exact mem_of_mapM_eq_ok hfound hr'
  · rintro ⟨n, hn, hread⟩
    obtain ⟨r', hr', hread'⟩ := exists_of_mapM_eq_ok hfound hn
    obtain rfl := Except.ok.inj (hread'.symm.trans hread)
    exact List.mem_filterMap.mpr ⟨some r, hr', rfl⟩

namespace LanguageKit
variable {k : LanguageKit} {source : List Char} {config : Config} {n body mark : Node} {r : Declaration}
  {members : List GeneratedMember} {t : Treatment}

theorem Treats.span (h : k.Treats source config n body mark r members t) :
    r.span = some (k.dialect.spanOf source n body (some mark)) := by
  obtain ⟨body', mark', -, hdeclares, hmark, -, -, -, hspan⟩ := Dialect.declaration?_eq_some h.read
  obtain rfl := h.marked.toDeclares.body_unique hdeclares
  obtain rfl := Except.ok.inj (hmark.symm.trans h.marked.marks)
  exact hspan

theorem Treats.mem_declarations (h : k.Treats source config n body mark r members t) {tree : SourceTree}
    {declarations : List Declaration}
    (hextract : k.dialect.extract source tree config.synthesis.marker = .ok declarations) (hn : n ∈ tree.root.preorder) :
    r ∈ declarations := (Dialect.mem_extract hextract).mpr ⟨n, hn, h.read⟩

theorem Treats.isMarked (h : k.Treats source config n body mark r members t) : r.isMarked = true := by
  rw [Declaration.isMarked, h.span]
  rfl

/-- Every marked declaration is treated. -/
theorem TreatsAll.exists_treats {tree : SourceTree} {pairs : List (Node × Treatment)}
    (h : k.TreatsAll source config tree.root.preorder pairs) {declarations : List Declaration}
    (hextract : k.dialect.extract source tree config.synthesis.marker = .ok declarations) (hr : r ∈ declarations)
    (hmarked : r.isMarked = true) :
    ∃ p ∈ pairs, ∃ body mark members, k.Treats source config p.1 body mark r members p.2 := by
  obtain ⟨n, hn, hread⟩ := (Dialect.mem_extract hextract).mp hr
  obtain ⟨body, mark, -, hdeclares, hmark, -, -, -, hspan⟩ := Dialect.declaration?_eq_some hread
  cases mark with
  | none => simp [Declaration.isMarked, hspan, Dialect.spanOf] at hmarked
  | some mark =>
    obtain ⟨p, hp, rfl⟩ := List.mem_map.mp (h.complete n hn body mark ⟨hdeclares, hmark⟩)
    obtain ⟨body', mark', r', members, htreats⟩ := h.treats p hp
    obtain rfl : r' = r := Option.some.inj (Except.ok.inj (htreats.read.symm.trans hread))
    exact ⟨p, hp, body', mark', members, htreats⟩

end LanguageKit

end Recordsmith
