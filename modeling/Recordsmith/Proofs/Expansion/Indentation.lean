import Recordsmith.Proofs.Expansion.LineBreaks
import Recordsmith.Proofs.Expansion.Markers
import Recordsmith.Proofs.Expansion.Modes
import Recordsmith.Proofs.Text.Indentation

/-!
Indentation is cosmetic. The configured indentation reaches nothing but the start of lines: every member is written with
it in front of lines that are not blank, and on its way into the source only more spaces and tabs are put there. So two
expansions that are configured with different indentations fail alike or list the same declarations, and their texts are
the same line by line but for the spaces and tabs in front.
-/

namespace Recordsmith

open Text (IsIndentation Reindents SameLine)
open Recordsmith.Tree (Node Dialect SourceTree)

/-! ### Rendered members -/

namespace Code

/-- A text that starts with a character that is not blank. -/
def StartsSolid (text : String) : Prop := ∃ c rest, text.toList = c :: rest ∧ Text.isBlank c = false

/-- A renderer for which a member is a head, the indented lines of its body and a closing brace. -/
def Renderer.WritesBlocks (renderer : Renderer) : Prop :=
  ∀ (d : Declaration) (member : GeneratedMember), ∃ (head : String) (body : List String),
    (∀ text ∈ body, StartsSolid text) ∧ ∀ indent,
      renderer.member d indent member = Text.join "\n" ([head] ++ body.map (indent ++ ·) ++ ["\x7d"])

theorem StartsSolid.append {text : String} (h : StartsSolid text) (more : String) : StartsSolid (text ++ more) := by
  obtain ⟨c, rest, htext, hc⟩ := h
  exact ⟨c, rest ++ more.toList, by rw [String.toList_append, htext]; rfl, hc⟩

theorem SwiftCode.writesBlocks : SwiftCode.renderer.WritesBlocks := by
  have hself : StartsSolid "self." := ⟨'s', _, rfl, by decide⟩
  have hinit : StartsSolid "Self.init(" := ⟨'S', _, rfl, by decide⟩
  intro d member
  cases member with
  | constructor c =>
    refine ⟨(if c.required then "required " else "") ++ SwiftCode.keyword c.accessModifier ++ "init(" ++
        Text.join ", " (c.parameters.map fun p => p.name ++ ": " ++ p.type) ++ ") \x7b",
      c.assignments.map fun name => "self." ++ (name ++ " = " ++ name), fun text htext => ?_, fun indent => ?_⟩
    · obtain ⟨name, -, rfl⟩ := List.mem_map.mp htext
      exact hself.append _
    · simp only [SwiftCode.renderer, Renderer.member, SwiftCode.constructor, List.map_map, Function.comp_def,
        String.append_assoc]
  | wither w =>
    refine ⟨SwiftCode.keyword w.accessModifier ++
        ("func " ++ w.name ++ "(_ " ++ w.parameter.name ++ ": " ++ w.parameter.type ++ ") -> Self \x7b"),
      ["Self.init(" ++ (Text.join ", " (w.arguments.map SwiftCode.argument) ++ ")")], fun text htext => ?_, fun indent => ?_⟩
    · rw [List.mem_singleton.mp htext]
      exact hinit.append _
    · simp only [SwiftCode.renderer, Renderer.member, SwiftCode.wither, List.map_singleton, String.append_assoc]
      rfl

theorem JavaCode.writesBlocks : JavaCode.renderer.WritesBlocks := by
  have hthis : StartsSolid "this." := ⟨'t', _, rfl, by decide⟩
  have hreturn : StartsSolid "return new " := ⟨'r', _, rfl, by decide⟩
  intro d member
  cases member with
  | constructor c =>
    refine ⟨JavaCode.keyword c.accessModifier ++ d.name ++ "(" ++
        Text.join ", " (c.parameters.map fun p => p.type ++ " " ++ p.name) ++ ") \x7b",
      c.assignments.map fun name => "this." ++ (name ++ " = " ++ name ++ ";"), fun text htext => ?_, fun indent => ?_⟩
    · obtain ⟨name, -, rfl⟩ := List.mem_map.mp htext
      exact hthis.append _
    · simp only [JavaCode.renderer, Renderer.member, JavaCode.constructor, List.map_map, Function.comp_def,
        String.append_assoc]
  | wither w =>
    refine ⟨JavaCode.keyword w.accessModifier ++ JavaCode.selfType d ++ " " ++ w.name ++ "(" ++
        (w.parameter.type ++ " " ++ w.parameter.name) ++ ") \x7b",
      ["return new " ++ (d.name ++ (if d.typeParameters.isEmpty then "" else "<>") ++ "(" ++
        Text.join ", " (w.arguments.map JavaCode.argument) ++ ");")], fun text htext => ?_, fun indent => ?_⟩
    · rw [List.mem_singleton.mp htext]
      exact hreturn.append _
    · simp only [JavaCode.renderer, Renderer.member, JavaCode.wither, List.map_singleton, String.append_assoc]
      rfl

theorem Renderer.WritesBlocks.reindents {renderer : Renderer} (h : renderer.WritesBlocks) (d : Declaration)
    (member : GeneratedMember) {indent indent' : String} (hindent : IsIndentation indent.toList)
    (hindent' : IsIndentation indent'.toList) :
    Reindents (renderer.member d indent member).toList (renderer.member d indent' member).toList := by
  obtain ⟨head, body, hbody, hmember⟩ := h d member
  have hlines : List.Forall₂ SameLine (body.map fun text => (indent ++ text).toList)
      (body.map fun text => (indent' ++ text).toList) := by
    rw [List.forall₂_map_left_iff, List.forall₂_map_right_iff, List.forall₂_same]
    intro text htext
    obtain ⟨c, rest, hsolid, hc⟩ := hbody text htext
    rw [String.toList_append, String.toList_append, hsolid]
    exact .indented hindent hindent' hc rest
  have hall := Reindents.unlines (List.rel_append hlines (.cons (.refl "\x7d".toList) .nil)) head.toList
  rw [hmember, hmember, Text.toList_join, Text.toList_join]
  simpa [Function.comp_def, Text.unlines] using hall

end Code

/-! ### Edits -/

/-- Two edits of one range whose replacements differ in indentation only. -/
structure Edit.Reindents (e e' : Edit) : Prop where
  start : e.start = e'.start
  stop : e.stop = e'.stop
  replacement : Text.Reindents e.replacement e'.replacement

theorem Edit.Reindents.refl (e : Edit) : e.Reindents e := ⟨rfl, rfl, .refl _⟩

theorem Edit.reindents_pieceAt {edits edits' : List Edit} (h : List.Forall₂ Edit.Reindents edits edits')
    (entry : Char × Nat) : Text.Reindents (pieceAt edits entry) (pieceAt edits' entry) := by
  have hcovers : edits.any (·.covers entry.2) = edits'.any (·.covers entry.2) := by
    induction h with
    | nil => rfl
    | cons he _ ih => rw [List.any_cons, List.any_cons, ih, covers, covers, he.start, he.stop]
  have hfound : Text.Reindents ((edits.filter (·.start == (entry.2 : Int))).flatMap (·.replacement))
      ((edits'.filter (·.start == (entry.2 : Int))).flatMap (·.replacement)) := by
    clear hcovers
    induction h with
    | nil => exact .nil
    | @cons e e' _ _ he _ ih =>
      rw [List.filter_cons, List.filter_cons, he.start]
      split
      · rw [List.flatMap_cons, List.flatMap_cons]
        exact he.replacement.append ih
      · exact ih
  rw [pieceAt, pieceAt, hcovers]
  exact hfound.append (.refl _)

/-- Whatever edits do at once, they do alike with other indentations. -/
theorem Edit.reindents_atOnce {edits edits' : List Edit} (h : List.Forall₂ Edit.Reindents edits edits')
    (text : List Char) : Text.Reindents (atOnce text edits) (atOnce text edits') :=
  .flatMap (Edit.reindents_pieceAt h) _

theorem Span.reindents_insertion {span : Span} (hspan : span.IsIndented) (source : List Char)
    {rendered rendered' : List String}
    (h : List.Forall₂ (fun a b : String => Reindents a.toList b.toList) rendered rendered') :
    (span.insertion source rendered).Reindents (span.insertion source rendered') where
  start := rfl
  stop := rfl
  replacement := by
    have hblock : Reindents (span.block rendered) (span.block rendered') := by
      refine .joinWith _ ?_
      rw [List.forall₂_map_left_iff, List.forall₂_map_right_iff]
      exact h.imp fun _ _ htext => htext.indentBlock hspan.member
    rw [insertion_replacement, insertion_replacement]
    exact ((((Reindents.refl _).append hblock).append (.refl _)).withBreaks _).append (.refl _)

/-! ### Two runs -/

/-- Two runs that fail with the same error, or succeed with related results. -/
inductive RunsAlike {ε α : Type} (R : α → α → Prop) : Except ε α → Except ε α → Prop
  | error (e : ε) : RunsAlike R (.error e) (.error e)
  | ok {a b : α} (h : R a b) : RunsAlike R (.ok a) (.ok b)

namespace RunsAlike
variable {ε ε' α β : Type} {R : α → α → Prop} {S : β → β → Prop} {x y : Except ε α}

theorem bind {f g : α → Except ε β} (h : RunsAlike R x y) (hfg : ∀ a b, R a b → RunsAlike S (f a) (g b)) :
    RunsAlike S (x >>= f) (y >>= g) := by
  cases h with
  | error e => exact .error e
  | ok h => exact hfg _ _ h

theorem mapError (h : RunsAlike R x y) (f : ε → ε') : RunsAlike R (x.mapError f) (y.mapError f) := by
  cases h with
  | error e => exact .error (f e)
  | ok h => exact .ok h

theorem cases (h : RunsAlike R x y) :
    (∃ e, x = .error e ∧ y = .error e) ∨ ∃ a b, x = .ok a ∧ y = .ok b ∧ R a b := by
  cases h with
  | error e => exact Or.inl ⟨e, rfl, rfl⟩
  | ok h => exact Or.inr ⟨_, _, rfl, rfl, h⟩

theorem of_eq (x : Except ε α) : RunsAlike Eq x x := by
  cases x with
  | error e => exact .error e
  | ok a => exact .ok rfl

/-- The results that are related are those of the two runs. -/
theorem with_results (h : RunsAlike R x y) : RunsAlike (fun a b => R a b ∧ x = .ok a ∧ y = .ok b) x y := by
  cases h with
  | error e => exact .error e
  | ok h => exact .ok ⟨h, rfl, rfl⟩

end RunsAlike

/-! ### Configurations -/

/-- Two configurations that differ at most in the indentation of generated members. -/
structure Config.AgreeButIndent (c c' : Config) : Prop where
  language : c.language = c'.language
  synthesis : c.synthesis = c'.synthesis
  path : c.output.path = c'.output.path

/-- An indentation that is made of spaces and tabs, or none at all. -/
def Output.IndentsBlank (output : Output) : Prop := ∀ indent ∈ output.indent, IsIndentation indent.toList

theorem Expansion.isIndentation_indentOf {output : Output} (h : output.IndentsBlank) {r : Declaration} {span : Span}
    (hspan : r.span = some span) (hindented : span.IsIndented) : IsIndentation (indentOf output r).toList := by
  intro c hc
  rcases mem_indentOf hspan hindented hc with hblank | ⟨indent, hindent, hmem⟩
  · exact hblank
  · exact h indent hindent c hmem

/-! ### Treatments -/

/-- Two treatments of one declaration that differ in the indentation of its members only. -/
structure Treatment.Reindents (t t' : Treatment) : Prop where
  name : t.name = t'.name
  memberCount : t.memberCount = t'.memberCount
  edits : List.Forall₂ Edit.Reindents t.edits t'.edits

namespace Expansion
variable {renderer : Code.Renderer} {source : List Char} {config config' : Config}

theorem treat_runsAlike (hrenderer : renderer.WritesBlocks) (hagree : config.AgreeButIndent config')
    (hindent : config.output.IndentsBlank) (hindent' : config'.output.IndentsBlank) {r : Declaration} {span : Span}
    (hspan : r.span = some span) (hindented : span.IsIndented) (markerStart : Int) :
    RunsAlike Treatment.Reindents (treat renderer source config r span markerStart)
      (treat renderer source config' r span markerStart) := by
  unfold treat
  rw [← hagree.synthesis]
  refine (RunsAlike.of_eq (r.assemble config.synthesis)).bind ?_
  rintro members _ rfl
  split
  · exact .ok ⟨rfl, rfl, .cons (.refl _) .nil⟩
  · refine .ok ⟨rfl, rfl, .cons (.refl _) (.cons (Span.reindents_insertion hindented source ?_) .nil)⟩
    rw [Code.Renderer.members, Code.Renderer.members, List.forall₂_map_left_iff, List.forall₂_map_right_iff,
      List.forall₂_same]
    exact fun member _ => hrenderer.reindents r member (isIndentation_indentOf hindent hspan hindented)
      (isIndentation_indentOf hindent' hspan hindented)

theorem treatments_runsAlike (hrenderer : renderer.WritesBlocks) (hagree : config.AgreeButIndent config')
    (hindent : config.output.IndentsBlank) (hindent' : config'.output.IndentsBlank) {declarations : List Declaration}
    (hspans : ∀ r ∈ declarations, ∀ span ∈ r.span, span.IsIndented) :
    RunsAlike (List.Forall₂ Treatment.Reindents) (treatments renderer source config declarations)
      (treatments renderer source config' declarations) := by
  induction declarations with
  | nil => exact .ok .nil
  | cons r rest ih =>
    obtain ⟨hfirst, hrest⟩ := List.forall_mem_cons.mp hspans
    rw [treatments, treatments]
    cases hspan : r.span with
    | none => exact ih hrest
    | some span =>
      cases hmarker : span.markerStart with
      | none =>
        simp only [hmarker]
        exact ih hrest
      | some markerStart =>
        simp only [hmarker]
        refine (treat_runsAlike hrenderer hagree hindent hindent' hspan (hfirst span hspan) markerStart).bind ?_
        intro t t' ht
        exact (ih hrest).bind fun _ _ hmore => .ok (.cons ht hmore)

/-- What an expansion lists does not depend on the indentation. -/
theorem ofTreatments_of_reindents {ts ts' : List Treatment} (h : List.Forall₂ Treatment.Reindents ts ts') :
    (ofTreatments source ts).expanded = (ofTreatments source ts').expanded ∧
      (ofTreatments source ts).skipped = (ofTreatments source ts').skipped ∧
      (ofTreatments source ts).memberCount = (ofTreatments source ts').memberCount := by
  simp only [ofTreatments]
  induction h with
  | nil => exact ⟨rfl, rfl, rfl⟩
  | @cons t t' _ _ ht _ ih =>
    obtain ⟨hexpanded, hskipped, hcount⟩ := ih
    have hskips : t.isSkipped = t'.isSkipped := by rw [Treatment.isSkipped, Treatment.isSkipped, ht.memberCount]
    simp only [List.filter_cons, List.map_cons, total_cons, hskips, ht.memberCount, hcount]
    cases t'.isSkipped with
    | true => simp [hexpanded, hskipped, ht.name]
    | false => simp [hexpanded, hskipped, ht.name]

end Expansion

/-! ### Whole expansions -/

theorem Tree.Dialect.AttributesPlain.markersApart {d : Dialect} {source : List Char} {root : Node}
    (h : d.AttributesPlain root) (marker : String) : d.MarkersApart source root marker :=
  fun n hn body mark hm inner hinner innerBody _ hmarked =>
    h n hn body hm.toDeclares mark (mem_attributes_of_markerOf hm.marks) inner hinner innerBody hmarked.toDeclares

namespace LanguageKit
variable {k : LanguageKit} {source : List Char} {tree : SourceTree} {config config' : Config}

theorem writesBlocks (hk : k = .swift ∨ k = .java) : k.renderer.WritesBlocks := by
  rcases hk with rfl | rfl
  · exact Code.SwiftCode.writesBlocks
  · exact Code.JavaCode.writesBlocks

/-- The edits of a well-formed tree in which no declaration stands inside an attribute are made at once. -/
theorem source_eq_atOnce (hk : k = .swift ∨ k = .java) (wf : k.dialect.WellFormed source tree.root)
    (hplain : k.dialect.AttributesPlain tree.root) {declarations : List Declaration} {treatments : List Treatment}
    (hextract : k.dialect.extract source tree config.synthesis.marker = .ok declarations)
    (htreatments : Expansion.treatments k.renderer source config declarations = .ok treatments) :
    (Expansion.ofTreatments source treatments).source = Edit.atOnce source (treatments.flatMap (·.edits)) := by
  have hrun : k.expandTree source tree config = .ok (Expansion.ofTreatments source treatments) := by
    rw [expandTree_of_extract hextract, htreatments]
    rfl
  have hedits : k.edits? source tree config = some (treatments.flatMap (·.edits)) := by
    simp only [edits?, hextract, htreatments, Except.toOption, Option.bind_eq_bind, Option.bind_some]
    rfl
  obtain ⟨pairs, hpairs, hs⟩ := exists_splices hk (wf.recovered _) (hplain.markersApart _) hrun
  rw [hs.result_eq_atOnce, Option.some.inj (hedits.symm.trans hpairs)]

/-- With other indentations an expansion fails alike, or it lists the same declarations and gives a text that differs in
    indentation only. -/
theorem expandTree_runsAlike (hk : k = .swift ∨ k = .java) (wf : k.dialect.WellFormed source tree.root)
    (hplain : k.dialect.AttributesPlain tree.root) (hagree : config.AgreeButIndent config')
    (hindent : config.output.IndentsBlank) (hindent' : config'.output.IndentsBlank) :
    RunsAlike (fun e e' => (e.expanded = e'.expanded ∧ e.skipped = e'.skipped ∧ e.memberCount = e'.memberCount) ∧
        Reindents e.source e'.source)
      (k.expandTree source tree config) (k.expandTree source tree config') := by
  have hmarker : config'.synthesis.marker = config.synthesis.marker := by rw [hagree.synthesis]
  unfold expandTree
  rw [hmarker]
  refine ((RunsAlike.of_eq (k.dialect.extract source tree config.synthesis.marker)).with_results.mapError _).bind ?_
  rintro declarations _ ⟨rfl, hextract, -⟩
  have hspans : ∀ r ∈ declarations, ∀ span ∈ r.span, span.IsIndented := by
    intro r hr span hspan
    obtain ⟨n, -, hread⟩ := (Dialect.mem_extract hextract).mp hr
    obtain ⟨body, mark, -, -, -, -, -, -, hown⟩ := Dialect.declaration?_eq_some hread
    obtain rfl := Option.some.inj (hspan.symm.trans hown)
    exact k.dialect.isIndented_spanOf source n body mark
  have htreatments : RunsAlike (List.Forall₂ Treatment.Reindents)
      (Expansion.treatments k.renderer source config declarations)
      (Expansion.treatments k.renderer source config' declarations) :=
    Expansion.treatments_runsAlike (writesBlocks hk) hagree hindent hindent' hspans
  refine (htreatments.with_results.mapError _).bind ?_
  rintro ts ts' ⟨hts, hrun, hrun'⟩
  refine .ok ⟨Expansion.ofTreatments_of_reindents hts, ?_⟩
  rw [source_eq_atOnce hk wf hplain hextract hrun, source_eq_atOnce hk wf hplain (hmarker ▸ hextract) hrun']
  exact Edit.reindents_atOnce (List.rel_flatMap hts fun _ _ ht => ht.edits) source

end LanguageKit

/-- The indentation of generated members is cosmetic. Over a well-formed tree in which no declaration stands inside an
    attribute, two configurations that differ in it only fail with the same error, or both succeed: with the same
    declarations expanded and skipped, as many members, as many lines, and the same lines but for the spaces and tabs in
    front of them. -/
theorem indentation_is_cosmetic {k : LanguageKit} (hk : k = .swift ∨ k = .java) {source : List Char} {tree : SourceTree}
    {config config' : Config} (wf : k.dialect.WellFormed source tree.root) (hplain : k.dialect.AttributesPlain tree.root)
    (hagree : config.AgreeButIndent config') (hindent : config.output.IndentsBlank)
    (hindent' : config'.output.IndentsBlank) :
    (∃ error, k.expandTree source tree config = .error error ∧ k.expandTree source tree config' = .error error) ∨
      ∃ e e', k.expandTree source tree config = .ok e ∧ k.expandTree source tree config' = .ok e' ∧
        e.expanded = e'.expanded ∧ e.skipped = e'.skipped ∧ e.memberCount = e'.memberCount ∧
        (Text.lines e.source).length = (Text.lines e'.source).length ∧
        (Text.lines e.source).map Text.withoutIndent = (Text.lines e'.source).map Text.withoutIndent := by
  rcases (LanguageKit.expandTree_runsAlike hk wf hplain hagree hindent hindent').cases with
    herror | ⟨e, e', he, he', ⟨hexpanded, hskipped, hcount⟩, hsource⟩
  · exact Or.inl herror
  · have hlines := hsource.map_withoutIndent_eq
    have hlength := congrArg List.length hlines
    rw [List.length_map, List.length_map] at hlength
    exact Or.inr ⟨e, e', he, he', hexpanded, hskipped, hcount, hlength, hlines⟩

namespace Sample

def tabbed : Config := { output := { indent := some "\t" } }

end Sample

open Sample in
/-- The members of a Java class with `\r\n` and a type on two lines, indented as the source or with tabs: the two texts
    differ, but not in what stands on their lines. -/
theorem indentation_is_cosmetic_tabs :
    LanguageKit.java.dialect.WellFormed wrappedClassSource wrappedClassTree.root ∧
      LanguageKit.java.dialect.AttributesPlain wrappedClassTree.root ∧ Config.AgreeButIndent {} tabbed ∧
      tabbed.output.IndentsBlank ∧
      ∃ e e', LanguageKit.java.expandTree wrappedClassSource wrappedClassTree {} = .ok e ∧
        LanguageKit.java.expandTree wrappedClassSource wrappedClassTree tabbed = .ok e' ∧ e.source ≠ e'.source ∧
        e.expanded = ["P"] ∧ e'.expanded = ["P"] ∧
        (Text.lines e.source).map Text.withoutIndent = (Text.lines e'.source).map Text.withoutIndent := by
  have wf : LanguageKit.java.dialect.WellFormed wrappedClassSource wrappedClassTree.root := by decide +kernel
  have hplain : LanguageKit.java.dialect.AttributesPlain wrappedClassTree.root := by decide +kernel
  have hagree : Config.AgreeButIndent {} tabbed := ⟨rfl, rfl, rfl⟩
  have hblank : tabbed.output.IndentsBlank := by
    rintro _ ⟨⟩
    decide
  have hnames : (LanguageKit.java.expandTree wrappedClassSource wrappedClassTree {}).toOption.map (·.expanded) =
      some ["P"] := by decide +kernel
  have hdiffer : (LanguageKit.java.edits? wrappedClassSource wrappedClassTree {}).map (Edit.atOnce wrappedClassSource) ≠
      (LanguageKit.java.edits? wrappedClassSource wrappedClassTree tabbed).map (Edit.atOnce wrappedClassSource) := by
    decide +kernel
  obtain ⟨e, he, hexpanded⟩ := Option.map_eq_some_iff.mp hnames
  have hok := Tree.eq_ok_of_toOption he
  rcases indentation_is_cosmetic (Or.inr rfl) wf hplain hagree nofun hblank with
    ⟨error, herror, -⟩ | ⟨e₁, e', h₁, h', hlisted, -, -, -, hlines⟩
  · cases hok.symm.trans herror
  · obtain rfl := Except.ok.inj (hok.symm.trans h₁)
    obtain ⟨pairs, hpairs, hs⟩ := LanguageKit.exists_splices (Or.inr rfl) (wf.recovered _) (hplain.markersApart _) hok
    obtain ⟨pairs', hpairs', hs'⟩ := LanguageKit.exists_splices (Or.inr rfl) (wf.recovered _) (hplain.markersApart _) h'
    rw [hpairs, hpairs', Option.map_some, Option.map_some, ← hs.result_eq_atOnce, ← hs'.result_eq_atOnce] at hdiffer
    exact ⟨wf, hplain, hagree, hblank, e, e', hok, h', fun h => hdiffer (congrArg some h), hexpanded,
      hlisted ▸ hexpanded, hlines⟩

end Recordsmith
