import Mathlib.Data.List.Basic
import Recordsmith.Config.Basic
import Recordsmith.Proofs.Expansion.Treatment

/-!
Overrides as layers. A configuration under accepted overrides is that configuration with what they say on top
(`Config.layered`), so a run of overrides is one layer: the last language and the last path that are given count,
strictness counts wherever it is given, and the names and the indentation of the configuration stay.
-/

namespace Recordsmith

theorem Language.ofText?_eq_some_iff {text : String} {l : Language} :
    ofText? text = some l ↔ text.toLower = l.name := by
  constructor
  · intro h
    rw [ofText?, ofName?] at h
    exact (beq_iff_eq.mp (by simpa only using List.find?_some h)).symm
  · intro h
    rw [ofText?, h, ofName?_name]

theorem getLast?_filterMap_cons {α β : Type} (f : α → Option β) (x : α) (xs : List α) :
    ((x :: xs).filterMap f).getLast? = (xs.filterMap f).getLast?.or (f x) := by
  cases hx : f x with
  | none => simp [hx]
  | some y => simp [hx, List.getLast?_cons, Option.or_some]

namespace Config
variable {c d e : Config} {o : Overrides} {os : List Overrides} {text : String}

/-! ### Languages -/

namespace Overrides

/-- The language that is named. An empty name is none. -/
def named? (o : Overrides) : Option String := o.language.filter (· ≠ "")

/-- Whether the named language, if there is one, is a language in any mixture of cases. -/
def IsAccepted (o : Overrides) : Prop := ∀ text, o.named? = some text → ∃ l : Language, text.toLower = l.name

theorem named?_eq_some_iff : o.named? = some text ↔ o.language = some text ∧ text ≠ "" := by
  simp [named?, Option.filter_eq_some_iff]

theorem isAccepted_iff : o.IsAccepted ↔ (o.named?.all fun text => (Language.ofText? text).isSome) = true := by
  cases hnamed : o.named? <;>
    simp [IsAccepted, hnamed, Option.isSome_iff_exists, Language.ofText?_eq_some_iff]

instance : Decidable o.IsAccepted := decidable_of_iff _ isAccepted_iff.symm

end Overrides

theorem languageOf_of_unnamed (h : o.named? = none) : languageOf o.language = .ok none := by
  cases hlanguage : o.language with
  | none => rfl
  | some text =>
    have hempty : text = "" := by simpa [Overrides.named?, hlanguage, Option.filter_some] using h
    rw [hempty]
    rfl

theorem languageOf_of_named (h : o.named? = some text) :
    languageOf o.language = (Language.ofText? text).elim (.error (.unsupportedLanguage text)) (.ok ∘ some) := by
  obtain ⟨hlanguage, hne⟩ := Overrides.named?_eq_some_iff.mp h
  rw [hlanguage, languageOf, if_neg hne]
  cases Language.ofText? text <;> rfl

theorem languageOf_of_isAccepted (h : o.IsAccepted) :
    languageOf o.language = .ok (o.named?.bind Language.ofText?) := by
  cases hnamed : o.named? with
  | none => exact languageOf_of_unnamed hnamed
  | some text =>
    obtain ⟨l, hl⟩ := h text hnamed
    rw [languageOf_of_named hnamed, Option.bind_some, Language.ofText?_eq_some_iff.mpr hl]
    rfl

/-! ### One layer -/

/-- A configuration with overrides on top of it. -/
def layered (c : Config) (o : Overrides) : Config where
  language := (o.named?.bind Language.ofText?).or c.language
  synthesis := { c.synthesis with strict := c.synthesis.strict || o.strict }
  output := { c.output with
    path := o.path.or c.output.path
    rawPath := if o.path.isSome then none else c.output.rawPath }

theorem override_of_isAccepted (c : Config) (h : o.IsAccepted) : c.override o = .ok (c.layered o) := by
  rw [override, languageOf_of_isAccepted h]
  rfl

theorem override_of_not_language (c : Config) (hnamed : o.named? = some text)
    (htext : ∀ l : Language, text.toLower ≠ l.name) : c.override o = .error (.unsupportedLanguage text) := by
  have hnone : Language.ofText? text = none :=
    Option.eq_none_iff_forall_ne_some.mpr fun l hl => htext l (Language.ofText?_eq_some_iff.mp hl)
  rw [override, languageOf_of_named hnamed, hnone]
  rfl

/-- What overrides never change in a configuration. Strictness may be turned on, but not off. -/
structure Keeps (c d : Config) : Prop where
  parameterName : d.synthesis.parameterName = c.synthesis.parameterName
  marker : d.synthesis.marker = c.synthesis.marker
  indent : d.output.indent = c.output.indent
  rawIndent : d.output.rawIndent = c.output.rawIndent
  strict : c.synthesis.strict = true → d.synthesis.strict = true

theorem keeps_of_override (h : c.override o = .ok d) : c.Keeps d := by
  obtain ⟨language, -, hd⟩ := bind_eq_ok h
  cases hd
  exact ⟨rfl, rfl, rfl, rfl, fun hstrict => by simp [hstrict]⟩

/-! ### Runs -/

theorem Keeps.refl (c : Config) : c.Keeps c := ⟨rfl, rfl, rfl, rfl, id⟩

theorem Keeps.trans (h : c.Keeps d) (h' : d.Keeps e) : c.Keeps e where
  parameterName := h'.parameterName.trans h.parameterName
  marker := h'.marker.trans h.marker
  indent := h'.indent.trans h.indent
  rawIndent := h'.rawIndent.trans h.rawIndent
  strict hstrict := h'.strict (h.strict hstrict)

theorem keeps_of_foldlM (h : os.foldlM override c = .ok d) : c.Keeps d := by
  induction os generalizing c with
  | nil =>
    cases h
    exact .refl _
  | cons o rest ih =>
    obtain ⟨next, hnext, hrest⟩ := bind_eq_ok h
    exact (keeps_of_override hnext).trans (ih hrest)

/-- The overrides that say at once what others say one after another: strictness counts wherever it is given, of
    the languages and the paths the last ones. -/
def Overrides.combined (os : List Overrides) : Overrides where
  strict := os.any (·.strict)
  language := (os.filterMap (·.named?)).getLast?
  path := (os.filterMap (·.path)).getLast?

theorem Overrides.named?_combined (os : List Overrides) :
    (combined os).named? = (os.filterMap (·.named?)).getLast? := by
  cases hlast : (os.filterMap (·.named?)).getLast? with
  | none => rw [named?, show (combined os).language = none from hlast, Option.filter_none]
  | some text =>
    obtain ⟨o, -, ho⟩ := List.mem_filterMap.mp (List.mem_of_getLast? hlast)
    exact named?_eq_some_iff.mpr ⟨hlast, (named?_eq_some_iff.mp ho).2⟩

theorem Overrides.isAccepted_combined (h : ∀ o ∈ os, o.IsAccepted) : (combined os).IsAccepted := by
  intro text htext
  rw [named?_combined] at htext
  obtain ⟨o, hmem, ho⟩ := List.mem_filterMap.mp (List.mem_of_getLast? htext)
  exact h o hmem text ho

/-- Of two layers with a named language the upper one counts. -/
theorem layered_combined_cons (c : Config) (o : Overrides) (h : ∀ o ∈ os, o.IsAccepted) :
    c.layered (.combined (o :: os)) = (c.layered o).layered (.combined os) := by
  have hnamed : (Overrides.combined (o :: os)).named? = (Overrides.combined os).named?.or o.named? := by
    rw [Overrides.named?_combined, Overrides.named?_combined, getLast?_filterMap_cons]
  have hlanguage : (c.layered (.combined (o :: os))).language =
      ((c.layered o).layered (.combined os)).language := by
    simp only [layered, hnamed]
    cases hrest : (Overrides.combined os).named? with
    | none => rfl
    | some text =>
      obtain ⟨l, hl⟩ := Overrides.isAccepted_combined h text hrest
      simp [Language.ofText?_eq_some_iff.mpr hl]
  have hpath : (Overrides.combined (o :: os)).path = (Overrides.combined os).path.or o.path :=
    getLast?_filterMap_cons ..
  have hstrict : (Overrides.combined (o :: os)).strict = (o.strict || (Overrides.combined os).strict) :=
    List.any_cons
  have hraw : (c.layered (.combined (o :: os))).output.rawPath =
      ((c.layered o).layered (.combined os)).output.rawPath := by
    simp only [layered, hpath]
    cases (Overrides.combined os).path with
    | none => rfl
    | some path => simp
  simp only [layered, Config.mk.injEq, Output.mk.injEq] at hlanguage hraw ⊢
  exact ⟨hlanguage, by rw [hstrict, Bool.or_assoc], trivial, by rw [hpath, Option.or_assoc], trivial, hraw⟩

theorem foldlM_override (c : Config) (h : ∀ o ∈ os, o.IsAccepted) :
    os.foldlM override c = .ok (c.layered (.combined os)) := by
  induction os generalizing c with
  | nil => simp [layered, Overrides.combined, Overrides.named?, pure, Except.pure]
  | cons o rest ih =>
    have hrest : ∀ o ∈ rest, o.IsAccepted := fun o ho => h o (List.mem_cons_of_mem _ ho)
    rw [List.foldlM_cons, override_of_isAccepted c (h o List.mem_cons_self), layered_combined_cons c o hrest]
    exact ih (c.layered o) hrest

/-- Overrides with accepted languages, applied one after another, give what the combined overrides give at once, and
    each of them keeps the names, the indentation and the strictness of what it is applied to. The first language
    that is not accepted is what a run ends with. -/
theorem overrides_are_one_layer (c : Config) (os : List Overrides) (h : ∀ o ∈ os, o.IsAccepted) :
    (∃ d, os.foldlM override c = .ok d ∧ c.override (.combined os) = .ok d ∧
      d.synthesis.strict = (c.synthesis.strict || os.any (·.strict)) ∧
      d.language = ((os.filterMap (·.named?)).getLast?.bind Language.ofText?).or c.language ∧
      d.output.path = (os.filterMap (·.path)).getLast?.or c.output.path) ∧
    (∀ before later, os = before ++ later → ∃ d e,
      before.foldlM override c = .ok d ∧ later.foldlM override d = .ok e ∧ c.Keeps d ∧ d.Keeps e) ∧
    ∀ o rest text, o.language = some text → text ≠ "" → (∀ l : Language, text.toLower ≠ l.name) →
      (os ++ o :: rest).foldlM override c = .error (.unsupportedLanguage text) := by
  refine ⟨⟨c.layered (.combined os), foldlM_override c h,
    override_of_isAccepted c (Overrides.isAccepted_combined h), rfl, ?_, rfl⟩, ?_, ?_⟩
  · rw [← Overrides.named?_combined]
    rfl
  · rintro before later rfl
    have hbefore := foldlM_override c fun o ho => h o (List.mem_append_left later ho)
    have hlater := foldlM_override (c.layered (.combined before)) fun o ho => h o (List.mem_append_right before ho)
    exact ⟨_, _, hbefore, hlater, keeps_of_foldlM hbefore, keeps_of_foldlM hlater⟩
  · intro o rest text hlanguage hne htext
    have hnamed : o.named? = some text := Overrides.named?_eq_some_iff.mpr ⟨hlanguage, hne⟩
    rw [List.foldlM_append, foldlM_override c h]
    show ((c.layered (.combined os)).override o >>= fun d => rest.foldlM override d) = _
    rw [override_of_not_language _ hnamed htext]
    rfl

/-- Overrides that name languages in several spellings, one of them empty, and two paths. -/
def mixedOverrides : List Overrides := [
  { language := some "swift", path := some (.ofText "a.swift") }, { strict := true }, { language := some "JaVa" },
  { language := some "", path := some (.ofText "b.java") }, {}]

theorem overrides_are_one_layer_mixed :
    (∀ o ∈ mixedOverrides, o.IsAccepted) ∧
    (∃ d, mixedOverrides.foldlM override {} = .ok d ∧
      override {} { strict := true, language := some "JaVa", path := some (.ofText "b.java") } = .ok d ∧
      d.synthesis.strict = true ∧ d.language = some .java ∧ d.output.path = some (.ofText "b.java")) ∧
    (mixedOverrides ++ [({ language := some "Kotlin" } : Overrides), { strict := true }]).foldlM override {} =
      .error (.unsupportedLanguage "Kotlin") := by
  have haccepted : ∀ o ∈ mixedOverrides, o.IsAccepted := by decide +kernel
  have hcombined : Overrides.combined mixedOverrides =
      { strict := true, language := some "JaVa", path := some (.ofText "b.java") } := by decide +kernel
  obtain ⟨⟨d, hrun, honce, hstrict, hlanguage, hpath⟩, -, hrefused⟩ :=
    overrides_are_one_layer {} mixedOverrides haccepted
  rw [hcombined] at honce
  refine ⟨haccepted, ⟨d, hrun, honce, hstrict, hlanguage.trans ?_, hpath.trans ?_⟩, ?_⟩
  · decide +kernel
  · decide +kernel
  · refine hrefused _ _ "Kotlin" rfl (by decide) fun l => ?_
    cases l <;> decide +kernel

end Config

end Recordsmith
