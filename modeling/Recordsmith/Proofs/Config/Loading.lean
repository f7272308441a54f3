import Recordsmith.Config.File
import Recordsmith.Proofs.Text.Utf8
import Recordsmith.Proofs.Value.Issues

/-!
Loading a configuration file whose text is a YAML document, or no YAML at all. It gives the configuration that the
document says, whose parameter name is an identifier, or a configuration error that the document explains: each issue
leads to a setting of the document. Only a document with a key that is no text is refused in another way.
-/

namespace Recordsmith

open Text.Utf8 (decode encode)
open Text (unifyBreaks isIdentifier)

/-! ### Settings -/

theorem Synthesis.locates_readMarker (v : Value) : v.Locates [[]] (readMarker v) := by
  cases v with
  | rawText points => trivial
  | _ => exact Value.locates_readText _

theorem Synthesis.ofValue_locates (v : Value) :
    v.Locates [[], [.key "strict"], [.key "parameter_name"], [.key "marker"]] (Synthesis.ofValue v) := by
  refine Value.locates_readObject (fun entries => ?_) v
  have hstrict := Value.locates_optional "strict" false Value.locates_readBool entries
  have hname := Value.locates_optional "parameter_name" "value" Value.locates_readText entries
  have hmarker := Value.locates_optional "marker" "Buildable" locates_readMarker entries
  exact ((hstrict.map _).seq hname).seq hmarker

theorem Output.ofValue_locates (v : Value) :
    v.Locates [[], [.key "indent"], [.key "output_path"]] (Output.ofValue v) := by
  refine Value.locates_readObject (fun entries => ?_) v
  have hindent := Value.locates_optional "indent" none (Value.locates_readOption Value.locates_readText) entries
  have hpath := Value.locates_optional "output_path" none (Value.locates_readOption Value.locates_readPath) entries
  have hraw (name : String) := Value.locates_optional name none Value.locates_readRaw entries
  exact (((hindent.map _).seq hpath).seq (hraw "indent")).seq (hraw "output_path")

theorem Synthesis.isIdentifier_default : isIdentifier ({} : Synthesis).parameterName = true := by decide

/-- A parameter name is what the document says or an identifier. -/
theorem Synthesis.parameterName_of_ofValue {v : Value} {s : Synthesis} (h : Synthesis.ofValue v = .ok s) :
    isIdentifier s.parameterName = true ∨
      ∃ part, v.part? [.key "parameter_name"] = some part ∧ part.readText = .ok s.parameterName := by
  obtain ⟨entries, rfl, h⟩ := Value.readObject_eq_ok h
  obtain ⟨f, marker, hf, -, rfl⟩ := Checked.seq_eq_ok h
  obtain ⟨g, name, hg, hname, rfl⟩ := Checked.seq_eq_ok hf
  obtain ⟨strict, -, rfl⟩ := Checked.map_eq_ok hg
  rcases Value.optional_eq_ok hname with ⟨-, rfl⟩ | ⟨part, hentry, hpart⟩
  · exact .inl Synthesis.isIdentifier_default
  · exact .inr ⟨part, by simp [Value.part?, hentry], hpart⟩

namespace Config

/-- The places of the settings in a document. -/
def places : List (List Step) := [
  [.key "language"],
  [.key "synthesis"], [.key "synthesis", .key "strict"], [.key "synthesis", .key "parameter_name"],
  [.key "synthesis", .key "marker"],
  [.key "output"], [.key "output", .key "indent"], [.key "output", .key "output_path"]]

theorem ofValue_locates (entries : List (Value × Value)) :
    (Value.map entries).Locates places (ofValue (.map entries)) := by
  have hlanguage := Value.locates_optional "language" none
    (Value.locates_readOption (Value.locates_readOneOf Language.ofName?)) entries
  have hsynthesis := Value.locates_optional "synthesis" {} Synthesis.ofValue_locates entries
  have houtput := Value.locates_optional "output" {} Output.ofValue_locates entries
  exact ((hlanguage.map _).seq hsynthesis).seq houtput

theorem parameterName_of_ofValue {v : Value} {c : Config} (h : ofValue v = .ok c) :
    isIdentifier c.synthesis.parameterName = true ∨ ∃ part,
      v.part? [.key "synthesis", .key "parameter_name"] = some part ∧
      part.readText = .ok c.synthesis.parameterName := by
  obtain ⟨entries, rfl, h⟩ := Value.readObject_eq_ok h
  obtain ⟨f, output, hf, -, rfl⟩ := Checked.seq_eq_ok h
  obtain ⟨g, synthesis, hg, hsynthesis, rfl⟩ := Checked.seq_eq_ok hf
  obtain ⟨language, -, rfl⟩ := Checked.map_eq_ok hg
  rcases Value.optional_eq_ok hsynthesis with ⟨-, rfl⟩ | ⟨whole, hentry, hwhole⟩
  · exact .inl Synthesis.isIdentifier_default
  · refine (Synthesis.parameterName_of_ofValue hwhole).imp_right fun ⟨part, hpart, hread⟩ => ⟨part, ?_, hread⟩
    simpa [Value.part?, hentry] using hpart

end Config

/-! ### Documents -/

/-- What a document, or its absence, must be like for a configuration error about it. -/
def ConfigError.Fits (document : Except Yaml.YamlError Value) : ConfigError → Prop
  | .malformed => document = .error .malformed
  | .empty => document = .ok .null
  | .notMapping => ∃ v, document = .ok v ∧ v ≠ .null ∧ ∀ entries, v ≠ .map entries
  | .invalid issues => ∃ v, document = .ok v ∧ issues ≠ [] ∧
      ∀ issue ∈ issues, issue.place ∈ Config.places ∧ (v.part? issue.place).isSome
  | .invalidParameterName name => isIdentifier name = false ∧ ∃ v part, document = .ok v ∧
      v.part? [.key "synthesis", .key "parameter_name"] = some part ∧ part.readText = .ok name
  | .rawParameterName points => ∃ v, document = .ok v ∧
      v.part? [.key "synthesis", .key "parameter_name"] = some (.rawText points)
  | .unsupportedLanguage _ | .fileMissing _ => False

namespace Config
variable {v : Value} {text : List Char}

theorem isText_iff : isText v = true ↔ ∃ key, v = .text key := by
  cases v <;> simp [isText]

theorem all_isText_iff {entries : List (Value × Value)} :
    (entries.all fun entry => isText entry.1) = true ↔ ∀ entry ∈ entries, ∃ key, entry.1 = .text key := by
  simp only [List.all_eq_true, isText_iff]

theorem ofDocument_eq_keyNotText_iff : ofDocument v = .error .keyNotText ↔
    ∃ entries, v = .map entries ∧ ∃ entry ∈ entries, ∀ key, entry.1 ≠ .text key := by
  cases v with
  | map entries =>
    simp only [Value.map.injEq, exists_eq_left']
    by_cases hkeys : (entries.all fun entry => isText entry.1) = true
    · simp only [ofDocument, if_pos hkeys]
      refine iff_of_false ?_ fun ⟨entry, hentry, hforeign⟩ => ?_
      · split
        · simp
        · split <;> simp
      · obtain ⟨key, hkey⟩ := all_isText_iff.mp hkeys entry hentry
        exact hforeign key hkey
    · refine iff_of_true (by rw [ofDocument, if_neg hkeys]) ?_
      simpa only [all_isText_iff, not_forall, not_exists, exists_prop] using hkeys
  | _ => simp [ofDocument]

theorem part?_eq_namedParameter? (entries : List (Value × Value)) :
    (Value.map entries).part? [.key "synthesis", .key "parameter_name"] = namedParameter? entries := by
  cases hentry : Value.entry? "synthesis" entries with
  | none => simp [Value.part?, namedParameter?, hentry]
  | some whole =>
    cases whole with
    | map parts => cases hpart : Value.entry? "parameter_name" parts <;> simp [Value.part?, namedParameter?, hentry, hpart]
    | _ => simp [Value.part?, namedParameter?, hentry]

/-- The error about a parameter name fits the document that gives it. -/
theorem parameterNameError_fits {entries : List (Value × Value)} {part : Value} {name : String}
    (hname : isIdentifier name = false) (hpart : namedParameter? entries = some part) (hread : part.readText = .ok name) :
    (parameterNameError entries name).Fits (.ok (.map entries)) := by
  rw [← part?_eq_namedParameter?] at hpart
  rw [parameterNameError, ← part?_eq_namedParameter?, hpart]
  cases part with
  | rawText points => exact ⟨.map entries, rfl, hpart⟩
  | _ => exact ⟨hname, .map entries, _, rfl, hpart, hread⟩

/-- What becomes of a document. -/
theorem ofDocument_cases (v : Value) :
    (∃ config, ofDocument v = .ok config ∧ isIdentifier config.synthesis.parameterName = true ∧
      ofValue v = .ok config) ∨
    (∃ e, ofDocument v = .error (.config e) ∧ e.Fits (.ok v)) ∨ ofDocument v = .error .keyNotText := by
  fun_cases ofDocument v with
  | case1 => exact .inr (.inl ⟨.empty, rfl, rfl⟩)
  | case2 entries hkeys issues hread =>
    have hlocates := ofValue_locates entries
    rw [hread] at hlocates
    exact .inr (.inl ⟨.invalid issues, rfl, .map entries, rfl, hlocates⟩)
  | case3 entries hkeys config hread hname => exact .inl ⟨config, rfl, hname, hread⟩
  | case4 entries hkeys config hread hname =>
    obtain ⟨part, hpart, htext⟩ := (parameterName_of_ofValue hread).resolve_left hname
    rw [part?_eq_namedParameter?] at hpart
    exact .inr (.inl ⟨_, rfl, parameterNameError_fits (by simpa using hname) hpart htext⟩)
  | case5 entries hkeys => exact .inr (.inr rfl)
  | case6 v hnull hmap => exact .inr (.inl ⟨.notMapping, rfl, v, rfl, hnull, hmap⟩)

theorem load_of_decode (path : Path) {bytes : List UInt8} (hdecode : decode bytes = .ok text) :
    load path (some bytes) = ofText (unifyBreaks text) := by
  simp only [load, ofBytes, hdecode, ofText]

/-- A scalar that is at fault is what the text it stands in is refused for. -/
theorem read_ne_fault {e : LoadError} (htext : ofText text = .error e) (he : ∀ f, e ≠ .fault f) :
    ∀ f, Yaml.read text ≠ .error (.fault f) := by
  intro f hf
  rw [ofText, hf] at htext
  exact he f (Except.error.inj htext).symm

-- Keys that are no text matter at the top only.
example : ofText "synthesis: \x7b1: x\x7d\n".toList = .ok {} := by decide +kernel

/-- A file with a text that is a document or no YAML at all gives the configuration that the document says, or a
    configuration error that fits the document, unless the document has a key that is no text. -/
theorem loading_fails_as_configuration_error (path : Path) {bytes : List UInt8} (hdecode : decode bytes = .ok text)
    (hread : ∀ f, Yaml.read (unifyBreaks text) ≠ .error (.fault f)) :
    ((∃ config, load path (some bytes) = .ok config ∧ isIdentifier config.synthesis.parameterName = true ∧
        ∃ v, Yaml.read (unifyBreaks text) = .ok v ∧ ofValue v = .ok config) ∨
      (∃ e, load path (some bytes) = .error (.config e) ∧ e.Fits (Yaml.read (unifyBreaks text))) ∨
      load path (some bytes) = .error .keyNotText) ∧
    (load path (some bytes) = .error .keyNotText ↔ ∃ entries, Yaml.read (unifyBreaks text) = .ok (.map entries) ∧
      ∃ entry ∈ entries, ∀ key, entry.1 ≠ .text key) := by
  rw [load_of_decode path hdecode, ofText]
  cases hdocument : Yaml.read (unifyBreaks text) with
  | ok v =>
    simp only [ofReading]
    refine ⟨?_, by simpa using ofDocument_eq_keyNotText_iff⟩
    obtain ⟨config, hof, hname, hvalue⟩ | herror := ofDocument_cases v
    · exact .inl ⟨config, hof, hname, v, rfl, hvalue⟩
    · exact .inr herror
  | error e =>
    cases e with
    | malformed => exact ⟨.inr (.inl ⟨.malformed, rfl, rfl⟩), by simp [ofReading]⟩
    | fault f => exact absurd hdocument (hread f)

/-- A file with two settings that cannot be read and keys that are not known. -/
def refusedFile : List Char := "language: cobol\r\nsynthesis: \x7b1: x, strict: 2\x7d\noutput:\n  path: a\n".toList

theorem loading_fails_as_configuration_error_refused :
    decode (encode refusedFile) = .ok refusedFile ∧
    (∀ f, Yaml.read (unifyBreaks refusedFile) ≠ .error (.fault f)) ∧
    ∃ v, Yaml.read (unifyBreaks refusedFile) = .ok v ∧
      load (.ofText "recordgen.yaml") (some (encode refusedFile)) = .error (.config (.invalid [
        ⟨[.key "language"], .notOffered⟩, ⟨[.key "synthesis", .key "strict"], .unreadableBool⟩])) ∧
      (v.part? [.key "language"]).isSome ∧ (v.part? [.key "synthesis", .key "strict"]).isSome := by
  have hdecode : decode (encode refusedFile) = .ok refusedFile := Text.Utf8.decode_encode _
  have htext : ofText (unifyBreaks refusedFile) = .error (.config (.invalid [
      ⟨[.key "language"], .notOffered⟩, ⟨[.key "synthesis", .key "strict"], .unreadableBool⟩])) := by
    decide +kernel
  have hread := read_ne_fault htext (by simp)
  have hload := (load_of_decode (.ofText "recordgen.yaml") hdecode).trans htext
  obtain ⟨⟨config, hok, -⟩ | ⟨e, he, hfits⟩ | hkey, -⟩ :=
    loading_fails_as_configuration_error (.ofText "recordgen.yaml") hdecode hread
  · exact absurd (hload.symm.trans hok) (by simp)
  · obtain rfl := LoadError.config.inj (Except.error.inj (hload.symm.trans he))
    obtain ⟨v, hv, -, hparts⟩ := hfits
    have hlanguage := (hparts _ List.mem_cons_self).2
    have hstrict := (hparts _ (List.mem_cons_of_mem _ List.mem_cons_self)).2
    exact ⟨hdecode, hread, v, hv, hload, hlanguage, hstrict⟩
  · exact absurd (hload.symm.trans hkey) (by simp)

/-- A file with a number for a key. -/
def numberKeyFile : List Char := "1: 2\n".toList

theorem loading_fails_at_number_key :
    decode (encode numberKeyFile) = .ok numberKeyFile ∧
    (∀ f, Yaml.read (unifyBreaks numberKeyFile) ≠ .error (.fault f)) ∧
    ¬ ((∃ config, load (.ofText "recordgen.yaml") (some (encode numberKeyFile)) = .ok config ∧
        isIdentifier config.synthesis.parameterName = true) ∨
      ∃ e, load (.ofText "recordgen.yaml") (some (encode numberKeyFile)) = .error (.config e)) := by
  have hdecode : decode (encode numberKeyFile) = .ok numberKeyFile := Text.Utf8.decode_encode _
  have htext : ofText (unifyBreaks numberKeyFile) = .error .keyNotText := by decide +kernel
  have hload := (load_of_decode (.ofText "recordgen.yaml") hdecode).trans htext
  exact ⟨hdecode, read_ne_fault htext (by simp), by simp [hload]⟩

end Config

end Recordsmith
