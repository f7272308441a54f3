import Recordsmith.Config.Basic
import Recordsmith.Proofs.Path.NormalForm
import Recordsmith.Proofs.Value.Issues
import Recordsmith.Proofs.Value.Restoring

/-!
Models read again from their written form. A model without paths is read back from what it is written as, whatever it is.
A configuration holds a path, and reading brings it into normal form; so what has been read once, with its defaults and
conversions, stays as it is.
-/

namespace Recordsmith
open Value
open Text (CodePoint)

/-! ### Readers of options and paths -/

namespace Value
variable {α : Type} {v : Value} {read : Value → Checked α}

theorem readOption_eq_ok {o : Option α} (h : readOption read v = .ok o) : ∀ a ∈ o, read v = .ok a := by
  intro a ha
  obtain rfl := Option.mem_def.mp ha
  cases v with
  | null => cases h
  | _ =>
    obtain ⟨b, hread, hb⟩ := Checked.map_eq_ok h
    rw [hread, Option.some.inj hb]

theorem isNormal_of_readPath {p : Path} (h : readPath v = .ok p) : p.IsNormal := by
  cases v with
  | text s =>
    obtain rfl : Path.ofText s = p := Checked.ok.inj h
    exact Path.isNormal_ofText s
  | rawText points =>
    obtain rfl := Checked.ok.inj h
    exact Path.isNormal_ofText _
  | _ => cases h

theorem readRaw_eq_some {points : List CodePoint} (h : readRaw v = .ok (some points)) : v = .rawText points := by
  cases v with
  | rawText found =>
    obtain rfl := Option.some.inj (Checked.ok.inj h)
    rfl
  | _ => cases Checked.ok.inj h

/-- A part with surrogates is read from them. -/
theorem read_of_readRaw {entries : List (Value × Value)} {name : String} {points : List CodePoint} {o : Option α}
    (hraw : optional name readRaw none entries = .ok (some points))
    (h : optional name (readOption read) none entries = .ok o) : (read (.rawText points)).map some = .ok o := by
  rcases optional_eq_ok hraw with ⟨-, hnone⟩ | ⟨part, hentry, hpart⟩
  · cases hnone
  obtain rfl := readRaw_eq_some hpart
  rcases optional_eq_ok h with ⟨hnone, -⟩ | ⟨part, hentry', hread⟩
  · cases hnone.symm.trans hentry
  · obtain rfl := Option.some.inj (hentry.symm.trans hentry')
    exact hread

theorem readRaw_ofRaw (raw : Option (List CodePoint)) (text : Option String) : readRaw (ofRaw raw text) = .ok raw := by
  cases raw with
  | some points => rfl
  | none => cases text <;> rfl

end Value

/-! ### Declarations -/

theorem Span.ofValue_toValue (s : Span) : Span.ofValue s.toValue = .ok s := by
  simp [Span.ofValue, Span.toValue, Value.required, Value.optional]

theorem Member.ofValue_toValue (m : Member) : Member.ofValue m.toValue = .ok m := by
  have hkind : readOneOf MemberKind.ofText? (.text m.kind.text) = .ok m.kind :=
    readOneOf_text (by cases m.kind <;> decide)
  simp [Member.ofValue, Member.toValue, Value.optional, hkind]

theorem Declaration.ofValue_toValue (d : Declaration) : Declaration.ofValue d.toValue = .ok d := by
  have hkind : readOneOf AggregateKind.ofText? (.text d.kind.text) = .ok d.kind :=
    readOneOf_text (by cases d.kind <;> decide)
  have hmembers : readList Member.ofValue (.list (d.members.map Member.toValue)) = .ok d.members :=
    readList_map fun m _ => m.ofValue_toValue
  have hspan : readOption Span.ofValue (ofOption Span.toValue d.span) = .ok d.span :=
    readOption_ofOption fun s _ => ⟨nofun, s.ofValue_toValue⟩
  simp [Declaration.ofValue, Declaration.toValue, Value.required, Value.optional, hkind, hmembers, hspan]

/-! ### Fields and generated members -/

theorem Field.ofValue_toValue (f : Field) : Field.ofValue f.toValue = .ok f := by
  simp [Field.ofValue, Field.toValue, Value.required, Value.optional]

theorem Parameter.ofValue_toValue (p : Parameter) : Parameter.ofValue p.toValue = .ok p := by
  simp [Parameter.ofValue, Parameter.toValue, Value.required]

theorem Argument.ofValue_toValue (a : Argument) : Argument.ofValue a.toValue = .ok a := by
  simp [Argument.ofValue, Argument.toValue, Value.required, Value.optional]

theorem Constructor.ofValue_toValue (c : Constructor) : Constructor.ofValue c.toValue = .ok c := by
  have hparameters : readList Parameter.ofValue (.list (c.parameters.map Parameter.toValue)) = .ok c.parameters :=
    readList_map fun p _ => p.ofValue_toValue
  simp [Constructor.ofValue, Constructor.toValue, Constructor.parts, Value.optional, hparameters]

theorem Wither.ofValue_toValue (w : Wither) : Wither.ofValue w.toValue = .ok w := by
  have harguments : readList Argument.ofValue (.list (w.arguments.map Argument.toValue)) = .ok w.arguments :=
    readList_map fun a _ => a.ofValue_toValue
  simp [Wither.ofValue, Wither.toValue, Wither.parts, Value.required, Value.optional, w.parameter.ofValue_toValue,
    harguments]

/-! ### Configurations -/

theorem Synthesis.ofValue_toValue (s : Synthesis) : Synthesis.ofValue s.toValue = .ok s := by
  have hmarker : readMarker (.text s.marker) = .ok s.marker := rfl
  simp [Synthesis.ofValue, Synthesis.toValue, Value.optional, hmarker]

namespace Output
variable {o : Output} {v : Value}

/-- A path in normal form, and stand-ins where there are surrogates. -/
structure IsNormal (o : Output) : Prop where
  path : ∀ p ∈ o.path, p.IsNormal
  rawIndent : ∀ points ∈ o.rawIndent, o.indent = some (CodePoint.withStandIn CodePoint.standIn points)
  rawPath : ∀ points ∈ o.rawPath, o.path = some (.ofText (CodePoint.withStandIn CodePoint.standIn points))

theorem readText_indent (h : o.IsNormal) : readOption readText (ofRaw o.rawIndent o.indent) = .ok o.indent := by
  cases hraw : o.rawIndent with
  | none => exact readOption_ofOption fun text _ => ⟨nofun, rfl⟩
  | some points =>
    rw [h.rawIndent points hraw]
    rfl

theorem readPath_path (h : o.IsNormal) : readOption readPath (ofRaw o.rawPath (o.path.map Path.text)) = .ok o.path := by
  cases hraw : o.rawPath with
  | none =>
    cases hpath : o.path with
    | none => rfl
    | some p => exact congrArg (fun p => Checked.ok (some p)) (Path.ofText_text (h.path p hpath))
  | some points =>
    rw [h.rawPath points hraw]
    rfl

theorem ofValue_toValue (h : o.IsNormal) : Output.ofValue o.toValue = .ok o := by
  simp [Output.ofValue, Output.toValue, Value.optional, readText_indent h, readPath_path h, readRaw_ofRaw]

theorem isNormal_of_ofValue (h : Output.ofValue v = .ok o) : o.IsNormal := by
  obtain ⟨entries, rfl, h⟩ := readObject_eq_ok h
  obtain ⟨f, rawPath, hf, hrawPath, rfl⟩ := Checked.seq_eq_ok h
  obtain ⟨g, rawIndent, hg, hrawIndent, rfl⟩ := Checked.seq_eq_ok hf
  obtain ⟨k, path, hk, hpath, rfl⟩ := Checked.seq_eq_ok hg
  obtain ⟨indent, hindent, rfl⟩ := Checked.map_eq_ok hk
  refine ⟨fun p hp => ?_, fun points hpoints => ?_, fun points hpoints => ?_⟩
  · rcases optional_eq_ok hpath with ⟨-, rfl⟩ | ⟨part, -, hpart⟩
    · cases hp
    · exact isNormal_of_readPath (readOption_eq_ok hpart p hp)
  · obtain rfl := Option.mem_def.mp hpoints
    exact (Checked.ok.inj (read_of_readRaw hrawIndent hindent)).symm
  · obtain rfl := Option.mem_def.mp hpoints
    exact (Checked.ok.inj (read_of_readRaw hrawPath hpath)).symm

theorem settles : Settles IsNormal Output.ofValue Output.toValue :=
  ⟨fun _ _ h => ofValue_toValue (isNormal_of_ofValue h), fun _ h => ofValue_toValue h⟩

end Output

namespace Config
variable {c : Config} {v : Value}

def IsNormal (c : Config) : Prop := c.output.IsNormal

theorem ofValue_toValue (h : c.IsNormal) : Config.ofValue c.toValue = .ok c := by
  have hlanguage : readOption (readOneOf Language.ofName?) (ofOption Language.toValue c.language) = .ok c.language :=
    readOption_ofOption fun l _ => ⟨nofun, readOneOf_text (Language.ofName?_name l)⟩
  simp [Config.ofValue, Config.toValue, Value.optional, hlanguage, c.synthesis.ofValue_toValue,
    Output.ofValue_toValue h]

theorem isNormal_of_ofValue (h : Config.ofValue v = .ok c) : c.IsNormal := by
  obtain ⟨entries, rfl, h⟩ := readObject_eq_ok h
  obtain ⟨f, output, hf, houtput, rfl⟩ := Checked.seq_eq_ok h
  obtain ⟨g, synthesis, hg, -, rfl⟩ := Checked.seq_eq_ok hf
  obtain ⟨language, -, rfl⟩ := Checked.map_eq_ok hg
  rcases optional_eq_ok houtput with ⟨-, rfl⟩ | ⟨part, -, hpart⟩
  · exact ⟨nofun, nofun, nofun⟩
  · exact Output.isNormal_of_ofValue hpart

theorem settles : Settles IsNormal Config.ofValue Config.toValue :=
  ⟨fun _ _ h => ofValue_toValue (isNormal_of_ofValue h), fun _ h => ofValue_toValue h⟩

end Config

/-! ### All models -/

/-- Every model that is read from a value is read again, the same, from its written form. -/
theorem models_settle_when_read :
    Settles (fun _ => True) Span.ofValue Span.toValue ∧
    Settles (fun _ => True) Member.ofValue Member.toValue ∧
    Settles (fun _ => True) Declaration.ofValue Declaration.toValue ∧
    Settles (fun _ => True) Field.ofValue Field.toValue ∧
    Settles (fun _ => True) Parameter.ofValue Parameter.toValue ∧
    Settles (fun _ => True) Argument.ofValue Argument.toValue ∧
    Settles (fun _ => True) Constructor.ofValue Constructor.toValue ∧
    Settles (fun _ => True) Wither.ofValue Wither.toValue ∧
    Settles (fun _ => True) Synthesis.ofValue Synthesis.toValue ∧
    Settles Output.IsNormal Output.ofValue Output.toValue ∧
    Settles Config.IsNormal Config.ofValue Config.toValue :=
  ⟨.of_written Span.ofValue_toValue, .of_written Member.ofValue_toValue, .of_written Declaration.ofValue_toValue,
    .of_written Field.ofValue_toValue, .of_written Parameter.ofValue_toValue, .of_written Argument.ofValue_toValue,
    .of_written Constructor.ofValue_toValue, .of_written Wither.ofValue_toValue,
    .of_written Synthesis.ofValue_toValue, Output.settles, Config.settles⟩

/-- A document with a truth value in words, keys that mean nothing and a path that is not in normal form. -/
def laxDocument : Value := .object [
  ("version", .decimal 15 1), ("language", .text "java"), ("synthesis", .object [("strict", .text "YES"), ("mode", .null)]),
  ("output", .object [("output_path", .text "out//./a/")])]

/-- What the document says. -/
def laxConfig : Config where
  language := some .java
  synthesis := { strict := true }
  output := { path := some (.ofText "out/a") }

theorem models_settle_when_read_lax :
    Config.ofValue laxDocument = .ok laxConfig ∧ laxConfig.IsNormal ∧ Config.ofValue laxConfig.toValue = .ok laxConfig := by
  have hlanguage : readOneOf Language.ofName? (.text "java") = .ok .java := readOneOf_text (by decide)
  have hstrict : readBool (.text "YES") = .ok true := if_pos (by decide +kernel)
  have hpath : readPath (.text "out//./a/") = .ok (.ofText "out/a") := congrArg Checked.ok (by decide)
  have hraw : readRaw (.text "out//./a/") = .ok none := rfl
  have hread : Config.ofValue laxDocument = .ok laxConfig := by
    simp [laxDocument, laxConfig, Config.ofValue, Synthesis.ofValue, Output.ofValue, Value.optional, entry?, readOption,
      Checked.map, hlanguage, hstrict, hpath, hraw]
  obtain ⟨-, -, -, -, -, -, -, -, -, -, hconfig⟩ := models_settle_when_read
  exact ⟨hread, Config.isNormal_of_ofValue hread, hconfig.again _ _ hread⟩

end Recordsmith
