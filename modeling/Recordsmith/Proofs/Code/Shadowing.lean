import Recordsmith.Proofs.Record.Meaning
import Recordsmith.Proofs.Tree.WellFormed
import Recordsmith.Registry

/-!
Which fields the parameter of a Swift wither hides. In Swift a name may stand between backticks, which do not belong to it,
so two spellings can denote one name. The fields that are read through the receiver are those spelled like the parameter;
a field that is spelled otherwise and denotes the same name is written without the receiver and read as the parameter.
-/

namespace Recordsmith

namespace Code.SwiftCode

/-! ### Spellings -/

def backtick : Char := '\x60'

/-- A name without the pair of backticks that it may stand in. -/
def bare (name : String) : String :=
  match name.toList with
  | [] => name
  | c :: rest => if c = backtick ∧ rest.getLast? = some backtick then String.ofList rest.dropLast else name

/-- A name between backticks. -/
def quoted (name : String) : String := "`" ++ name ++ "`"

/-- Another spelling of a name. -/
def Respells (n name : String) : Prop := n ≠ name ∧ bare n = bare name

instance (n name : String) : Decidable (Respells n name) := inferInstanceAs (Decidable (_ ∧ _))

theorem bare_quoted (name : String) : bare (quoted name) = name := by
  have hlist : (quoted name).toList = backtick :: (name.toList ++ [backtick]) := by
    simp [quoted, backtick, String.toList_append]
  simp [bare, hlist]

theorem bare_eq_or (name : String) : bare name = name ∨ name = quoted (bare name) := by
  unfold bare
  split
  · exact Or.inl rfl
  · rename_i c rest hlist
    split
    · rename_i hmarks
      right
      apply String.toList_injective
      rw [hlist, hmarks.1, ← List.dropLast_append_getLast? _ hmarks.2]
      simp [quoted, backtick, String.toList_append]
    · exact Or.inl rfl

theorem bare_of_not_mem {name : String} (h : backtick ∉ name.toList) : bare name = name := by
  refine (bare_eq_or name).resolve_right fun hname => h ?_
  rw [hname]
  simp [quoted, backtick, String.toList_append]

theorem quoted_ne (name : String) : quoted name ≠ name := by
  intro h
  have hlength := congrArg (fun s => s.toList.length) h
  simp [quoted, String.toList_append] at hlength
  omega

/-- A name without backticks has one more spelling. -/
theorem respells_iff_of_not_mem {n name : String} (h : backtick ∉ name.toList) : Respells n name ↔ n = quoted name := by
  unfold Respells
  rw [bare_of_not_mem h]
  constructor
  · rintro ⟨hne, hbare⟩
    rcases bare_eq_or n with hn | hn
    · exact absurd (hn.symm.trans hbare) hne
    · rw [hn, hbare]
  · rintro rfl
    exact ⟨quoted_ne name, bare_quoted name⟩

theorem backtick_not_mem_of_isIdentifier {name : String} (h : Text.isIdentifier name = true) : backtick ∉ name.toList := by
  have hextends : Text.extendsIdentifier backtick = false := by decide +kernel
  intro hmem
  unfold Text.isIdentifier at h
  split at h
  · cases h
  · rename_i c rest hlist
    rw [Bool.and_eq_true, List.all_eq_true] at h
    rw [hlist] at hmem
    rcases List.mem_cons.mp hmem with rfl | hmem
    · simp [Text.extendsIdentifier, h.1] at hextends
    · rw [h.2 _ hmem] at hextends
      cases hextends

/-! ### Arguments -/

/-- An argument for another field than the target that is written without the receiver though its name denotes the
    parameter. -/
def Captured (w : Wither) (a : Argument) : Prop :=
  a.label ≠ w.name ∧ argument a = a.label ++ ": " ++ a.expression ∧ bare a.expression = bare w.parameter.name

instance (w : Wither) (a : Argument) : Decidable (Captured w a) := inferInstanceAs (Decidable (_ ∧ _))

theorem argument_eq_iff {a : Argument} : argument a = a.label ++ ": " ++ a.expression ↔ a.viaReceiver = false := by
  unfold argument
  cases a.viaReceiver with
  | false => simp
  | true =>
    simp only [if_true, Bool.true_eq_false, iff_false]
    intro h
    have hlength := congrArg (fun s => s.toList.length) h
    simp only [String.toList_append, List.length_append] at hlength
    simp at hlength

theorem captured_forField_iff {w : Wither} {n : String} :
    Captured w (Argument.forField w.name w.parameter.name n) ↔ n ≠ w.name ∧ Respells n w.parameter.name := by
  unfold Captured
  rw [argument_eq_iff, Argument.forField_label, ← Bool.not_eq_true, Argument.forField_viaReceiver]
  refine and_congr_right fun htarget => ?_
  have hexpression : (Argument.forField w.name w.parameter.name n).expression = n := by
    unfold Argument.forField
    rw [if_neg htarget]
  rw [hexpression, not_and, Respells]
  exact and_congr_left' ⟨fun h => h htarget, fun h _ => h⟩

/-- An argument as it is understood, without backticks. -/
def understood (a : Argument) : Argument := { a with label := bare a.label, expression := bare a.expression }

/-- A captured argument passes the new value, as the target's does; every other passes what its field holds. -/
theorem eval_understood {V : Type} (w : Wither) (n : String) (receiver : RecordValue V) (value : V) :
    (understood (Argument.forField w.name w.parameter.name n)).eval (bare w.parameter.name) receiver value =
      if n = w.name ∨ Captured w (Argument.forField w.name w.parameter.name n) then value else receiver (bare n) := by
  simp only [captured_forField_iff]
  unfold understood Argument.eval Argument.forField Respells
  by_cases htarget : n = w.name
  · simp [htarget]
  · by_cases hsame : n = w.parameter.name
    · subst hsame
      simp [htarget]
    · simp [htarget, hsame]

end Code.SwiftCode

/-! ### Withers of a record -/

namespace Declaration
variable {d : Declaration} {options : Synthesis} {members : List GeneratedMember} {w : Wither}

theorem isRecord_of_mem_assemble (h : d.assemble options = .ok members) {m : GeneratedMember} (hm : m ∈ members) :
    d.isRecord = true := by
  by_contra hd
  rw [assemble, if_neg hd] at h
  cases h
  cases hm

theorem wither_mem_iff (hd : d.isRecord = true) (h : d.assemble options = .ok members) :
    .wither w ∈ members ↔ w ∈ Wither.ofFields d.fields d.accessModifier options.parameterName := by
  simp [(assemble_eq_ok hd h).2]

/-- The withers of an assembled record, by the fields that they are named for. -/
theorem exists_wither_named_iff (hd : d.isRecord = true) (h : d.assemble options = .ok members) {target : String} :
    (∃ w, .wither w ∈ members ∧ w.name = target) ↔ ∃ m ∈ d.fieldMembers, m.IsVisible ∧ m.name = some target := by
  have hmem : some target ∈ (Wither.ofFields d.fields d.accessModifier options.parameterName).map (fun w => some w.name) ↔
      some target ∈ (d.fieldMembers.filter (·.IsVisible)).map (·.name) := by rw [withers_names]
  simpa [wither_mem_iff hd h, and_assoc] using hmem

/-- The parameter of a wither and its arguments, one for each field of the record. -/
theorem wither_call_eq (h : d.assemble options = .ok members) (hw : .wither w ∈ members) :
    w.parameter.name = options.parameterName ∧
      w.arguments = (Field.names d.fields).map (Argument.forField w.name w.parameter.name) := by
  obtain ⟨p, -, rfl⟩ := Wither.mem_ofFields ((wither_mem_iff (isRecord_of_mem_assemble h hw) h).mp hw)
  exact ⟨rfl, callArguments_eq ..⟩

end Declaration

namespace Code.SwiftCode
variable {d : Declaration} {options : Synthesis} {members : List GeneratedMember}

/-- A record has a captured argument exactly when one of its fields respells the parameter's name and another one has a
    wither. -/
theorem exists_captured_iff (h : d.assemble options = .ok members) :
    (∃ w a, .wither w ∈ members ∧ a ∈ w.arguments ∧ Captured w a) ↔
      d.isRecord = true ∧ ∃ target ∈ d.fieldMembers, target.IsVisible ∧ ∃ other ∈ d.fieldMembers,
        other.name ≠ target.name ∧ ∃ n, other.name = some n ∧ Respells n options.parameterName := by
  constructor
  · rintro ⟨w, a, hw, ha, hcaptured⟩
    have hd := Declaration.isRecord_of_mem_assemble h hw
    obtain ⟨hparameter, harguments⟩ := Declaration.wither_call_eq h hw
    obtain ⟨n, hn, rfl⟩ := List.mem_map.mp (harguments ▸ ha)
    obtain ⟨hother, hrespells⟩ := captured_forField_iff.mp hcaptured
    obtain ⟨target, htarget, hvisible, htargetName⟩ := (Declaration.exists_wither_named_iff hd h).mp ⟨w, hw, rfl⟩
    obtain ⟨other, hmem, hfield, hname⟩ := Declaration.mem_names_iff.mp hn
    refine ⟨hd, target, htarget, hvisible, other, List.mem_filter.mpr ⟨hmem, decide_eq_true hfield⟩, ?_, n, hname,
      hparameter ▸ hrespells⟩
    rw [hname, htargetName]
    exact fun heq => hother (Option.some.inj heq)
  · rintro ⟨hd, target, htarget, hvisible, other, hother, hne, n, hname, hrespells⟩
    obtain ⟨-, hfield⟩ := List.mem_filter.mp htarget
    obtain ⟨p, -, htargetName, -⟩ := (of_decide_eq_true hfield : target.IsField).parameter?
    obtain ⟨w, hw, hwname⟩ := (Declaration.exists_wither_named_iff hd h).mpr ⟨target, htarget, hvisible, htargetName⟩
    obtain ⟨hparameter, harguments⟩ := Declaration.wither_call_eq h hw
    obtain ⟨hmem, hotherField⟩ := List.mem_filter.mp hother
    have hn : n ∈ Field.names d.fields := Declaration.mem_names_of_isField hmem (of_decide_eq_true hotherField) hname
    refine ⟨w, _, hw, harguments ▸ List.mem_map_of_mem hn, captured_forField_iff.mpr ⟨?_, hparameter ▸ hrespells⟩⟩
    rintro rfl
    exact hne (by rw [hname, htargetName, hwname])

/-- An identifier is respelled by one name only. -/
theorem exists_captured_iff_quoted (h : d.assemble options = .ok members)
    (hidentifier : Text.isIdentifier options.parameterName = true) :
    (∃ w a, .wither w ∈ members ∧ a ∈ w.arguments ∧ Captured w a) ↔
      d.isRecord = true ∧ (∃ other ∈ d.fieldMembers, other.name = some (quoted options.parameterName)) ∧
        ∃ target ∈ d.fieldMembers, target.IsVisible ∧ target.name ≠ some (quoted options.parameterName) := by
  have hrespells {n : String} := respells_iff_of_not_mem (n := n) (backtick_not_mem_of_isIdentifier hidentifier)
  rw [exists_captured_iff h]
  refine and_congr_right fun _ => ⟨?_, ?_⟩
  · rintro ⟨target, htarget, hvisible, other, hother, hne, n, hname, hn⟩
    obtain rfl := hrespells.mp hn
    exact ⟨⟨other, hother, hname⟩, target, htarget, hvisible, fun heq => hne (hname.trans heq.symm)⟩
  · rintro ⟨⟨other, hother, hname⟩, target, htarget, hvisible, hne⟩
    exact ⟨target, htarget, hvisible, other, hother, fun heq => hne (heq.symm.trans hname), _, hname, hrespells.mpr rfl⟩

end Code.SwiftCode

open Code.SwiftCode in
/-- The arguments of a Swift wither that the parameter captures are those of the other fields that respell its name, and
    they pass the new value in place of what the field holds. A record has one exactly when a field respells the
    parameter's name and another field has a wither; an identifier is respelled between backticks only. -/
theorem parameter_captures_respelled_fields {d : Declaration} {options : Synthesis} {members : List GeneratedMember}
    (h : d.assemble options = .ok members) :
    (∀ w, .wither w ∈ members →
      (∀ indent, ∃ head, LanguageKit.swift.renderer.wither w d indent =
        head ++ "Self.init(" ++ Text.join ", " (w.arguments.map argument) ++ ")\n\x7d") ∧
      ∀ a ∈ w.arguments,
        (Captured w a ↔ a.label ≠ w.name ∧ Respells a.label options.parameterName) ∧
        ∀ (V : Type) (receiver : RecordValue V) (value : V),
          (understood a).eval (bare options.parameterName) receiver value =
            if a.label = w.name ∨ Captured w a then value else receiver (bare a.label)) ∧
    ((∃ w a, .wither w ∈ members ∧ a ∈ w.arguments ∧ Captured w a) ↔
      d.isRecord = true ∧ ∃ target ∈ d.fieldMembers, target.IsVisible ∧ ∃ other ∈ d.fieldMembers,
        other.name ≠ target.name ∧ ∃ n, other.name = some n ∧ Respells n options.parameterName) ∧
    (Text.isIdentifier options.parameterName = true →
      ((∃ w a, .wither w ∈ members ∧ a ∈ w.arguments ∧ Captured w a) ↔
        d.isRecord = true ∧ (∃ other ∈ d.fieldMembers, other.name = some (quoted options.parameterName)) ∧
          ∃ target ∈ d.fieldMembers, target.IsVisible ∧ target.name ≠ some (quoted options.parameterName))) := by
  refine ⟨fun w hw => ⟨fun indent => ?_, fun a ha => ?_⟩, exists_captured_iff h, exists_captured_iff_quoted h⟩
  · refine ⟨keyword w.accessModifier ++ "func " ++ w.name ++ "(_ " ++ w.parameter.name ++ ": " ++ w.parameter.type ++
      ") -> Self \x7b\n" ++ indent, ?_⟩
    apply String.toList_injective
    simp [LanguageKit.swift, renderer, wither, Text.join, String.toList_append]
  · obtain ⟨hparameter, harguments⟩ := Declaration.wither_call_eq h hw
    obtain ⟨n, -, rfl⟩ := List.mem_map.mp (harguments ▸ ha)
    rw [Argument.forField_label, ← hparameter]
    exact ⟨captured_forField_iff, fun V receiver value => eval_understood w n receiver value⟩

open Code.SwiftCode in
/-- In the mixed class the field `value` is spelled like the parameter, so nothing is captured. -/
theorem parameter_captures_respelled_fields_mixed :
    ∃ members, Declaration.mixed.assemble {} = .ok members ∧ (∃ w, .wither w ∈ members ∧ w.name = "owner") ∧
      ¬∃ w a, .wither w ∈ members ∧ a ∈ w.arguments ∧ Captured w a := by
  have h : Declaration.mixed.assemble {} = .ok _ := rfl
  refine ⟨_, h, (Declaration.exists_wither_named_iff rfl h).mpr (by decide), fun hcaptured => ?_⟩
  obtain ⟨-, hquoted, -⟩ := ((parameter_captures_respelled_fields h).2.2 (by decide +kernel)).mp hcaptured
  exact absurd hquoted (by decide)

namespace Sample
open Recordsmith.Tree

def quotedSource : List Char :=
  "@Buildable\nstruct P \x7b\n    var `value`: Int\n    var other: Int\n\x7d\n".toList

def quotedProperty (start nameStop : Nat) : Node :=
  ⟨"property_declaration", start, nameStop + 5, true, none, [
    ⟨"value_binding_pattern", start, start + 3, true, none, [⟨"var", start, start + 3, false, some "mutability", []⟩]⟩,
    ⟨"pattern", start + 4, nameStop, true, some "name", [
      ⟨"simple_identifier", start + 4, nameStop, true, some "bound_identifier", []⟩]⟩,
    ⟨"type_annotation", nameStop, nameStop + 5, true, none, [
      ⟨":", nameStop, nameStop + 1, false, none, []⟩, ⟨"user_type", nameStop + 2, nameStop + 5, true, some "name", []⟩]⟩]⟩

def quotedNode : Node :=
  ⟨"class_declaration", 0, 63, true, none, [
    ⟨"modifiers", 0, 10, true, none, [⟨"attribute", 0, 10, true, none, [
      ⟨"@", 0, 1, false, none, []⟩, ⟨"user_type", 1, 10, true, none, []⟩]⟩]⟩,
    ⟨"struct", 11, 17, false, some "declaration_kind", []⟩, ⟨"type_identifier", 18, 19, true, some "name", []⟩,
    ⟨"class_body", 20, 63, true, some "body", [
      ⟨"\x7b", 20, 21, false, none, []⟩, quotedProperty 26 37, quotedProperty 47 56,
      ⟨"\x7d", 62, 63, false, none, []⟩]⟩]⟩

def quotedTree : SourceTree := ⟨⟨"source_file", 0, 64, true, none, [quotedNode]⟩, false⟩

/-- What the tree declares: the backticks belong to the name that is read. -/
def quotedDeclaration : Declaration where
  name := "P"
  kind := .value
  members := [{ name := some "`value`", type := some "Int", isMutable := true },
    { name := some "other", type := some "Int", isMutable := true }]
  span := some { start := 0, stop := 63, bodyClose := 62, markerStart := some 0, markerEnd := some 11 }

/-- What the wither of `other` passes for the field between backticks. -/
def quotedArgument : Argument := { label := "`value`", expression := "`value`" }

def quotedWither : Wither where
  name := "other"
  parameter := ⟨"value", "Int"⟩
  arguments := [quotedArgument, { label := "other", expression := "value", fromParameter := true }]

end Sample

open Sample Code.SwiftCode in
/-- A field between backticks shares the parameter's name unnoticed: the wither of `other` passes the new value for both
    fields. -/
theorem quoted_field_is_captured :
    LanguageKit.swift.dialect.WellFormed quotedSource quotedTree.root ∧
      LanguageKit.swift.dialect.declaration? quotedSource (Text.Utf8.encode quotedSource) "Buildable" quotedNode =
        .ok (some quotedDeclaration) ∧
      (∃ members, quotedDeclaration.assemble {} = .ok members ∧ .wither quotedWither ∈ members) ∧
      quotedArgument ∈ quotedWither.arguments ∧ Captured quotedWither quotedArgument ∧
      LanguageKit.swift.renderer.wither quotedWither quotedDeclaration "    " =
        "func other(_ value: Int) -> Self \x7b\n    Self.init(`value`: `value`, other: value)\n\x7d" :=
  ⟨by decide +kernel, Tree.eq_ok_of_toOption (by decide +kernel), ⟨_, rfl, by decide⟩, by decide, by decide +kernel,
    by decide +kernel⟩

end Recordsmith
