import Recordsmith.Proofs.Record.Consistency
import Recordsmith.Proofs.Text.Brackets
import Recordsmith.Proofs.Text.Lines
import Recordsmith.Registry

/-!
Brackets of generated members. Where the names of a record hold no brackets and the types of its fields are balanced, so
is every member that is written for it, in both languages.
-/

namespace Recordsmith

open Text (IsPlain Balanced)

/-! ### Brackets of a string -/

namespace Code

/-- The brackets of a string, in their order. -/
def brackets (s : String) : List Char := s.toList.filter Text.isBracket

@[simp] theorem brackets_append (a b : String) : brackets (a ++ b) = brackets a ++ brackets b := by
  simp [brackets, String.toList_append]

theorem brackets_eq_nil {s : String} (h : IsPlain s.toList) : brackets s = [] := h.filter_eq_nil

theorem balanced_brackets_iff {s : String} : Balanced (brackets s) ↔ Balanced s.toList := Text.balanced_filter_iff

theorem brackets_join {separator : String} (h : brackets separator = []) (pieces : List String) :
    brackets (Text.join separator pieces) = pieces.flatMap brackets := by
  rw [brackets, Text.toList_join, Text.filter_joinWith h, List.flatMap_map]
  rfl

theorem brackets_join_eq_nil {separator : String} (h : brackets separator = []) {pieces : List String}
    (hpieces : ∀ piece ∈ pieces, brackets piece = []) : brackets (Text.join separator pieces) = [] := by
  rw [brackets_join h, List.flatMap_eq_nil_iff]
  exact hpieces

/-- Members are written alike: the parameters in parentheses, then the lines of the body in braces. -/
theorem balanced_member {head : String} (inner : List Char) (lines : List String)
    (hhead : brackets head = '(' :: (inner ++ [')', '\x7b'])) (hinner : Balanced inner)
    (hlines : ∀ line ∈ lines, Balanced (brackets line)) :
    Balanced (brackets (Text.join "\n" ([head] ++ lines ++ ["\x7d"]))) := by
  have hbody := (Text.balanced_flatMap hlines).enclose (show Text.closer? '\x7b' = some '\x7d' from rfl)
  have hall := (hinner.enclose (show Text.closer? '(' = some ')' from rfl)).append hbody
  have hbrace : brackets "\x7d" = ['\x7d'] := by decide
  rw [brackets_join (by decide), List.flatMap_append, List.flatMap_append, List.flatMap_singleton,
    List.flatMap_singleton, hhead, hbrace]
  simpa using hall

/-! ### Swift -/

namespace SwiftCode
variable {d : Declaration} {indent : String}

theorem brackets_keyword {word : Option String} (h : ∀ w ∈ word, brackets w = []) : brackets (keyword word) = [] := by
  have hblank : brackets " " = [] := by decide
  cases word with
  | none => rfl
  | some w =>
    simp only [keyword]
    split
    · rfl
    · rw [brackets_append, h w rfl, hblank]
      rfl

theorem balanced_constructor {c : Constructor} (hindent : brackets indent = [])
    (haccess : ∀ w ∈ c.accessModifier, brackets w = [])
    (hparameters : ∀ p ∈ c.parameters, brackets p.name = [] ∧ Balanced (brackets p.type))
    (hassignments : ∀ name ∈ c.assignments, brackets name = []) : Balanced (brackets (constructor c d indent)) := by
  have hlist : Balanced (brackets (Text.join ", " (c.parameters.map fun p => p.name ++ ": " ++ p.type))) := by
    rw [brackets_join (by decide), List.flatMap_map]
    refine Text.balanced_flatMap fun p hp => ?_
    have hcolon : brackets ": " = [] := by decide
    simpa [(hparameters p hp).1, hcolon] using (hparameters p hp).2
  refine balanced_member _ _ ?_ hlist fun line hline => ?_
  · have hrequired : brackets (if c.required then "required " else "") = [] := by split <;> decide
    have hinit : brackets "init(" = ['('] := by decide
    have hend : brackets ") \x7b" = [')', '\x7b'] := by decide
    simp [hrequired, brackets_keyword haccess, hinit, hend]
  · obtain ⟨name, hname, rfl⟩ := List.mem_map.mp hline
    have hself : brackets "self." = [] := by decide
    have hequals : brackets " = " = [] := by decide
    simp [hindent, hassignments name hname, hself, hequals, Text.balanced_nil]

theorem brackets_argument {a : Argument} (hlabel : brackets a.label = []) (hexpression : brackets a.expression = []) :
    brackets (argument a) = [] := by
  have hcolon : brackets ": " = [] := by decide
  have hself : brackets "self." = [] := by decide
  unfold argument
  split <;> simp [hlabel, hexpression, hcolon, hself]

theorem balanced_wither {w : Wither} (hindent : brackets indent = [])
    (haccess : ∀ word ∈ w.accessModifier, brackets word = []) (hname : brackets w.name = [])
    (hparameter : brackets w.parameter.name = []) (htype : Balanced (brackets w.parameter.type))
    (harguments : ∀ a ∈ w.arguments, brackets a.label = [] ∧ brackets a.expression = []) :
    Balanced (brackets (wither w d indent)) := by
  have hcall : brackets (Text.join ", " (w.arguments.map argument)) = [] := by
    refine brackets_join_eq_nil (by decide) fun piece hpiece => ?_
    obtain ⟨a, ha, rfl⟩ := List.mem_map.mp hpiece
    exact brackets_argument (harguments a ha).1 (harguments a ha).2
  refine balanced_member (brackets w.parameter.type) [_] ?_ htype fun line hline => ?_
  · have hfunc : brackets "func " = [] := by decide
    have hopen : brackets "(_ " = ['('] := by decide
    have hcolon : brackets ": " = [] := by decide
    have hend : brackets ") -> Self \x7b" = [')', '\x7b'] := by decide
    simp [brackets_keyword haccess, hname, hparameter, hfunc, hopen, hcolon, hend]
  · rw [List.mem_singleton.mp hline]
    have hopen : brackets "Self.init(" = ['('] := by decide
    have hclose : brackets ")" = [')'] := by decide
    simp only [brackets_append, hindent, hopen, hcall, hclose]
    decide

end SwiftCode

/-! ### Java -/

namespace JavaCode
variable {d : Declaration} {indent : String}

theorem brackets_keyword (word : Option String) : brackets (keyword word) = [] := by
  unfold keyword
  split <;> decide

theorem brackets_selfType (hname : brackets d.name = []) (hparameters : ∀ p ∈ d.typeParameters, brackets p = []) :
    brackets (selfType d) = [] := by
  have hopen : brackets "<" = [] := by decide
  have hclose : brackets ">" = [] := by decide
  have hcomma : brackets ", " = [] := by decide
  unfold selfType
  split
  · exact hname
  · simp [hname, hopen, hclose, brackets_join_eq_nil hcomma hparameters]

theorem balanced_constructor {c : Constructor} (hname : brackets d.name = []) (hindent : brackets indent = [])
    (hparameters : ∀ p ∈ c.parameters, brackets p.name = [] ∧ Balanced (brackets p.type))
    (hassignments : ∀ name ∈ c.assignments, brackets name = []) : Balanced (brackets (constructor c d indent)) := by
  have hlist : Balanced (brackets (Text.join ", " (c.parameters.map fun p => p.type ++ " " ++ p.name))) := by
    rw [brackets_join (by decide), List.flatMap_map]
    refine Text.balanced_flatMap fun p hp => ?_
    have hblank : brackets " " = [] := by decide
    simpa [(hparameters p hp).1, hblank] using (hparameters p hp).2
  refine balanced_member _ _ ?_ hlist fun line hline => ?_
  · have hopen : brackets "(" = ['('] := by decide
    have hend : brackets ") \x7b" = [')', '\x7b'] := by decide
    simp [brackets_keyword, hname, hopen, hend]
  · obtain ⟨name, hmem, rfl⟩ := List.mem_map.mp hline
    have hthis : brackets "this." = [] := by decide
    have hequals : brackets " = " = [] := by decide
    have hend : brackets ";" = [] := by decide
    simp [hindent, hassignments name hmem, hthis, hequals, hend, Text.balanced_nil]

theorem brackets_argument {a : Argument} (h : brackets a.expression = []) : brackets (argument a) = [] := by
  have hthis : brackets "this." = [] := by decide
  unfold argument
  split <;> simp [h, hthis]

theorem balanced_wither {w : Wither} (hdeclared : brackets d.name = [])
    (hparameters : ∀ p ∈ d.typeParameters, brackets p = []) (hindent : brackets indent = [])
    (hname : brackets w.name = []) (hparameter : brackets w.parameter.name = [])
    (htype : Balanced (brackets w.parameter.type)) (harguments : ∀ a ∈ w.arguments, brackets a.expression = []) :
    Balanced (brackets (wither w d indent)) := by
  have hcall : brackets (Text.join ", " (w.arguments.map argument)) = [] := by
    refine brackets_join_eq_nil (by decide) fun piece hpiece => ?_
    obtain ⟨a, ha, rfl⟩ := List.mem_map.mp hpiece
    exact brackets_argument (harguments a ha)
  have hblank : brackets " " = [] := by decide
  refine balanced_member (brackets w.parameter.type) [_] ?_ htype fun line hline => ?_
  · have hopen : brackets "(" = ['('] := by decide
    have hend : brackets ") \x7b" = [')', '\x7b'] := by decide
    simp [brackets_keyword, brackets_selfType hdeclared hparameters, hname, hparameter, hblank, hopen, hend]
  · rw [List.mem_singleton.mp hline]
    have hreturn : brackets "return new " = [] := by decide
    have hdiamond : brackets (if d.typeParameters.isEmpty then "" else "<>") = [] := by split <;> decide
    have hopen : brackets "(" = ['('] := by decide
    have hclose : brackets ");" = [')'] := by decide
    simp only [brackets_append, hindent, hreturn, hdeclared, hdiamond, hopen, hcall, hclose]
    decide

end JavaCode

end Code

/-! ### The members of a record -/

/-- A declaration whose names hold no brackets and whose fields have balanced types. -/
structure Declaration.BracketsFit (d : Declaration) : Prop where
  name : IsPlain d.name.toList
  typeParameters : ∀ p ∈ d.typeParameters, IsPlain p.toList
  fieldNames : ∀ m ∈ d.fieldMembers, ∀ name ∈ m.name, IsPlain name.toList
  fieldTypes : ∀ m ∈ d.fieldMembers, ∀ type ∈ m.type, Balanced type.toList

instance {d : Declaration} : Decidable d.BracketsFit :=
  decidable_of_iff (IsPlain d.name.toList ∧ (∀ p ∈ d.typeParameters, IsPlain p.toList) ∧
      (∀ m ∈ d.fieldMembers, ∀ name ∈ m.name, IsPlain name.toList) ∧
      ∀ m ∈ d.fieldMembers, ∀ type ∈ m.type, Balanced type.toList)
    ⟨fun ⟨h1, h2, h3, h4⟩ => ⟨h1, h2, h3, h4⟩, fun ⟨h1, h2, h3, h4⟩ => ⟨h1, h2, h3, h4⟩⟩

namespace Declaration
variable {d : Declaration}

theorem BracketsFit.parameters (h : d.BracketsFit) : ∀ p ∈ Field.parameters d.fields,
    Code.brackets p.name = [] ∧ Balanced (Code.brackets p.type) := by
  intro p hp
  obtain ⟨m, hm, hname, htype⟩ := exists_fieldMember hp
  exact ⟨Code.brackets_eq_nil (h.fieldNames m hm _ hname), Code.balanced_brackets_iff.mpr (h.fieldTypes m hm _ htype)⟩

theorem brackets_accessModifier : ∀ w ∈ d.accessModifier, Code.brackets w = [] := by
  have hcopied : ∀ w ∈ copiedModifiers, Code.brackets w = [] := by decide
  exact fun w hw => hcopied w (mem_copiedModifiers hw)

theorem BracketsFit.arguments (h : d.BracketsFit) (target : String) {parameterName : String}
    (hparameter : Code.brackets parameterName = []) : ∀ a ∈ callArguments d.fields target parameterName,
    Code.brackets a.label = [] ∧ Code.brackets a.expression = [] := by
  intro a ha
  obtain ⟨p, hp, rfl⟩ := List.mem_map.mp ha
  have hname := (h.parameters p hp).1
  unfold Argument.forField
  split
  · exact ⟨hname, hparameter⟩
  · exact ⟨hname, hname⟩

end Declaration

/-- Every member that is generated for a record with fitting brackets is balanced. -/
theorem LanguageKit.balanced_members {k : LanguageKit} (hk : k = .swift ∨ k = .java) {d : Declaration}
    {options : Synthesis} {members : List GeneratedMember} {indent : String} (hfit : d.BracketsFit)
    (h : d.assemble options = .ok members) (hparameter : IsPlain options.parameterName.toList)
    (hindent : IsPlain indent.toList) : ∀ text ∈ k.renderer.members members d indent, Balanced text.toList := by
  intro text htext
  obtain ⟨m, hm, rfl⟩ := List.mem_map.mp htext
  by_cases hrecord : d.isRecord = true
  · have hname := Code.brackets_eq_nil hfit.name
    have htypes : ∀ p ∈ d.typeParameters, Code.brackets p = [] := fun p hp =>
      Code.brackets_eq_nil (hfit.typeParameters p hp)
    have hvalue := Code.brackets_eq_nil hparameter
    have hplain := Code.brackets_eq_nil hindent
    rw [← Code.balanced_brackets_iff]
    rw [(Declaration.assemble_eq_ok hrecord h).2] at hm
    rcases List.mem_cons.mp hm with rfl | hm
    · have hassigned : ∀ name ∈ (Field.parameters d.fields).map (·.name), Code.brackets name = [] := by
        intro name hmem
        obtain ⟨p, hp, rfl⟩ := List.mem_map.mp hmem
        exact (hfit.parameters p hp).1
      rcases hk with rfl | rfl
      · exact Code.SwiftCode.balanced_constructor (d := d) hplain Declaration.brackets_accessModifier hfit.parameters
          hassigned
      · exact Code.JavaCode.balanced_constructor hname hplain hfit.parameters hassigned
    · obtain ⟨w, hw, rfl⟩ := List.mem_map.mp hm
      obtain ⟨p, hp, rfl⟩ := Wither.mem_ofFields hw
      obtain ⟨hfield, htype⟩ := hfit.parameters p hp
      have harguments := hfit.arguments p.name hvalue
      rcases hk with rfl | rfl
      · exact Code.SwiftCode.balanced_wither (d := d) hplain Declaration.brackets_accessModifier hfield hvalue htype
          harguments
      · exact Code.JavaCode.balanced_wither hname htypes hplain hfield hvalue htype fun a ha => (harguments a ha).2
  · rw [Declaration.assemble, if_neg hrecord] at h
    obtain rfl := Except.ok.inj h
    cases hm

end Recordsmith
