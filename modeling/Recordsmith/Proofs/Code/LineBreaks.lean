import Recordsmith.Proofs.Record.Consistency
import Recordsmith.Proofs.Text.Lines
import Recordsmith.Registry

/-!
Line breaks in generated members. Members are written with `\n`, so an `\r` in them can only come from the texts of the
declaration that they repeat: the names and the types of the fields, and in Java those of the declaration itself.
-/

namespace Recordsmith

/-! ### Strings with a return -/

namespace Code

/-- A string that holds an `\r`. -/
def HasReturn (s : String) : Prop := '\r' ∈ s.toList

instance : DecidablePred HasReturn := fun s => inferInstanceAs (Decidable ('\r' ∈ s.toList))

@[simp] theorem hasReturn_append {a b : String} : HasReturn (a ++ b) ↔ HasReturn a ∨ HasReturn b := by
  simp [HasReturn, String.toList_append]

theorem hasReturn_join {separator : String} (h : ¬HasReturn separator) {pieces : List String} :
    HasReturn (Text.join separator pieces) ↔ ∃ piece ∈ pieces, HasReturn piece := by
  have hseparator : separator.toList.filter (· == '\r') = [] := by
    rw [List.filter_eq_nil_iff]
    intro c hc heq
    obtain rfl := eq_of_beq heq
    exact h hc
  have hfilter := congrArg ('\r' ∈ ·) (Text.filter_joinWith hseparator (pieces.map String.toList))
  simpa [HasReturn, Text.toList_join, List.mem_filter] using hfilter

/-- Members are written alike: a head, the lines of the body and a closing brace. -/
theorem hasReturn_member (head : String) (lines : List String) :
    HasReturn (Text.join "\n" ([head] ++ lines ++ ["\x7d"])) ↔ HasReturn head ∨ ∃ line ∈ lines, HasReturn line := by
  have hbreak : ¬HasReturn "\n" := by decide
  have hbrace : ¬HasReturn "\x7d" := by decide
  rw [hasReturn_join hbreak]
  simp [hbrace]

/-- Assignments repeat the names of the parameters. -/
theorem exists_of_hasReturn_assignment {c : Constructor} (h : c.assignments = c.parameters.map (·.name))
    {f : String → String} (hf : ∀ name, HasReturn (f name) → HasReturn name) {line : String}
    (hline : line ∈ c.assignments.map f) (hreturn : HasReturn line) :
    ∃ p ∈ c.parameters, HasReturn p.name ∨ HasReturn p.type := by
  rw [h, List.map_map] at hline
  obtain ⟨p, hp, rfl⟩ := List.mem_map.mp hline
  exact ⟨p, hp, Or.inl (hf p.name hreturn)⟩

/-! ### Swift -/

namespace SwiftCode
variable {d : Declaration} {indent : String}

theorem not_hasReturn_keyword {word : Option String} (h : ∀ w ∈ word, ¬HasReturn w) : ¬HasReturn (keyword word) := by
  have hblank : ¬HasReturn " " := by decide
  cases word with
  | none => decide
  | some w =>
    simp only [keyword]
    split
    · decide
    · simp [h w rfl, hblank]

theorem hasReturn_constructor {c : Constructor} (hindent : ¬HasReturn indent)
    (haccess : ∀ w ∈ c.accessModifier, ¬HasReturn w) (hassignments : c.assignments = c.parameters.map (·.name)) :
    HasReturn (constructor c d indent) ↔ ∃ p ∈ c.parameters, HasReturn p.name ∨ HasReturn p.type := by
  have hlist : HasReturn (Text.join ", " (c.parameters.map fun p => p.name ++ ": " ++ p.type)) ↔
      ∃ p ∈ c.parameters, HasReturn p.name ∨ HasReturn p.type := by
    have hcolon : ¬HasReturn ": " := by decide
    rw [hasReturn_join (by decide)]
    simp [hcolon]
  have hrequired : ¬HasReturn (if c.required then "required " else "") := by split <;> decide
  have hinit : ¬HasReturn "init(" := by decide
  have hend : ¬HasReturn ") \x7b" := by decide
  have hself : ¬HasReturn "self." := by decide
  have hequals : ¬HasReturn " = " := by decide
  refine (hasReturn_member _ _).trans ⟨?_, fun h => Or.inl ?_⟩
  · rintro (h | ⟨line, hline, h⟩)
    · exact hlist.mp (by simpa [hrequired, not_hasReturn_keyword haccess, hinit, hend] using h)
    · refine exists_of_hasReturn_assignment hassignments (fun name hname => ?_) hline h
      simpa [hindent, hself, hequals] using hname
  · simp [hlist.mpr h]

theorem hasReturn_wither {w : Wither} (hindent : ¬HasReturn indent)
    (haccess : ∀ word ∈ w.accessModifier, ¬HasReturn word) (hparameter : ¬HasReturn w.parameter.name) :
    HasReturn (wither w d indent) ↔
      (HasReturn w.name ∨ HasReturn w.parameter.type) ∨ ∃ a ∈ w.arguments, HasReturn (argument a) := by
  have hfunc : ¬HasReturn "func " := by decide
  have hopen : ¬HasReturn "(_ " := by decide
  have hcolon : ¬HasReturn ": " := by decide
  have hend : ¬HasReturn ") -> Self \x7b" := by decide
  have hinit : ¬HasReturn "Self.init(" := by decide
  have hclose : ¬HasReturn ")" := by decide
  have hcomma : ¬HasReturn ", " := by decide
  refine (hasReturn_member _ [_]).trans (or_congr ?_ ?_)
  · simp [not_hasReturn_keyword haccess, hparameter, hfunc, hopen, hcolon, hend]
  · simp [hindent, hinit, hclose, hasReturn_join hcomma]

theorem hasReturn_argument {target parameterName field : String} (hparameter : ¬HasReturn parameterName)
    (h : HasReturn (argument (Argument.forField target parameterName field))) : HasReturn field := by
  have hcolon : ¬HasReturn ": " := by decide
  have hself : ¬HasReturn "self." := by decide
  unfold argument Argument.forField at h
  split at h
  · simpa [hcolon, hparameter] using h
  · split at h <;> simpa [hcolon, hself] using h

end SwiftCode

/-! ### Java -/

namespace JavaCode
variable {d : Declaration} {indent : String}

theorem not_hasReturn_keyword (word : Option String) : ¬HasReturn (keyword word) := by
  unfold keyword
  split <;> decide

theorem hasReturn_selfType : HasReturn (selfType d) ↔ HasReturn d.name ∨ ∃ p ∈ d.typeParameters, HasReturn p := by
  have hopen : ¬HasReturn "<" := by decide
  have hclose : ¬HasReturn ">" := by decide
  have hcomma : ¬HasReturn ", " := by decide
  unfold selfType
  split
  · rename_i hempty
    simp [List.isEmpty_iff.mp hempty]
  · simp [hopen, hclose, hasReturn_join hcomma]

theorem hasReturn_constructor {c : Constructor} (hindent : ¬HasReturn indent)
    (hassignments : c.assignments = c.parameters.map (·.name)) :
    HasReturn (constructor c d indent) ↔
      HasReturn d.name ∨ ∃ p ∈ c.parameters, HasReturn p.name ∨ HasReturn p.type := by
  have hlist : HasReturn (Text.join ", " (c.parameters.map fun p => p.type ++ " " ++ p.name)) ↔
      ∃ p ∈ c.parameters, HasReturn p.name ∨ HasReturn p.type := by
    have hblank : ¬HasReturn " " := by decide
    rw [hasReturn_join (by decide)]
    simp [hblank, or_comm]
  have hopen : ¬HasReturn "(" := by decide
  have hend : ¬HasReturn ") \x7b" := by decide
  have hthis : ¬HasReturn "this." := by decide
  have hequals : ¬HasReturn " = " := by decide
  have hstop : ¬HasReturn ";" := by decide
  refine (hasReturn_member _ _).trans ⟨?_, fun h => Or.inl ?_⟩
  · rintro (h | ⟨line, hline, h⟩)
    · simpa [not_hasReturn_keyword, hlist, hopen, hend] using h
    · refine Or.inr (exists_of_hasReturn_assignment hassignments (fun name hname => ?_) hline h)
      simpa [hindent, hthis, hequals, hstop] using hname
  · rcases h with h | h
    · simp [h]
    · simp [hlist.mpr h]

theorem hasReturn_wither {w : Wither} (hindent : ¬HasReturn indent) (hparameter : ¬HasReturn w.parameter.name) :
    HasReturn (wither w d indent) ↔
      (HasReturn (selfType d) ∨ HasReturn w.name ∨ HasReturn w.parameter.type) ∨
        HasReturn d.name ∨ ∃ a ∈ w.arguments, HasReturn (argument a) := by
  have hblank : ¬HasReturn " " := by decide
  have hopen : ¬HasReturn "(" := by decide
  have hend : ¬HasReturn ") \x7b" := by decide
  have hreturn : ¬HasReturn "return new " := by decide
  have hdiamond : ¬HasReturn (if d.typeParameters = [] then "" else "<>") := by split <;> decide
  have hclose : ¬HasReturn ");" := by decide
  have hcomma : ¬HasReturn ", " := by decide
  refine (hasReturn_member _ [_]).trans (or_congr ?_ ?_)
  · simp [not_hasReturn_keyword, hparameter, hblank, hopen, hend, or_assoc]
  · simp [hindent, hreturn, hdiamond, hopen, hclose, hasReturn_join hcomma]

theorem hasReturn_argument {target parameterName field : String} (hparameter : ¬HasReturn parameterName)
    (h : HasReturn (argument (Argument.forField target parameterName field))) : HasReturn field := by
  have hthis : ¬HasReturn "this." := by decide
  unfold argument Argument.forField at h
  split at h
  · exact absurd (by simpa using h) hparameter
  · split at h <;> simpa [hthis] using h

end JavaCode

end Code

/-! ### The members of a record -/

open Code (HasReturn)

namespace Declaration

/-- The texts of a record that its generated members repeat. Java members repeat the name of the record, and withers its
    type parameters. -/
def copies (language : Language) (d : Declaration) : List String :=
  (Field.parameters d.fields).map (·.name) ++ (Field.parameters d.fields).map (·.type) ++
    match language with
    | .swift => []
    | .java => d.name :: if d.fieldMembers.any (·.IsVisible) then d.typeParameters else []

variable {d : Declaration}

theorem exists_mem_copies_swift : (∃ s ∈ d.copies .swift, HasReturn s) ↔
    ∃ p ∈ Field.parameters d.fields, HasReturn p.name ∨ HasReturn p.type := by
  simp [copies, or_and_right, exists_or, and_or_left]

theorem exists_mem_copies_java : (∃ s ∈ d.copies .java, HasReturn s) ↔
    (HasReturn d.name ∨ ∃ p ∈ Field.parameters d.fields, HasReturn p.name ∨ HasReturn p.type) ∨
      (∃ m ∈ d.fieldMembers, m.IsVisible) ∧ ∃ p ∈ d.typeParameters, HasReturn p := by
  have hswift : (∃ s ∈ d.copies .java, HasReturn s) ↔ (∃ s ∈ d.copies .swift, HasReturn s) ∨ HasReturn d.name ∨
      ∃ s ∈ (if d.fieldMembers.any (·.IsVisible) then d.typeParameters else []), HasReturn s := by
    simp only [copies, List.append_nil, List.mem_append, List.mem_cons, or_and_right, exists_or, exists_eq_left]
  rw [hswift, exists_mem_copies_swift]
  by_cases hvisible : ∃ m ∈ d.fieldMembers, m.IsVisible
  · have hany : d.fieldMembers.any (·.IsVisible) = true := by simpa using hvisible
    rw [if_pos hany, and_iff_right hvisible, or_assoc, or_left_comm]
  · have hany : ¬d.fieldMembers.any (·.IsVisible) = true := by simpa using hvisible
    have hnone : ¬∃ s ∈ ([] : List String), HasReturn s := by simp
    have hunused : ¬((∃ m ∈ d.fieldMembers, m.IsVisible) ∧ ∃ p ∈ d.typeParameters, HasReturn p) := fun h => hvisible h.1
    rw [if_neg hany, or_iff_left hnone, or_iff_left hunused, or_comm]

theorem not_hasReturn_accessModifier : ∀ w ∈ d.accessModifier, ¬HasReturn w := by
  have hcopied : ∀ w ∈ copiedModifiers, ¬HasReturn w := by decide
  exact fun w hw => hcopied w (mem_copiedModifiers hw)

theorem exists_wither_iff (parameterName : String) :
    (∃ w, w ∈ Wither.ofFields d.fields d.accessModifier parameterName) ↔ ∃ m ∈ d.fieldMembers, m.IsVisible := by
  have hlength := congrArg List.length (d.withers_names d.accessModifier parameterName)
  rw [List.length_map, List.length_map] at hlength
  rw [← List.length_pos_iff_exists_mem, hlength, List.length_pos_iff_exists_mem]
  simp

end Declaration

/-- The members of a record hold an `\r` exactly when a text that they repeat does. -/
theorem LanguageKit.hasReturn_members {k : LanguageKit} (hk : k = .swift ∨ k = .java) {d : Declaration}
    {options : Synthesis} {members : List GeneratedMember} {indent : String} (hrecord : d.isRecord = true)
    (h : d.assemble options = .ok members) (hparameter : ¬HasReturn options.parameterName)
    (hindent : ¬HasReturn indent) :
    (∃ text ∈ k.renderer.members members d indent, HasReturn text) ↔ ∃ s ∈ d.copies k.language, HasReturn s := by
  have hmembers : (∃ text ∈ k.renderer.members members d indent, HasReturn text) ↔
      HasReturn (k.renderer.constructor (Constructor.ofFields d.fields d.accessModifier d.requiresConstructor) d indent) ∨
      ∃ w ∈ Wither.ofFields d.fields d.accessModifier options.parameterName,
        HasReturn (k.renderer.wither w d indent) := by
    rw [(Declaration.assemble_eq_ok hrecord h).2]
    simp [Code.Renderer.members, Code.Renderer.member]
  rw [hmembers]
  rcases hk with rfl | rfl
  · refine Iff.trans ?_ Declaration.exists_mem_copies_swift.symm
    have hconstructor := Code.SwiftCode.hasReturn_constructor (d := d)
      (c := Constructor.ofFields d.fields d.accessModifier d.requiresConstructor) hindent
      Declaration.not_hasReturn_accessModifier rfl
    refine ⟨?_, fun hp => Or.inl (hconstructor.mpr hp)⟩
    rintro (hc | ⟨w, hw, hreturn⟩)
    · exact hconstructor.mp hc
    · obtain ⟨p, hp, rfl⟩ := Wither.mem_ofFields hw
      rcases (Code.SwiftCode.hasReturn_wither (d := d) hindent Declaration.not_hasReturn_accessModifier hparameter).mp
        hreturn with hown | ⟨a, ha, hargument⟩
      · exact ⟨p, hp, hown⟩
      · obtain ⟨q, hq, rfl⟩ := List.mem_map.mp ha
        exact ⟨q, hq, Or.inl (Code.SwiftCode.hasReturn_argument hparameter hargument)⟩
  · refine Iff.trans ?_ Declaration.exists_mem_copies_java.symm
    have hconstructor := Code.JavaCode.hasReturn_constructor (d := d)
      (c := Constructor.ofFields d.fields d.accessModifier d.requiresConstructor) hindent rfl
    constructor
    · rintro (hc | ⟨w, hw, hreturn⟩)
      · exact Or.inl (hconstructor.mp hc)
      · have hvisible := (Declaration.exists_wither_iff _).mp ⟨w, hw⟩
        obtain ⟨p, hp, rfl⟩ := Wither.mem_ofFields hw
        rcases (Code.JavaCode.hasReturn_wither hindent hparameter).mp hreturn with
          (hself | hown) | hname | ⟨a, ha, hargument⟩
        · rcases Code.JavaCode.hasReturn_selfType.mp hself with hname | htypes
          · exact Or.inl (Or.inl hname)
          · exact Or.inr ⟨hvisible, htypes⟩
        · exact Or.inl (Or.inr ⟨p, hp, hown⟩)
        · exact Or.inl (Or.inl hname)
        · obtain ⟨q, hq, rfl⟩ := List.mem_map.mp ha
          exact Or.inl (Or.inr ⟨q, hq, Or.inl (Code.JavaCode.hasReturn_argument hparameter hargument)⟩)
    · rintro (hc | ⟨hvisible, htypes⟩)
      · exact Or.inl (hconstructor.mpr hc)
      · obtain ⟨w, hw⟩ := (Declaration.exists_wither_iff options.parameterName).mpr hvisible
        have hself := Code.JavaCode.hasReturn_selfType.mpr (Or.inr htypes)
        obtain ⟨p, -, hw'⟩ := Wither.mem_ofFields hw
        have hname : ¬HasReturn w.parameter.name := by
          rw [hw']
          exact hparameter
        exact Or.inr ⟨w, hw, (Code.JavaCode.hasReturn_wither hindent hname).mpr (Or.inl (Or.inl hself))⟩

end Recordsmith
