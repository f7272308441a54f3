import Recordsmith.Proofs.Record.Faults

/-!
What generation depends on. Outside of strict mode the members of a record are made from the name, the type and the
privacy of each of its fields, and from nothing else of its body. So other members may come, go and change, and of a
field all may change that it is not made from. The generated members in turn show the name, the type and the privacy of
every field.
-/

namespace Recordsmith

/-- What generation reads of a field: its name, its type, and whether it is private. -/
def Member.view (m : Member) : Option String × Option String × Bool := (m.name, m.type, m.isPrivate)

/-- What generation reads of the body of a declaration. -/
def Declaration.view (d : Declaration) : List (Option String × Option String × Bool) := d.fieldMembers.map Member.view

/-- A field with this view. -/
def Field.ofView (v : Option String × Option String × Bool) : Field :=
  { name := v.1, type := v.2.1, isPrivate := v.2.2 }

/-! ### Changes that do not show -/

/-- Members that differ at most in whether they can be changed and have an initial value, and in modifiers that neither
    hide a field nor make it a variable of the type itself. -/
structure Member.Alike (a b : Member) : Prop where
  kind : a.kind = b.kind
  name : a.name = b.name
  type : a.type = b.type
  hasAccessorBlock : a.hasAccessorBlock = b.hasAccessorBlock
  modifiers : ∀ word ∈ privateModifiers ++ typeLevelModifiers, word ∈ a.modifiers ↔ word ∈ b.modifiers

/-- The second body comes from the first by putting in and leaving out members that are no fields, and by exchanging
    members for ones that are alike. -/
inductive Retouched : List Member → List Member → Prop
  | nil : Retouched [] []
  | insert {m : Member} {xs ys : List Member} (hm : ¬m.IsField) (h : Retouched xs ys) : Retouched xs (m :: ys)
  | remove {m : Member} {xs ys : List Member} (hm : ¬m.IsField) (h : Retouched xs ys) : Retouched (m :: xs) ys
  | change {a b : Member} {xs ys : List Member} (hab : a.Alike b) (h : Retouched xs ys) : Retouched (a :: xs) (b :: ys)

namespace Member.Alike
variable {a b : Member}

theorem isField_iff (h : a.Alike b) : a.IsField ↔ b.IsField := by
  have hstatic := h.modifiers "static" (by decide)
  have hclass := h.modifiers "class" (by decide)
  simp only [IsField, h.kind, h.name, h.type, h.hasAccessorBlock, hstatic, hclass]

theorem view_eq (h : a.Alike b) : a.view = b.view := by
  have hprivate := h.modifiers "private" (by decide)
  have hfileprivate := h.modifiers "fileprivate" (by decide)
  have hvisible : a.isPrivate = false ↔ b.isPrivate = false := by
    simp only [isPrivate_eq_false_iff, IsVisible, hprivate, hfileprivate]
  have heq : a.isPrivate = b.isPrivate := by
    rw [Bool.eq_iff_iff, ← Bool.not_eq_false, ← Bool.not_eq_false, hvisible]
  simp only [view, h.name, h.type, heq]

end Member.Alike

theorem Retouched.view_eq {xs ys : List Member} (h : Retouched xs ys) :
    (xs.filter (·.IsField)).map Member.view = (ys.filter (·.IsField)).map Member.view := by
  induction h with
  | nil => rfl
  | @insert m xs ys hm _ ih =>
    have hleft : (m :: ys).filter (·.IsField) = ys.filter (·.IsField) :=
      List.filter_cons_of_neg (mt of_decide_eq_true hm)
    rw [hleft, ih]
  | @remove m xs ys hm _ ih =>
    have hleft : (m :: xs).filter (·.IsField) = xs.filter (·.IsField) :=
      List.filter_cons_of_neg (mt of_decide_eq_true hm)
    rw [hleft, ih]
  | @change a b xs ys hab _ ih =>
    simp only [List.filter_cons, hab.isField_iff]
    split
    · rw [List.map_cons, List.map_cons, hab.view_eq, ih]
    · exact ih

/-! ### The same view -/

namespace Declaration
variable {a b : Declaration}

/-- What is read off the representable fields by name, type and privacy is read off the view. -/
theorem filterMap_fields {β : Type} {g : Field → Option β} (hnone : ∀ f, f.isRepresentable = false → g f = none)
    (hview : ∀ m : Member, g (.ofMember m) = g (.ofView m.view)) (d : Declaration) :
    d.fields.filterMap g = d.view.filterMap fun v => g (.ofView v) := by
  rw [view, List.filterMap_map]
  exact (Field.filterMap_ofMembers hnone d.members).trans (List.filterMap_congr fun m _ => hview m)

theorem parameters_congr (h : a.view = b.view) : Field.parameters a.fields = Field.parameters b.fields := by
  have hview := filterMap_fields (fun _ => Field.parameter?_eq_none_iff.mpr) fun _ => rfl
  rw [Field.parameters, Field.parameters, hview a, hview b, h]

theorem withers_congr (h : a.view = b.view) (access : Option String) (parameterName : String) :
    Wither.ofFields a.fields access parameterName = Wither.ofFields b.fields access parameterName := by
  -- The arguments of a wither's call are read off the parameters, so both bodies make a wither of a field alike.
  have hofField : Wither.ofField? a.fields access parameterName = Wither.ofField? b.fields access parameterName := by
    funext f
    simp only [Wither.ofField?, callArguments, parameters_congr h]
  have hview := filterMap_fields (g := Wither.ofField? b.fields access parameterName)
    (fun _ => Wither.ofField?_eq_none) fun _ => rfl
  rw [Wither.ofFields, Wither.ofFields, hofField, hview a, hview b, h]

/-- The first of some names that stands among those before it. -/
def repeated? : List String → List String → Option String
  | _, [] => none
  | seen, name :: rest => if name ∈ seen then some name else repeated? (name :: seen) rest

/-- Outside of strict mode the only fault of a record is a name that its fields repeat. -/
theorem fault?_lax (record : String) (seen : List String) (fields : List Field) :
    fault? record false seen fields = (repeated? seen (Field.names fields)).map (.duplicate record) := by
  induction fields generalizing seen with
  | nil => rfl
  | cons f rest ih =>
    unfold fault?
    cases hp : f.parameter? with
    | none =>
      obtain ⟨gap, hgap⟩ := Field.exists_gap?_eq_some hp
      rw [Field.names_cons_of_none hp, hgap]
      exact ih seen
    | some p =>
      rw [Field.gap?_eq_none_iff.mpr (Field.isRepresentable_iff.mpr ⟨p, hp⟩), (Field.parameter?_eq_some_iff.mp hp).1,
        Field.names_cons_of_some hp, repeated?]
      by_cases hs : p.name ∈ seen
      · simp only [if_pos hs, Option.map_some]
      · simp only [if_neg hs, ih]

theorem assemble_congr (hname : a.name = b.name) (hkind : a.kind = b.kind) (hmodifiers : a.modifiers = b.modifiers)
    (hfinal : a.isFinal = b.isFinal) {options : Synthesis} (hlax : options.strict = false) (h : a.view = b.view) :
    a.assemble options = b.assemble options := by
  have hrecord : a.isRecord = b.isRecord := by rw [isRecord, isRecord, hkind]
  have haccess : a.accessModifier = b.accessModifier := by rw [accessModifier, accessModifier, hmodifiers]
  have hrequired : a.requiresConstructor = b.requiresConstructor := by
    rw [requiresConstructor, requiresConstructor, hkind, hfinal]
  have hfault : fault? a.name options.strict [] a.fields = fault? b.name options.strict [] b.fields := by
    rw [hlax, fault?_lax, fault?_lax, Field.names, Field.names, parameters_congr h, hname]
  have hconstructor : Constructor.ofFields a.fields = Constructor.ofFields b.fields := by
    funext access required
    rw [Constructor.ofFields, Constructor.ofFields, parameters_congr h]
  unfold assemble
  rw [hrecord, hfault, hconstructor, haccess, hrequired, withers_congr h]

theorem eq_duplicate_of_lax {options : Synthesis} (hlax : options.strict = false) {e : SynthesisError}
    (h : a.assemble options = .error e) : ∃ field, e = .duplicate a.name field := by
  unfold assemble at h
  split at h
  · rw [hlax, fault?_lax] at h
    cases hrepeated : repeated? [] (Field.names a.fields) with
    | none => simp [hrepeated] at h
    | some field =>
      rw [hrepeated] at h
      exact ⟨field, (Except.error.inj h).symm⟩
  · cases h

/-! ### The view in the generated members -/

/-- Where no name is repeated, the names of the visible fields tell which fields are private. -/
theorem view_eq_of_names (d : Declaration) (hnd : (d.fieldMembers.map (·.name)).Nodup) :
    d.view = (d.fieldMembers.map fun m => (m.name, m.type)).map fun p =>
      (p.1, p.2, decide (p.1 ∉ (d.fieldMembers.filter (·.IsVisible)).map (·.name))) := by
  rw [view, List.map_map]
  refine List.map_congr_left fun m hm => ?_
  have hprivate : m.isPrivate = decide (m.name ∉ (d.fieldMembers.filter (·.IsVisible)).map (·.name)) := by
    rw [Bool.eq_iff_iff, decide_eq_true_iff, ← Bool.not_eq_false, Member.isPrivate_eq_false_iff, not_iff_not]
    constructor
    · intro hvisible
      exact List.mem_map_of_mem (List.mem_filter.mpr ⟨hm, decide_eq_true hvisible⟩)
    · intro hmem
      obtain ⟨other, hother, hname⟩ := List.mem_map.mp hmem
      obtain ⟨hin, hvisible⟩ := List.mem_filter.mp hother
      obtain rfl := List.inj_on_of_nodup_map hnd hin hm hname
      exact of_decide_eq_true hvisible
  simp only [Function.comp_apply, Member.view, hprivate]

/-- Records for which the same members are generated have the same view. -/
theorem view_eq_of_assemble {options : Synthesis} {members : List GeneratedMember} (ha : a.isRecord = true)
    (hb : b.isRecord = true) (h : a.assemble options = .ok members) (h' : b.assemble options = .ok members) :
    a.view = b.view := by
  obtain ⟨-, hmembers⟩ := assemble_eq_ok ha h
  obtain ⟨hconstructor, hwithers⟩ := List.cons.inj (hmembers.symm.trans (assemble_eq_ok hb h').2)
  have hparameters : Field.parameters a.fields = Field.parameters b.fields :=
    congrArg Constructor.parameters (GeneratedMember.constructor.inj hconstructor)
  have hpairs : (a.fieldMembers.map fun m => (m.name, m.type)) = b.fieldMembers.map fun m => (m.name, m.type) := by
    rw [← parameters_pairs, ← parameters_pairs, hparameters]
  have hvisible : (a.fieldMembers.filter (·.IsVisible)).map (·.name) =
      (b.fieldMembers.filter (·.IsVisible)).map (·.name) := by
    have hsame := List.map_injective_iff.mpr (fun _ _ => GeneratedMember.wither.inj) hwithers
    rw [← a.withers_names a.accessModifier options.parameterName, hsame, withers_names]
  rw [a.view_eq_of_names (a.names_nodup_iff.mp (names_nodup_of_assemble ha h)),
    b.view_eq_of_names (b.names_nodup_iff.mp (names_nodup_of_assemble hb h')), hpairs, hvisible]

end Declaration

/-- Outside of strict mode, declarations of the same head get the same members, or the same complaint about a repeated
    name, if their fields have the same names, types and privacy in the same order. This is so if one body comes from
    the other by changes to members that are no fields, and to what is not read of a field. Conversely, records that get
    the same members have such fields. -/
theorem only_fields_matter {a b : Declaration} (hname : a.name = b.name) (hkind : a.kind = b.kind)
    (hmodifiers : a.modifiers = b.modifiers) (hfinal : a.isFinal = b.isFinal) {options : Synthesis}
    (hlax : options.strict = false) :
    (a.view = b.view → a.assemble options = b.assemble options) ∧
      (Retouched a.members b.members → a.assemble options = b.assemble options) ∧
      (∀ e, a.assemble options = .error e → ∃ field, e = .duplicate a.name field) ∧
      (∀ members, a.isRecord = true → a.assemble options = .ok members → b.assemble options = .ok members →
        a.view = b.view) := by
  have hsame : a.view = b.view → a.assemble options = b.assemble options :=
    Declaration.assemble_congr hname hkind hmodifiers hfinal hlax
  refine ⟨hsame, fun hretouched => hsame hretouched.view_eq, fun e => Declaration.eq_duplicate_of_lax hlax, ?_⟩
  intro members ha h h'
  have hb : b.isRecord = true := by rw [← ha, Declaration.isRecord, Declaration.isRecord, hkind]
  exact Declaration.view_eq_of_assemble ha hb h h'

/-- The mixed class with other members around its fields, which are written differently. -/
def Declaration.retouched : Declaration where
  name := "Account"
  kind := .reference
  modifiers := ["public"]
  typeParameters := ["T"]
  members := [
    { name := some "owner", type := some "String", isMutable := true, modifiers := ["weak"] },
    { name := some "value", type := some "Int", hasInitializer := true },
    { name := some "shared", type := some "Account", modifiers := ["static"] },
    { name := some "limit", type := some "Int", modifiers := ["lazy", "private"] }]

theorem only_fields_matter_retouched :
    Retouched Declaration.mixed.members Declaration.retouched.members ∧
      Declaration.mixed.members ≠ Declaration.retouched.members ∧
      Declaration.mixed.view = Declaration.retouched.view ∧
      Declaration.mixed.assemble {} = Declaration.retouched.assemble {} := by
  have hretouched : Retouched Declaration.mixed.members Declaration.retouched.members :=
    .remove (by decide) <| .remove (by decide) <| .remove (by decide) <|
      .change ⟨rfl, rfl, rfl, rfl, by decide⟩ <| .remove (by decide) <|
      .change ⟨rfl, rfl, rfl, rfl, by decide⟩ <| .remove (by decide) <| .insert (by decide) <|
      .change ⟨rfl, rfl, rfl, rfl, by decide⟩ .nil
  have hlax : ({} : Synthesis).strict = false := rfl
  obtain ⟨-, hsame, -, hback⟩ :=
    only_fields_matter (a := Declaration.mixed) (b := Declaration.retouched) rfl rfl rfl rfl hlax
  have hassemble := hsame hretouched
  exact ⟨hretouched, by decide, hback _ rfl rfl hassemble.symm, hassemble⟩

end Recordsmith
