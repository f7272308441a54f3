import Recordsmith.Proofs.Record.Fields

/-!
The members generated for a record fit together. The constructor has one parameter for each field member, in their order
and under distinct names. Every visible field has its wither, and a wither calls the constructor with one argument for
each parameter, its own parameter standing in the place of the field it is named for.
-/

namespace Recordsmith

/-- A wither whose call fits the constructor: it names every parameter in its place, gives its own parameter to the
    field it is named for and to no other, and reads at most one other field through the receiver. -/
structure Wither.Fits (w : Wither) (c : Constructor) : Prop where
  labels : w.arguments.map (·.label) = c.parameters.map (·.name)
  target : ∃ i : Nat, c.parameters[i]? = some ⟨w.name, w.parameter.type⟩ ∧
    ∀ (j : Nat) (a : Argument), w.arguments[j]? = some a → (a.fromParameter = true ↔ j = i)
  receiver : ∀ (i j : Nat) (a b : Argument), w.arguments[i]? = some a → w.arguments[j]? = some b →
    a.viaReceiver = true → b.viaReceiver = true → i = j
  apart : ∀ a ∈ w.arguments, a.viaReceiver = true → a.fromParameter = false

/-! ### Arguments -/

section Arguments
variable {target parameterName field : String}

@[simp] theorem Argument.forField_label : (Argument.forField target parameterName field).label = field := by
  unfold Argument.forField
  split <;> rfl

@[simp] theorem Argument.forField_fromParameter :
    (Argument.forField target parameterName field).fromParameter = true ↔ field = target := by
  unfold Argument.forField
  split <;> simp_all

@[simp] theorem Argument.forField_viaReceiver :
    (Argument.forField target parameterName field).viaReceiver = true ↔ field ≠ target ∧ field = parameterName := by
  unfold Argument.forField
  split <;> simp_all

end Arguments

theorem callArguments_eq (fields : List Field) (target parameterName : String) :
    callArguments fields target parameterName = (Field.names fields).map (Argument.forField target parameterName) := by
  rw [callArguments, Field.names, List.map_map]
  rfl

theorem callArguments_labels (fields : List Field) (target parameterName : String) :
    (callArguments fields target parameterName).map (·.label) = Field.names fields := by
  simp [callArguments_eq, Function.comp_def]

theorem getElem?_callArguments {fields : List Field} {target parameterName : String} {i : Nat} {a : Argument}
    (h : (callArguments fields target parameterName)[i]? = some a) :
    ∃ n, (Field.names fields)[i]? = some n ∧ a = Argument.forField target parameterName n := by
  simp only [callArguments, List.getElem?_map, Option.map_eq_some_iff] at h
  obtain ⟨p, hp, rfl⟩ := h
  exact ⟨p.name, by simp [Field.names, hp], rfl⟩

/-! ### Withers -/

namespace Wither

theorem ofField?_eq_some {fields : List Field} {access : Option String} {parameterName : String} {f : Field}
    {w : Wither} (h : ofField? fields access parameterName f = some w) :
    ∃ p, f.parameter? = some p ∧ w = ⟨p.name, ⟨parameterName, p.type⟩, callArguments fields p.name parameterName, access⟩ := by
  unfold ofField? at h
  split at h
  · cases h
  · obtain ⟨p, hp, rfl⟩ := Option.map_eq_some_iff.mp h
    exact ⟨p, hp, rfl⟩

theorem ofField?_eq_none {fields : List Field} {access : Option String} {parameterName : String} {f : Field}
    (h : f.isRepresentable = false) : ofField? fields access parameterName f = none := by
  rw [ofField?, Field.parameter?_eq_none_iff.mpr h, Option.map_none, ite_self]

theorem mem_ofFields {fields : List Field} {access : Option String} {parameterName : String} {w : Wither}
    (h : w ∈ ofFields fields access parameterName) :
    ∃ p ∈ Field.parameters fields,
      w = ⟨p.name, ⟨parameterName, p.type⟩, callArguments fields p.name parameterName, access⟩ := by
  obtain ⟨f, hf, hw⟩ := List.mem_filterMap.mp h
  obtain ⟨p, hp, rfl⟩ := ofField?_eq_some hw
  exact ⟨p, List.mem_filterMap.mpr ⟨f, hf, hp⟩, rfl⟩

theorem fits_of_mem_ofFields {fields : List Field} {access access' : Option String} {required : Bool}
    {parameterName : String} {w : Wither} (hnd : (Field.names fields).Nodup)
    (h : w ∈ ofFields fields access parameterName) : w.Fits (Constructor.ofFields fields access' required) := by
  obtain ⟨p, hp, rfl⟩ := mem_ofFields h
  -- Positions are told apart by the names that stand at them.
  have same : ∀ {i j : Nat} {n : String}, (Field.names fields)[i]? = some n → (Field.names fields)[j]? = some n →
      i = j := fun hi hj => (List.getElem?_inj (List.getElem?_eq_some_iff.mp hi).1 hnd).mp (hi.trans hj.symm)
  refine ⟨callArguments_labels .., ?_, ?_, ?_⟩
  · obtain ⟨i, hi⟩ := List.getElem?_of_mem hp
    refine ⟨i, hi, fun j a ha => ?_⟩
    obtain ⟨n, hn, rfl⟩ := getElem?_callArguments ha
    have hpn : (Field.names fields)[i]? = some p.name := by simp [Field.names, hi]
    rw [Argument.forField_fromParameter]
    constructor
    · rintro rfl
      exact same hn hpn
    · rintro rfl
      exact Option.some.inj (hn.symm.trans hpn)
  · intro i j a b ha hb hva hvb
    obtain ⟨m, hm, rfl⟩ := getElem?_callArguments ha
    obtain ⟨n, hn, rfl⟩ := getElem?_callArguments hb
    have hmp := (Argument.forField_viaReceiver.mp hva).2
    have hnp := (Argument.forField_viaReceiver.mp hvb).2
    exact same (hmp ▸ hm) (hnp ▸ hn)
  · intro a ha hva
    obtain ⟨q, -, rfl⟩ := List.mem_map.mp ha
    have hne := (Argument.forField_viaReceiver.mp hva).1
    rw [← Bool.not_eq_true, Argument.forField_fromParameter]
    exact hne

end Wither

/-! ### The generated members -/

theorem Member.IsField.parameter? {m : Member} (h : m.IsField) :
    ∃ p, (Field.ofMember m).parameter? = some p ∧ m.name = some p.name ∧ m.type = some p.type := by
  obtain ⟨-, -, -, -, hn, ht⟩ := h
  obtain ⟨name, hn⟩ := Option.isSome_iff_exists.mp hn
  obtain ⟨type, ht⟩ := Option.isSome_iff_exists.mp ht
  exact ⟨⟨name, type⟩, Field.parameter?_eq_some_iff.mpr ⟨hn, ht⟩, hn, ht⟩

namespace Declaration

theorem parameters_fields (d : Declaration) :
    Field.parameters d.fields = d.fieldMembers.filterMap fun m => (Field.ofMember m).parameter? :=
  Field.filterMap_ofMembers (fun _ => Field.parameter?_eq_none_iff.mpr) d.members

theorem exists_fieldMember {d : Declaration} {p : Parameter} (h : p ∈ Field.parameters d.fields) :
    ∃ m ∈ d.fieldMembers, m.name = some p.name ∧ m.type = some p.type := by
  rw [parameters_fields] at h
  obtain ⟨m, hm, hp⟩ := List.mem_filterMap.mp h
  exact ⟨m, hm, Field.parameter?_eq_some_iff.mp hp⟩

theorem mem_copiedModifiers {d : Declaration} {word : String} (h : word ∈ d.accessModifier) : word ∈ copiedModifiers := by
  have hfound := List.find?_some h
  exact of_decide_eq_true hfound

theorem parameters_pairs (d : Declaration) :
    (Field.parameters d.fields).map (fun p => (some p.name, some p.type)) =
      d.fieldMembers.map fun m => (m.name, m.type) := by
  rw [parameters_fields, List.map_filterMap, ← List.filterMap_eq_map]
  refine List.filterMap_congr fun m hm => ?_
  obtain ⟨p, hp, hn, ht⟩ := (of_decide_eq_true (List.mem_filter.mp hm).2 : m.IsField).parameter?
  simp [hp, hn, ht]

theorem mem_names_of_isField {d : Declaration} {m : Member} (hm : m ∈ d.members) (hf : m.IsField) {name : String}
    (hname : m.name = some name) : name ∈ Field.names d.fields := by
  obtain ⟨p, hp, hn, -⟩ := hf.parameter?
  obtain rfl : p.name = name := Option.some.inj (hn.symm.trans hname)
  refine List.mem_map.mpr ⟨p, ?_, rfl⟩
  rw [parameters_fields]
  exact List.mem_filterMap.mpr ⟨m, List.mem_filter.mpr ⟨hm, decide_eq_true hf⟩, hp⟩

theorem mem_names_iff {d : Declaration} {name : String} :
    name ∈ Field.names d.fields ↔ ∃ m ∈ d.members, m.IsField ∧ m.name = some name := by
  constructor
  · intro h
    obtain ⟨p, hp, rfl⟩ := List.mem_map.mp h
    obtain ⟨m, hm, hname, -⟩ := exists_fieldMember hp
    obtain ⟨hmem, hfield⟩ := List.mem_filter.mp hm
    exact ⟨m, hmem, of_decide_eq_true hfield, hname⟩
  · rintro ⟨m, hm, hfield, hname⟩
    exact mem_names_of_isField hm hfield hname

theorem withers_names (d : Declaration) (access : Option String) (parameterName : String) :
    (Wither.ofFields d.fields access parameterName).map (fun w => some w.name) =
      (d.fieldMembers.filter (·.IsVisible)).map (·.name) := by
  have hofFields : Wither.ofFields d.fields access parameterName = d.fieldMembers.filterMap fun m =>
      Wither.ofField? d.fields access parameterName (Field.ofMember m) :=
    Field.filterMap_ofMembers (fun _ => Wither.ofField?_eq_none) d.members
  rw [hofFields, List.map_filterMap, ← List.filterMap_eq_map, ← List.filterMap_eq_filter, List.filterMap_filterMap]
  refine List.filterMap_congr fun m hm => ?_
  obtain ⟨p, hp, hn, -⟩ := (of_decide_eq_true (List.mem_filter.mp hm).2 : m.IsField).parameter?
  have hprivate : (Field.ofMember m).isPrivate = m.isPrivate := rfl
  by_cases hv : m.IsVisible
  · simp [Wither.ofField?, hprivate, Member.isPrivate_eq_false_iff.mpr hv, hp, hn, Option.guard, hv]
  · have hpriv : m.isPrivate = true := by
      rw [← Bool.not_eq_false]
      exact mt Member.isPrivate_eq_false_iff.mp hv
    simp [Wither.ofField?, hprivate, hpriv, Option.guard, hv]

end Declaration

/-- The members generated for a record are a constructor over its field members, in their order and under distinct names,
    and a wither for each visible one whose call fits that constructor; all carry the same access modifier. -/
theorem assembled_members_fit {d : Declaration} {options : Synthesis} {members : List GeneratedMember}
    (hd : d.kind = .value ∨ d.kind = .reference) (h : d.assemble options = .ok members) :
    ∃ (c : Constructor) (withers : List Wither),
      members = .constructor c :: withers.map .wither ∧
      c.parameters.map (fun p => (some p.name, some p.type)) = d.fieldMembers.map (fun m => (m.name, m.type)) ∧
      c.assignments = c.parameters.map (·.name) ∧
      c.assignments.Nodup ∧
      withers.map (fun w => some w.name) = (d.fieldMembers.filter (·.IsVisible)).map (·.name) ∧
      (∀ w ∈ withers, w.Fits c) ∧
      ∀ w ∈ withers, w.accessModifier = c.accessModifier := by
  have hrec : d.isRecord = true := by rcases hd with hd | hd <;> simp [Declaration.isRecord, hd]
  have hnd := Declaration.names_nodup_of_assemble hrec h
  refine ⟨_, _, (Declaration.assemble_eq_ok hrec h).2, d.parameters_pairs, rfl, hnd, d.withers_names ..,
    fun w hw => Wither.fits_of_mem_ofFields hnd hw, fun w hw => ?_⟩
  obtain ⟨p, -, rfl⟩ := Wither.mem_ofFields hw
  rfl

/-- A class with members of every sort, one of its fields named like the parameter of withers. -/
def Declaration.mixed : Declaration where
  name := "Account"
  kind := .reference
  modifiers := ["public"]
  members := [
    { name := some "count", type := some "Int", modifiers := ["static"] },
    { name := some "label", type := some "String", hasAccessorBlock := true },
    { kind := .other, name := some "close" },
    { name := some "owner", type := some "String" },
    { name := none, type := some "(Int, Int)" },
    { name := some "value", type := some "Int" },
    { name := some "cache" },
    { name := some "limit", type := some "Int", modifiers := ["private"] }]

/-- In the mixed class `owner`, `value` and `limit` are parameters, and only the private `limit` has no wither. -/
theorem assembled_members_fit_mixed :
    ∃ (c : Constructor) (withers : List Wither),
      Declaration.mixed.assemble {} = .ok (.constructor c :: withers.map .wither) ∧
      c.parameters.map (fun p => (some p.name, some p.type)) =
        [(some "owner", some "String"), (some "value", some "Int"), (some "limit", some "Int")] ∧
      withers.map (fun w => some w.name) = [some "owner", some "value"] ∧ ∀ w ∈ withers, w.Fits c := by
  have h : Declaration.mixed.assemble {} = .ok _ := rfl
  obtain ⟨c, withers, hmembers, hparameters, -, -, hnames, hfit, -⟩ := assembled_members_fit (Or.inr rfl) h
  refine ⟨c, withers, by rw [h, hmembers], ?_, ?_, hfit⟩
  · rw [hparameters]
    decide
  · rw [hnames]
    decide

end Recordsmith
