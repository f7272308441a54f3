import Mathlib.Data.List.Basic
import Recordsmith.Record.Assembly

/-!
Which members are fields of a record, and what assembly makes of them. `Member.IsField` says it on the declared member;
the stored, representable fields that generation walks over are exactly these members, in their order. Assembly
succeeds exactly when their names are distinct and, in strict mode, when no stored field is left out.
-/

namespace Recordsmith

/-! ### Members that are fields -/

/-- A member that every value of the record holds under a name and with a type: a variable without accessors that does
    not belong to the type itself. -/
def Member.IsField (m : Member) : Prop :=
  m.kind = .variable ∧ m.hasAccessorBlock = false ∧ "static" ∉ m.modifiers ∧ "class" ∉ m.modifiers ∧
    m.name.isSome = true ∧ m.type.isSome = true

instance : DecidablePred Member.IsField := fun _ => inferInstanceAs (Decidable (_ ∧ _))

/-- A member that is seen outside its record. -/
def Member.IsVisible (m : Member) : Prop := "private" ∉ m.modifiers ∧ "fileprivate" ∉ m.modifiers

instance : DecidablePred Member.IsVisible := fun _ => inferInstanceAs (Decidable (_ ∧ _))

/-- The members of a declaration that are fields, in their order. -/
def Declaration.fieldMembers (d : Declaration) : List Member := d.members.filter (·.IsField)

theorem Member.classify_eq_stored_iff {m : Member} :
    m.classify = .stored ↔
      m.kind = .variable ∧ m.hasAccessorBlock = false ∧ "static" ∉ m.modifiers ∧ "class" ∉ m.modifiers := by
  have htype : m.modifiers.any (· ∈ Member.typeLevelModifiers) = true ↔
      "static" ∈ m.modifiers ∨ "class" ∈ m.modifiers := by
    simp [Member.typeLevelModifiers, List.any_eq_true, and_or_left, exists_or]
  unfold Member.classify
  by_cases hk : m.kind = .variable
  · by_cases ha : m.hasAccessorBlock = true
    · simp [hk, ha]
    · by_cases ht : "static" ∈ m.modifiers ∨ "class" ∈ m.modifiers
      · simp [hk, ha, htype.mpr ht, ← not_or, ht]
      · rw [← htype, Bool.not_eq_true] at ht
        have ht' := mt htype.mpr (Bool.not_eq_true _ ▸ ht)
        simp [hk, ha, ht, ← not_or, ht']
  · simp [hk]

theorem Member.isPrivate_eq_false_iff {m : Member} : m.isPrivate = false ↔ m.IsVisible := by
  simp only [Member.isPrivate, Member.privateModifiers, Member.IsVisible, List.any_eq_false, List.mem_cons,
    List.not_mem_nil, or_false, decide_eq_true_eq]
  constructor
  · intro h
    exact ⟨fun hm => h _ hm (Or.inl rfl), fun hm => h _ hm (Or.inr rfl)⟩
  · rintro ⟨h1, h2⟩ x hx (rfl | rfl)
    · exact h1 hx
    · exact h2 hx

/-! ### Representable fields -/

namespace Field

theorem parameter?_eq_some_iff {f : Field} {p : Parameter} :
    f.parameter? = some p ↔ f.name = some p.name ∧ f.type = some p.type := by
  obtain ⟨name, type⟩ := p
  unfold parameter?
  cases f.name <;> cases f.type <;> simp

theorem isRepresentable_iff {f : Field} : f.isRepresentable = true ↔ ∃ p, f.parameter? = some p := by
  unfold isRepresentable parameter?
  cases f.name <;> cases f.type <;> simp

theorem parameter?_eq_none_iff {f : Field} : f.parameter? = none ↔ f.isRepresentable = false := by
  unfold isRepresentable parameter?
  cases f.name <;> cases f.type <;> simp

theorem gap?_eq_none_iff {f : Field} : f.gap? = none ↔ f.isRepresentable = true := by
  unfold gap? isRepresentable
  cases f.name <;> cases f.type <;> simp

theorem exists_gap?_eq_some {f : Field} (h : f.parameter? = none) : ∃ gap, f.gap? = some gap := by
  refine Option.ne_none_iff_exists'.mp fun hgap => ?_
  rw [parameter?_eq_none_iff, gap?_eq_none_iff.mp hgap] at h
  cases h

/-- The names of the representable fields. -/
def names (fields : List Field) : List String := (parameters fields).map (·.name)

theorem names_cons_of_none {f : Field} {rest : List Field} (h : f.parameter? = none) : names (f :: rest) = names rest := by
  simp [names, parameters, h]

theorem names_cons_of_some {f : Field} {rest : List Field} {p : Parameter} (h : f.parameter? = some p) :
    names (f :: rest) = p.name :: names rest := by
  simp [names, parameters, h]

/-- What is read off the representable fields of a body is read off its field members. -/
theorem filterMap_ofMembers {β : Type} {g : Field → Option β} (hg : ∀ f, f.isRepresentable = false → g f = none)
    (members : List Member) :
    (ofMembers members).filterMap g = (members.filter (·.IsField)).filterMap fun m => g (ofMember m) := by
  have hfield : ∀ m : Member, m.IsField ↔ m.classify = .stored ∧ (ofMember m).isRepresentable = true := by
    intro m
    rw [Member.classify_eq_stored_iff]
    simp only [Member.IsField, ofMember, isRepresentable, Bool.and_eq_true, and_assoc]
  unfold ofMembers
  induction members with
  | nil => rfl
  | cons m rest ih =>
    by_cases hs : m.classify = .stored
    · by_cases hr : (ofMember m).isRepresentable = true
      · have hm : m.IsField := (hfield m).mpr ⟨hs, hr⟩
        simp only [List.filter_cons, hs, hm, beq_self_eq_true, decide_true, if_true, List.map_cons,
          List.filterMap_cons, ih]
      · have hm : ¬m.IsField := fun h => hr ((hfield m).mp h).2
        simp only [List.filter_cons, hs, hm, beq_self_eq_true, decide_false, if_true, Bool.false_eq_true, if_false,
          List.map_cons, List.filterMap_cons, hg _ (Bool.not_eq_true _ ▸ hr), ih]
    · have hm : ¬m.IsField := fun h => hs ((hfield m).mp h).1
      simp only [List.filter_cons, beq_iff_eq, hs, hm, decide_false, Bool.false_eq_true, if_false, ih]

end Field

/-! ### Assembly -/

namespace Declaration

/-- No field stands in the way of generation exactly when the representable ones have distinct names, none of them taken
    before, and strict mode finds all of them representable. -/
theorem fault?_eq_none_iff {record : String} {strict : Bool} {seen : List String} {fields : List Field} :
    fault? record strict seen fields = none ↔
      (strict = true → ∀ f ∈ fields, f.isRepresentable = true) ∧ (Field.names fields).Nodup ∧
        ∀ n ∈ Field.names fields, n ∉ seen := by
  induction fields generalizing seen with
  | nil => simp [fault?, Field.names, Field.parameters]
  | cons f rest ih =>
    unfold fault?
    cases hp : f.parameter? with
    | none =>
      have hrep : f.isRepresentable = false := Field.parameter?_eq_none_iff.mp hp
      obtain ⟨gap, hgap⟩ := Field.exists_gap?_eq_some hp
      rw [Field.names_cons_of_none hp]
      cases strict <;> simp [hgap, ih, hrep]
    | some p =>
      have hrep := Field.isRepresentable_iff.mpr ⟨p, hp⟩
      rw [Field.gap?_eq_none_iff.mpr hrep, (Field.parameter?_eq_some_iff.mp hp).1, Field.names_cons_of_some hp]
      by_cases hs : p.name ∈ seen
      · simp [hs]
      · simp only [if_neg hs, ih, List.mem_cons, forall_eq_or_imp, hrep, true_and, List.nodup_cons, not_or]
        constructor
        · rintro ⟨hstrict, hnd, hnew⟩
          exact ⟨hstrict, ⟨fun h => (hnew _ h).1 rfl, hnd⟩, hs, fun n hn => (hnew n hn).2⟩
        · rintro ⟨hstrict, ⟨hnot, hnd⟩, -, hnew⟩
          exact ⟨hstrict, hnd, fun n hn => ⟨fun he => hnot (he ▸ hn), hnew n hn⟩⟩

/-- What assembling a record gives: the constructor of its fields and then their withers. -/
theorem assemble_eq_ok {d : Declaration} {options : Synthesis} {members : List GeneratedMember}
    (hd : d.isRecord = true) (h : d.assemble options = .ok members) :
    fault? d.name options.strict [] d.fields = none ∧
      members = .constructor (Constructor.ofFields d.fields d.accessModifier d.requiresConstructor) ::
        (Wither.ofFields d.fields d.accessModifier options.parameterName).map .wither := by
  unfold assemble at h
  rw [if_pos hd] at h
  split at h
  · cases h
  · rename_i hf
    exact ⟨hf, (Except.ok.inj h).symm⟩

theorem names_nodup_of_assemble {d : Declaration} {options : Synthesis} {members : List GeneratedMember}
    (hd : d.isRecord = true) (h : d.assemble options = .ok members) : (Field.names d.fields).Nodup :=
  (fault?_eq_none_iff.mp (assemble_eq_ok hd h).1).2.1

end Declaration

end Recordsmith
