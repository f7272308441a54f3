import Mathlib.Data.List.Nodup
import Mathlib.Tactic.Tauto
import Recordsmith.Proofs.Record.Consistency

/-!
Faults of a record. A stored member stands in the way of generation if it repeats the name of a member before it, and in
strict mode also if it lacks a name or a type. Assembly fails exactly when there is such a member, and it tells what is
wrong with the first of them.
-/

namespace Recordsmith

/-! ### The first of some items -/

section First
variable {α : Type} {P : List α → α → Prop} {items : List α} {x y : α}

/-- The first of some items that `P` holds of, given the items before it. -/
def FirstIn (P : List α → α → Prop) (items : List α) (x : α) : Prop :=
  ∃ before after, items = before ++ x :: after ∧ P before x ∧ ∀ b z a, before = b ++ z :: a → ¬P b z

theorem not_firstIn_nil : ¬FirstIn P [] x := by
  rintro ⟨before, after, hitems, -⟩
  simp at hitems

theorem firstIn_cons_of_pos (h : P [] y) : FirstIn P (y :: items) x ↔ x = y := by
  constructor
  · rintro ⟨before, after, hitems, -, hnone⟩
    cases before with
    | nil => exact (List.cons.inj hitems).1.symm
    | cons z rest =>
      obtain rfl := (List.cons.inj hitems).1
      exact absurd h (hnone [] y rest rfl)
  · rintro rfl
    exact ⟨[], items, rfl, h, by simp⟩

theorem firstIn_cons_of_neg (h : ¬P [] y) : FirstIn P (y :: items) x ↔ FirstIn (fun b => P (y :: b)) items x := by
  constructor
  · rintro ⟨before, after, hitems, hx, hnone⟩
    cases before with
    | nil =>
      obtain rfl := (List.cons.inj hitems).1
      exact absurd hx h
    | cons z rest =>
      obtain ⟨rfl, hrest⟩ := List.cons.inj hitems
      exact ⟨rest, after, hrest, hx, fun b w a hb => hnone (y :: b) w a (by rw [hb, List.cons_append])⟩
  · rintro ⟨before, after, rfl, hx, hnone⟩
    refine ⟨y :: before, after, rfl, hx, fun b z a hb => ?_⟩
    cases b with
    | nil =>
      obtain rfl := (List.cons.inj hb).1
      exact h
    | cons w rest =>
      obtain ⟨rfl, hrest⟩ := List.cons.inj hb
      exact hnone rest z a hrest

theorem FirstIn.holds {Q : α → Prop} (h : FirstIn (fun _ => Q) items x) : Q x := by
  obtain ⟨-, -, -, hx, -⟩ := h
  exact hx

/-- If something holds of one of the items, it holds of a first of them. -/
theorem exists_firstIn_iff {Q : α → Prop} : (∃ x, FirstIn (fun _ => Q) items x) ↔ ∃ x ∈ items, Q x := by
  induction items with
  | nil => simp [not_firstIn_nil]
  | cons y rest ih =>
    by_cases hy : Q y
    · simp [firstIn_cons_of_pos (P := fun _ => Q) hy, hy]
    · simp [firstIn_cons_of_neg (P := fun _ => Q) hy, hy, ih]

end First

/-! ### Members that offend -/

/-- A member that every value of the record holds: a variable without accessors that does not belong to the type itself. -/
def Member.IsStored (m : Member) : Prop :=
  m.kind = .variable ∧ m.hasAccessorBlock = false ∧ "static" ∉ m.modifiers ∧ "class" ∉ m.modifiers

instance : DecidablePred Member.IsStored := fun _ => inferInstanceAs (Decidable (_ ∧ _))

/-- A member that has a name and a type. -/
def Member.IsComplete (m : Member) : Prop := m.name.isSome = true ∧ m.type.isSome = true

instance : DecidablePred Member.IsComplete := fun _ => inferInstanceAs (Decidable (_ ∧ _))

/-- A member stands in the way of generation, given the stored members before it: in strict mode if it is not complete,
    and always if it repeats the name of a complete member. -/
def Member.Offends (strict : Bool) (before : List Member) (m : Member) : Prop :=
  (strict = true ∧ ¬m.IsComplete) ∨ (m.IsComplete ∧ ∃ other ∈ before, other.IsComplete ∧ other.name = m.name)

/-- What is wrong with an offending member of a record. A member that lacks both a name and a type lacks a name. -/
def Member.fault (record : String) (m : Member) : SynthesisError :=
  match m.name, m.type with
  | none, _ => .unrepresentable record none .noName
  | some name, none => .unrepresentable record (some name) .noType
  | some name, some _ => .duplicate record name

/-- The stored members of a declaration, in their order. -/
def Declaration.storedMembers (d : Declaration) : List Member := d.members.filter (·.IsStored)

/-- A record with two fields of the same name, or in strict mode with a stored member that is not complete. -/
def Declaration.IsFaulty (strict : Bool) (d : Declaration) : Prop :=
  ¬(d.fieldMembers.map (·.name)).Nodup ∨ (strict = true ∧ ∃ m ∈ d.storedMembers, m.name = none ∨ m.type = none)

theorem Declaration.fields_eq_storedMembers (d : Declaration) : d.fields = d.storedMembers.map Field.ofMember := by
  unfold fields Field.ofMembers storedMembers
  congr 1
  refine List.filter_congr fun m _ => ?_
  rw [Bool.eq_iff_iff, beq_iff_eq, decide_eq_true_iff]
  exact Member.classify_eq_stored_iff

/-! ### One member after another -/

namespace Declaration
variable {record : String} {strict : Bool} {seen : List String} {passed rest : List Member} {m : Member}

/-- The names seen are those of the complete members passed. -/
def Sees (seen : List String) (passed : List Member) : Prop :=
  ∀ name, name ∈ seen ↔ ∃ m ∈ passed, m.IsComplete ∧ m.name = some name

theorem Sees.push_incomplete (h : Sees seen passed) (hm : ¬m.IsComplete) : Sees seen (passed ++ [m]) := by
  intro name
  rw [h name]
  simp [hm, or_and_right, exists_or]

theorem Sees.push_complete (h : Sees seen passed) (hm : m.IsComplete) {name : String} (hname : m.name = some name) :
    Sees (name :: seen) (passed ++ [m]) := by
  intro other
  rw [List.mem_cons, h other]
  simp only [List.mem_append, List.mem_singleton, or_and_right, exists_or, exists_eq_left, hm, true_and, hname,
    Option.some.injEq]
  rw [or_comm, eq_comm]

theorem Sees.offends_iff_mem (h : Sees seen passed) (hm : m.IsComplete) {name : String} (hname : m.name = some name) :
    m.Offends strict passed ↔ name ∈ seen := by
  rw [h name]
  simp [Member.Offends, hm, hname]

/-- The search for a fault stops at a member that offends, and otherwise goes on with its name among those seen. -/
theorem fault?_cons (h : Sees seen passed) :
    (m.Offends strict passed →
      fault? record strict seen (Field.ofMember m :: rest.map Field.ofMember) = some (m.fault record)) ∧
    (¬m.Offends strict passed → ∃ seen', Sees seen' (passed ++ [m]) ∧
      fault? record strict seen (Field.ofMember m :: rest.map Field.ofMember) =
        fault? record strict seen' (rest.map Field.ofMember)) := by
  by_cases hm : m.IsComplete
  · obtain ⟨name, hname⟩ := Option.isSome_iff_exists.mp hm.1
    obtain ⟨type, htype⟩ := Option.isSome_iff_exists.mp hm.2
    rw [h.offends_iff_mem hm hname]
    refine ⟨fun hseen => ?_, fun hnew => ⟨name :: seen, h.push_complete hm hname, ?_⟩⟩
    · simp [fault?, Field.gap?, Field.ofMember, Member.fault, hname, htype, hseen]
    · simp [fault?, Field.gap?, Field.ofMember, hname, htype, hnew]
  · have hoffends : m.Offends strict passed ↔ strict = true := by simp [Member.Offends, hm]
    rw [hoffends]
    refine ⟨fun hstrict => ?_, fun hlax => ⟨seen, h.push_incomplete hm, ?_⟩⟩
    · cases hname : m.name with
      | none => simp [fault?, Field.gap?, Field.ofMember, Member.fault, hname, hstrict]
      | some name =>
        have htype : m.type = none := by
          rw [← Option.not_isSome_iff_eq_none]
          exact fun htype => hm ⟨by rw [hname]; rfl, htype⟩
        simp [fault?, Field.gap?, Field.ofMember, Member.fault, hname, htype, hstrict]
    · have hgap : (Field.ofMember m).gap? ≠ none := by
        rw [Ne, Field.gap?_eq_none_iff, Field.isRepresentable, Bool.and_eq_true]
        exact hm
      obtain ⟨gap, hgap⟩ := Option.ne_none_iff_exists'.mp hgap
      simp [fault?, hgap, hlax]

theorem fault?_eq_some_iff_of_sees {e : SynthesisError} (h : Sees seen passed) :
    fault? record strict seen (rest.map Field.ofMember) = some e ↔
      ∃ m, FirstIn (fun before => Member.Offends strict (passed ++ before)) rest m ∧ e = m.fault record := by
  induction rest generalizing seen passed with
  | nil => simp [fault?, not_firstIn_nil]
  | cons m rest ih =>
    let P : List Member → Member → Prop := fun before => Member.Offends strict (passed ++ before)
    have hP : P [] m ↔ m.Offends strict passed := by simp only [P, List.append_nil]
    obtain ⟨hstop, hgo⟩ := fault?_cons h
    rw [List.map_cons]
    by_cases hm : m.Offends strict passed
    · rw [hstop hm, Option.some.injEq, eq_comm]
      simp only [firstIn_cons_of_pos (P := P) (hP.mpr hm), exists_eq_left, P]
    · obtain ⟨seen', hsees, hfault⟩ := hgo hm
      rw [hfault, ih hsees]
      simp only [firstIn_cons_of_neg (P := P) (mt hP.mp hm), P, List.append_assoc, List.singleton_append]

/-- The fault of a record is that of its first stored member that offends. -/
theorem fault?_eq_some_iff {d : Declaration} {e : SynthesisError} :
    fault? record strict [] d.fields = some e ↔
      ∃ m, FirstIn (Member.Offends strict) d.storedMembers m ∧ e = m.fault record := by
  have hsees : Sees [] [] := by simp [Sees]
  rw [fields_eq_storedMembers, fault?_eq_some_iff_of_sees hsees]
  simp only [List.nil_append]

/-! ### Assembly -/

theorem names_nodup_iff (d : Declaration) : (Field.names d.fields).Nodup ↔ (d.fieldMembers.map (·.name)).Nodup := by
  have hnames : d.fieldMembers.map (·.name) = (Field.names d.fields).map some := by
    have hpairs := congrArg (List.map Prod.fst) d.parameters_pairs
    simpa [Field.names, Function.comp_def] using hpairs.symm
  rw [hnames, List.nodup_map_iff fun _ _ => Option.some.inj]

theorem isFaulty_iff {d : Declaration} : d.IsFaulty strict ↔ ∃ e, fault? record strict [] d.fields = some e := by
  rw [← Option.ne_none_iff_exists', Ne, fault?_eq_none_iff, IsFaulty, names_nodup_iff, fields_eq_storedMembers]
  have hcomplete : (∃ m ∈ d.storedMembers, m.name = none ∨ m.type = none) ↔
      ¬∀ f ∈ d.storedMembers.map Field.ofMember, f.isRepresentable = true := by
    simp only [List.forall_mem_map, not_forall, exists_prop, Field.isRepresentable, Field.ofMember, Bool.and_eq_true,
      Option.isSome_iff_ne_none, not_and_or, Ne, not_not]
  rw [hcomplete]
  simp only [List.not_mem_nil, not_false_eq_true, implies_true, and_true]
  tauto

theorem isFaulty_iff_exists_first {d : Declaration} :
    d.IsFaulty strict ↔ ∃ m, FirstIn (Member.Offends strict) d.storedMembers m := by
  have hfaulty : d.IsFaulty strict ↔ ∃ e, fault? d.name strict [] d.fields = some e := isFaulty_iff
  rw [hfaulty]
  simp only [fault?_eq_some_iff]
  constructor
  · rintro ⟨-, m, hm, -⟩
    exact ⟨m, hm⟩
  · rintro ⟨m, hm⟩
    exact ⟨_, m, hm, rfl⟩

/-- Assembling fails exactly for a record with a fault, and tells what is wrong with its first member that offends. -/
theorem assemble_eq_error_iff {d : Declaration} {options : Synthesis} {e : SynthesisError} :
    d.assemble options = .error e ↔ d.isRecord = true ∧
      ∃ m, FirstIn (Member.Offends options.strict) d.storedMembers m ∧ e = m.fault d.name := by
  unfold assemble
  split
  · rename_i hr
    rw [← fault?_eq_some_iff]
    cases hf : fault? d.name options.strict [] d.fields with
    | none => simp
    | some found => simp [hr]
  · rename_i hr
    simp [hr]

theorem exists_assemble_eq_error_iff {d : Declaration} {options : Synthesis} :
    (∃ e, d.assemble options = .error e) ↔ d.isRecord = true ∧ d.IsFaulty options.strict := by
  simp only [isFaulty_iff_exists_first, assemble_eq_error_iff]
  constructor
  · rintro ⟨-, hr, m, hm, -⟩
    exact ⟨hr, m, hm⟩
  · rintro ⟨hr, m, hm⟩
    exact ⟨_, hr, m, hm, rfl⟩

end Declaration

end Recordsmith
