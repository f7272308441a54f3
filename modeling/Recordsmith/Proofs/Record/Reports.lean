import Recordsmith.Proofs.Record.Faults
import Recordsmith.Record.Report

/-!
Reports agree with what is generated. The reports of stored members show the fields of the record, one by one. Among the
reports of a record whose members can be generated, the representable ones name the parameters of its constructor, and
those with a wither name its withers.
-/

namespace Recordsmith

/-- The field that the report of a stored member shows. -/
def Report.field (r : Report) : Field :=
  { name := r.name, type := r.type, isMutable := r.isMutable, isPrivate := r.isPrivate, hasDefault := r.hasDefault }

def GeneratedMember.wither? : GeneratedMember → Option Wither
  | .constructor _ => none
  | .wither w => some w

theorem Member.isField_iff {m : Member} : m.IsField ↔ m.IsStored ∧ m.IsComplete := by
  simp only [IsField, IsStored, IsComplete, and_assoc]

/-! ### Reports of stored members -/

namespace Declaration
variable {d : Declaration} {m : Member}

/-- How a stored member is reported. -/
def storedReport (d : Declaration) (m : Member) : Report where
  name := m.name
  type := m.type
  classification := .stored
  representable := m.IsComplete
  isPrivate := m.isPrivate
  isMutable := m.isMutable
  hasDefault := m.hasInitializer
  hasWither := d.isRecord && m.IsComplete && m.IsVisible

theorem field_storedReport (d : Declaration) (m : Member) : (d.storedReport m).field = Field.ofMember m := rfl

theorem report?_of_stored (h : m.IsStored) : d.report? m = some (d.storedReport m) := by
  have hcomplete : (Field.ofMember m).isRepresentable = decide m.IsComplete := by
    rw [Bool.eq_iff_iff, decide_eq_true_iff, Member.IsComplete, Field.isRepresentable, Bool.and_eq_true]
    rfl
  have hvisible : (!(Field.ofMember m).isPrivate) = decide m.IsVisible := by
    rw [Bool.eq_iff_iff, decide_eq_true_iff, Bool.not_eq_true', ← Member.isPrivate_eq_false_iff]
    rfl
  have hclassify : m.classify = .stored := Member.classify_eq_stored_iff.mpr h
  rw [report?, if_pos hclassify]
  simp only [hcomplete, hvisible]
  rfl

/-- A member that is not stored is reported by its name, without any flag, or not at all. -/
theorem report?_of_not_stored (h : ¬m.IsStored) :
    d.report? m = none ∨ d.report? m = some { name := m.name, type := m.type, classification := m.classify } ∧
      m.classify ≠ .stored := by
  have hclassify : m.classify ≠ .stored := mt Member.classify_eq_stored_iff.mp h
  rw [report?, if_neg hclassify]
  split
  · exact Or.inr ⟨rfl, hclassify⟩
  · exact Or.inl rfl

/-- What is picked by a flag, or by being stored, is picked from the reports of stored members. -/
theorem filter_reports (d : Declaration) {p : Report → Bool}
    (hp : ∀ name type c, c ≠ .stored → p { name, type, classification := c } = false) :
    d.reports.filter p = (d.storedMembers.filter fun m => p (d.storedReport m)).map d.storedReport := by
  unfold reports storedMembers
  induction d.members with
  | nil => rfl
  | cons m rest ih =>
    by_cases hm : m.IsStored
    · have hkept : (m :: rest).filter (·.IsStored) = m :: rest.filter (·.IsStored) :=
        List.filter_cons_of_pos (decide_eq_true hm)
      rw [List.filterMap_cons_some (report?_of_stored hm), hkept, List.filter_cons, List.filter_cons]
      split
      · rw [List.map_cons, ih]
      · exact ih
    · have hleft : (m :: rest).filter (·.IsStored) = rest.filter (·.IsStored) :=
        List.filter_cons_of_neg (mt of_decide_eq_true hm)
      rw [hleft, ← ih]
      rcases report?_of_not_stored hm with hnone | ⟨hsome, hother⟩
      · rw [List.filterMap_cons_none hnone]
      · rw [List.filterMap_cons_some hsome, List.filter_cons_of_neg]
        rw [hp _ _ _ hother]
        exact Bool.false_ne_true

/-! ### What the reports name -/

theorem filter_complete (d : Declaration) : (d.storedMembers.filter fun m => m.IsComplete) = d.fieldMembers := by
  unfold storedMembers fieldMembers
  rw [List.filter_filter]
  refine List.filter_congr fun m _ => ?_
  rw [Bool.eq_iff_iff, Bool.and_eq_true, decide_eq_true_iff, decide_eq_true_iff, decide_eq_true_iff, and_comm]
  exact Member.isField_iff.symm

/-- The fields that the reports of stored members show are the fields of the record. -/
theorem stored_reports (d : Declaration) :
    (d.reports.filter (·.classification = .stored)).map Report.field = d.fields := by
  rw [d.filter_reports fun _ _ _ hc => decide_eq_false hc, fields_eq_storedMembers, List.map_map]
  have hall : (d.storedMembers.filter fun m => (d.storedReport m).classification = .stored) = d.storedMembers :=
    List.filter_eq_self.mpr fun _ _ => rfl
  rw [hall]
  exact List.map_congr_left fun m _ => d.field_storedReport m

theorem representable_reports (d : Declaration) :
    (d.reports.filter (·.representable)).map (·.name) = d.fieldMembers.map (·.name) := by
  rw [d.filter_reports fun _ _ _ _ => rfl, List.map_map, ← filter_complete]
  rfl

theorem wither_reports (hr : d.isRecord = true) :
    (d.reports.filter (·.hasWither)).map (·.name) = (d.fieldMembers.filter (·.IsVisible)).map (·.name) := by
  rw [d.filter_reports fun _ _ _ _ => rfl, List.map_map, ← filter_complete, List.filter_filter]
  have hpick : (d.storedMembers.filter fun m => (d.storedReport m).hasWither) =
      d.storedMembers.filter fun m => decide m.IsVisible && decide m.IsComplete := by
    refine List.filter_congr fun m _ => ?_
    rw [storedReport, hr, Bool.true_and, Bool.and_comm]
  rw [hpick]
  rfl

/-- Outside of records no report promises a wither. -/
theorem wither_reports_of_not_record (hr : d.isRecord = false) : d.reports.filter (·.hasWither) = [] := by
  rw [d.filter_reports fun _ _ _ _ => rfl, List.filter_eq_nil_iff.mpr]
  · rfl
  · intro m _
    rw [storedReport, hr]
    exact Bool.false_ne_true

end Declaration

/-- The reports of stored members show the fields of the declaration, one by one and in their order. Where its members
    can be generated, the reports with a wither have the names of the generated withers, in their order; a declaration
    that is no record has no members. For a record, the representable reports have the names of the constructor's
    parameters. -/
theorem reports_agree_with_members (d : Declaration) :
    (d.reports.filter (·.classification = .stored)).map Report.field = d.fields ∧
      ∀ (options : Synthesis) (members : List GeneratedMember), d.assemble options = .ok members →
        (d.reports.filter (·.hasWither)).map (·.name) =
          (members.filterMap GeneratedMember.wither?).map (fun w => some w.name) ∧
        (d.kind = .other → members = []) ∧
        (d.kind = .value ∨ d.kind = .reference →
          ∃ (c : Constructor) (withers : List Wither), members = .constructor c :: withers.map .wither ∧
            (d.reports.filter (·.representable)).map (·.name) = c.parameters.map (fun p => some p.name)) := by
  refine ⟨d.stored_reports, fun options members h => ?_⟩
  by_cases hr : d.isRecord = true
  · obtain ⟨-, rfl⟩ := Declaration.assemble_eq_ok hr h
    refine ⟨?_, fun hkind => ?_, fun _ => ⟨_, _, rfl, ?_⟩⟩
    · have hwithers : ∀ ws : List Wither, (ws.map GeneratedMember.wither).filterMap GeneratedMember.wither? = ws := by
        intro ws
        rw [List.filterMap_map]
        exact List.filterMap_some
      rw [List.filterMap_cons_none rfl, hwithers, Declaration.withers_names, Declaration.wither_reports hr]
    · simp [Declaration.isRecord, hkind] at hr
    · have hnames := congrArg (List.map Prod.fst) d.parameters_pairs
      rw [List.map_map, List.map_map] at hnames
      rw [Declaration.representable_reports]
      exact hnames.symm
  · have hmembers : members = [] := by
      rw [Declaration.assemble, if_neg hr] at h
      exact (Except.ok.inj h).symm
    refine ⟨?_, fun _ => hmembers, fun hkind => ?_⟩
    · rw [Declaration.wither_reports_of_not_record (Bool.not_eq_true _ ▸ hr), hmembers]
      rfl
    · rcases hkind with hkind | hkind <;> simp [Declaration.isRecord, hkind] at hr

/-- The mixed class reports its five stored members as fields, three of them as parameters and two of them with a
    wither. -/
theorem reports_agree_with_members_mixed :
    (Declaration.mixed.reports.filter (·.classification = .stored)).length = 5 ∧
      ∃ (c : Constructor) (withers : List Wither),
        Declaration.mixed.assemble {} = .ok (.constructor c :: withers.map .wither) ∧
        c.parameters.map (fun p => some p.name) = [some "owner", some "value", some "limit"] ∧
        (Declaration.mixed.reports.filter (·.hasWither)).map (·.name) = [some "owner", some "value"] := by
  obtain ⟨hstored, hall⟩ := reports_agree_with_members Declaration.mixed
  have h : Declaration.mixed.assemble {} = .ok _ := rfl
  obtain ⟨hwithers, -, hconstructor⟩ := hall {} _ h
  obtain ⟨c, withers, hmembers, hnames⟩ := hconstructor (Or.inr rfl)
  refine ⟨?_, c, withers, by rw [h, hmembers], ?_, ?_⟩
  · have hlength := congrArg List.length hstored
    rw [List.length_map] at hlength
    rw [hlength]
    decide
  · rw [← hnames]
    decide
  · rw [hwithers]
    decide

end Recordsmith
