import Recordsmith.Proofs.Expansion.Treatment
import Recordsmith.Proofs.Record.Faults
import Recordsmith.Proofs.Expansion.Strict

/-!
When an expansion fails. Once the declarations of a tree are read, only a marked record with a fault makes it fail: the
first of them in the order of the declarations, with what is wrong with the first of its members that offends.
-/

namespace Recordsmith

open Recordsmith.Tree (SourceTree)

/-! ### Steps that fail -/

section Steps
variable {ε ε' α β : Type}

theorem bind_eq_error_iff {x : Except ε α} {f : α → Except ε β} {e : ε} :
    (x >>= f) = .error e ↔ x = .error e ∨ ∃ a, x = .ok a ∧ f a = .error e := by
  cases x with
  | error e' => simp [bind, Except.bind]
  | ok a => simp [bind, Except.bind]

theorem mapError_eq_error_iff {x : Except ε α} {f : ε → ε'} {e' : ε'} :
    x.mapError f = .error e' ↔ ∃ e, x = .error e ∧ e' = f e := by
  cases x with
  | error e => simp [Except.mapError, eq_comm]
  | ok a => simp [Except.mapError]

end Steps

/-! ### Treatments that fail -/

/-- A marked record that cannot be generated. -/
def Declaration.Fails (strict : Bool) (d : Declaration) : Prop :=
  d.isMarked = true ∧ d.isRecord = true ∧ d.IsFaulty strict

namespace Expansion
variable {renderer : Code.Renderer} {source : List Char} {config : Config} {d : Declaration} {rest : List Declaration}
  {e : SynthesisError}

theorem treat_eq_error_iff {span : Span} {markerStart : Int} :
    treat renderer source config d span markerStart = .error e ↔ d.assemble config.synthesis = .error e := by
  unfold treat
  rw [bind_eq_error_iff]
  constructor
  · rintro (h | ⟨members, -, h⟩)
    · exact h
    · split at h <;> cases h
  · exact Or.inl

theorem treatments_cons_of_not_marked (h : d.isMarked = false) :
    treatments renderer source config (d :: rest) = treatments renderer source config rest := by
  rw [treatments]
  cases hspan : d.span with
  | none => rfl
  | some span =>
    cases hmark : span.markerStart with
    | none => simp only [hmark]
    | some markerStart => simp [Declaration.isMarked, hspan, hmark] at h

theorem treatments_cons_of_error (h : d.isMarked = true) (he : d.assemble config.synthesis = .error e) :
    treatments renderer source config (d :: rest) = .error e := by
  obtain ⟨markerStart, hmarker⟩ := Option.isSome_iff_exists.mp h
  obtain ⟨span, hspan, hmark⟩ := Option.bind_eq_some_iff.mp hmarker
  rw [treatments]
  simp only [hspan, hmark]
  exact bind_eq_error_iff.mpr (Or.inl (treat_eq_error_iff.mpr he))

theorem treatments_cons_of_ok (h : d.isMarked = true) {members : List GeneratedMember}
    (hok : d.assemble config.synthesis = .ok members) :
    treatments renderer source config (d :: rest) = .error e ↔ treatments renderer source config rest = .error e := by
  obtain ⟨markerStart, hmarker⟩ := Option.isSome_iff_exists.mp h
  obtain ⟨span, hspan, hmark⟩ := Option.bind_eq_some_iff.mp hmarker
  rw [treatments]
  simp only [hspan, hmark]
  cases hfirst : treat renderer source config d span markerStart with
  | error e' =>
    rw [treat_eq_error_iff, hok] at hfirst
    cases hfirst
  | ok first =>
    rw [bind_eq_error_iff]
    constructor
    · rintro (herror | ⟨_, -, hrest⟩)
      · cases herror
      · rcases bind_eq_error_iff.mp hrest with hrest | ⟨more, -, hreturn⟩
        · exact hrest
        · cases hreturn
    · exact fun hrest => Or.inr ⟨first, rfl, bind_eq_error_iff.mpr (Or.inl hrest)⟩

/-- The treatments fail at the first marked record with a fault. -/
theorem treatments_eq_error_iff {declarations : List Declaration} :
    treatments renderer source config declarations = .error e ↔
      ∃ r m, FirstIn (fun _ => Declaration.Fails config.synthesis.strict) declarations r ∧
        FirstIn (Member.Offends config.synthesis.strict) r.storedMembers m ∧ e = m.fault r.name := by
  let P : List Declaration → Declaration → Prop := fun _ => Declaration.Fails config.synthesis.strict
  show _ ↔ ∃ r m, FirstIn P declarations r ∧ _
  induction declarations with
  | nil => simp [treatments, not_firstIn_nil]
  | cons d rest ih =>
    by_cases hmarked : d.isMarked = true
    · cases hassemble : d.assemble config.synthesis with
      | error found =>
        -- This declaration fails, and those after it are never looked at.
        have hfails : P [] d := ⟨hmarked, Declaration.exists_assemble_eq_error_iff.mp ⟨found, hassemble⟩⟩
        obtain ⟨hrecord, m, hfirst, hfault⟩ := Declaration.assemble_eq_error_iff.mp hassemble
        rw [treatments_cons_of_error hmarked hassemble]
        constructor
        · intro h
          obtain rfl := Except.error.inj h
          exact ⟨d, m, (firstIn_cons_of_pos hfails).mpr rfl, hfirst, hfault⟩
        · rintro ⟨r, m', hr, hm', rfl⟩
          obtain rfl := (firstIn_cons_of_pos hfails).mp hr
          have hsame := Declaration.assemble_eq_error_iff.mpr ⟨hrecord, m', hm', rfl⟩
          rw [hassemble] at hsame
          exact congrArg Except.error (Except.error.inj hsame)
      | ok members =>
        have hfails : ¬P [] d := by
          rintro ⟨-, hfaulty⟩
          obtain ⟨found, herror⟩ := Declaration.exists_assemble_eq_error_iff.mpr hfaulty
          rw [hassemble] at herror
          cases herror
        rw [treatments_cons_of_ok hmarked hassemble, ih]
        simp only [firstIn_cons_of_neg hfails]
        rfl
    · have hfails : ¬P [] d := fun h => hmarked h.1
      rw [treatments_cons_of_not_marked (by simpa using hmarked), ih]
      simp only [firstIn_cons_of_neg hfails]
      rfl

end Expansion

/-! ### Expansions that fail -/

/-- Given the declarations of a tree, an expansion fails exactly at the first marked record with a fault, and the error
    tells what is wrong with the first of its stored members that offends. Hence it fails exactly when some marked
    record has two fields of the same name, or in strict mode a stored member that lacks a name or a type. -/
theorem expansion_fails_at_first_fault {k : LanguageKit} {source : List Char} {tree : SourceTree} {config : Config}
    {declarations : List Declaration}
    (hextract : k.dialect.extract source tree config.synthesis.marker = .ok declarations) :
    (∀ e, k.expandTree source tree config = .error e ↔
      ∃ r m, FirstIn (fun _ => Declaration.Fails config.synthesis.strict) declarations r ∧
        FirstIn (Member.Offends config.synthesis.strict) r.storedMembers m ∧ e = .synthesis (m.fault r.name)) ∧
    ((∃ e, k.expandTree source tree config = .error (.synthesis e)) ↔
      ∃ r ∈ declarations, r.isMarked = true ∧ r.isRecord = true ∧
        (¬(r.fieldMembers.map (·.name)).Nodup ∨
          config.synthesis.strict = true ∧ ∃ m ∈ r.storedMembers, m.name = none ∨ m.type = none)) := by
  have hfails (e : ExpansionError) : k.expandTree source tree config = .error e ↔
      ∃ s, Expansion.treatments k.renderer source config declarations = .error s ∧ e = .synthesis s := by
    unfold LanguageKit.expandTree
    rw [hextract]
    show ((Expansion.treatments k.renderer source config declarations).mapError .synthesis >>= _) = .error e ↔ _
    rw [bind_eq_error_iff, mapError_eq_error_iff]
    constructor
    · rintro (h | ⟨treatments, -, h⟩)
      · exact h
      · cases h
    · exact Or.inl
  constructor
  · intro e
    rw [hfails]
    simp only [Expansion.treatments_eq_error_iff]
    constructor
    · rintro ⟨s, ⟨r, m, hr, hm, rfl⟩, rfl⟩
      exact ⟨r, m, hr, hm, rfl⟩
    · rintro ⟨r, m, hr, hm, rfl⟩
      exact ⟨m.fault r.name, ⟨r, m, hr, hm, rfl⟩, rfl⟩
  · have hfirst : (∃ r, FirstIn (fun _ => Declaration.Fails config.synthesis.strict) declarations r) ↔
        ∃ r ∈ declarations, r.Fails config.synthesis.strict := exists_firstIn_iff
    refine Iff.trans ?_ hfirst
    simp only [hfails, Expansion.treatments_eq_error_iff]
    constructor
    · rintro ⟨-, -, ⟨r, m, hr, -, -⟩, -⟩
      exact ⟨r, hr⟩
    · rintro ⟨r, hr⟩
      obtain ⟨m, hm⟩ := Declaration.isFaulty_iff_exists_first.mp hr.holds.2.2
      exact ⟨m.fault r.name, m.fault r.name, ⟨r, m, hr, hm, rfl⟩, rfl⟩

namespace Sample

/-- Two fields of the same name, in the places of `pairSource`. -/
def twinSource : List Char := "@Buildable struct P \x7b var x: Int, x: Int \x7d".toList

end Sample

open Sample in
/-- The second `x` is the first member that offends, although nothing is wrong with it alone. -/
theorem expansion_fails_at_first_fault_twin :
    ∃ declarations r m,
      LanguageKit.swift.dialect.extract twinSource pairTree strict.synthesis.marker = .ok declarations ∧
      FirstIn (fun _ => Declaration.Fails true) declarations r ∧
      FirstIn (Member.Offends true) r.storedMembers m ∧ m.fault r.name = .duplicate "P" "x" := by
  obtain ⟨declarations, hextract⟩ : ∃ declarations,
      LanguageKit.swift.dialect.extract twinSource pairTree strict.synthesis.marker = .ok declarations :=
    exists_eq_ok (by decide +kernel)
  have herror : LanguageKit.swift.expandTree twinSource pairTree strict = .error (.synthesis (.duplicate "P" "x")) := by
    decide +kernel
  obtain ⟨r, m, hr, hm, hfault⟩ := ((expansion_fails_at_first_fault hextract).1 _).mp herror
  exact ⟨declarations, r, m, hextract, hr, hm, (ExpansionError.synthesis.inj hfault).symm⟩

end Recordsmith
