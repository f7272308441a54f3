import Recordsmith.Proofs.Expansion.Failure

/-!
The two modes. All that strict mode does is to refuse marked records with a stored member that lacks a name or a type.
Where it refuses nothing, an expansion gives what it gives outside of strict mode, and what fails outside of strict mode
fails in it.
-/

namespace Recordsmith

open Recordsmith.Tree (SourceTree)

/-- The options in strict mode, or outside of it. -/
def Synthesis.inMode (options : Synthesis) (strict : Bool) : Synthesis := { options with strict }

def Config.inMode (config : Config) (strict : Bool) : Config :=
  { config with synthesis := config.synthesis.inMode strict }

/-! ### Runs that refuse more than others -/

section Runs
variable {ε ε' α β : Type}

/-- The first run gives what the second one gives, unless it fails. -/
def OnlyRefuses (strict lax : Except ε α) : Prop := ∀ a, strict = .ok a → lax = .ok a

namespace OnlyRefuses
variable {strict lax : Except ε α}

theorem refl (x : Except ε α) : OnlyRefuses x x := fun _ => id

theorem exists_error (h : OnlyRefuses strict lax) {e : ε} (he : lax = .error e) : ∃ e', strict = .error e' := by
  cases hs : strict with
  | error e' => exact ⟨e', rfl⟩
  | ok a =>
    rw [h a hs] at he
    cases he

theorem eq_ok_iff (h : OnlyRefuses strict lax) {a : α} (ha : lax = .ok a) :
    strict = .ok a ↔ ¬∃ e, strict = .error e := by
  cases hs : strict with
  | error e => simp
  | ok b =>
    obtain rfl := Except.ok.inj ((h b hs).symm.trans ha)
    simp

theorem bind {f g : α → Except ε β} (h : OnlyRefuses strict lax) (hfg : ∀ a, OnlyRefuses (f a) (g a)) :
    OnlyRefuses (strict >>= f) (lax >>= g) := by
  intro b hb
  obtain ⟨a, ha, hb⟩ := bind_eq_ok hb
  rw [h a ha]
  exact hfg a b hb

theorem mapError (h : OnlyRefuses strict lax) (f : ε → ε') : OnlyRefuses (strict.mapError f) (lax.mapError f) := by
  intro a ha
  rw [h a (mapError_eq_ok ha)]
  rfl

end OnlyRefuses

end Runs

/-! ### Assembly -/

namespace Declaration
variable {d : Declaration} {options : Synthesis}

theorem assemble_onlyRefuses (d : Declaration) (options : Synthesis) :
    OnlyRefuses (d.assemble (options.inMode true)) (d.assemble (options.inMode false)) := by
  intro members h
  by_cases hr : d.isRecord = true
  · obtain ⟨hnone, rfl⟩ := assemble_eq_ok hr h
    have hlax : fault? d.name false [] d.fields = none :=
      fault?_eq_none_iff.mpr ⟨fun hstrict => absurd hstrict Bool.false_ne_true, (fault?_eq_none_iff.mp hnone).2⟩
    rw [assemble, if_pos hr]
    simp only [Synthesis.inMode, hlax]
  · rw [assemble, if_neg hr] at h ⊢
    exact h

/-- Strict mode has one more fault than there is outside of it. -/
theorem isFaulty_true_iff : d.IsFaulty true ↔ d.IsFaulty false ∨ ∃ m ∈ d.storedMembers, ¬m.IsComplete := by
  have hincomplete : ∀ m : Member, ¬m.IsComplete ↔ m.name = none ∨ m.type = none := by
    intro m
    rw [Member.IsComplete, not_and_or, Option.not_isSome_iff_eq_none, Option.not_isSome_iff_eq_none]
  simp [IsFaulty, hincomplete]

theorem not_isFaulty_true_iff (h : ¬d.IsFaulty false) : ¬d.IsFaulty true ↔ ∀ m ∈ d.storedMembers, m.IsComplete := by
  simp only [isFaulty_true_iff, h, false_or, not_exists, not_and, not_not]

/-- Of the members that are generated outside of strict mode, it refuses those of records with an incomplete stored
    member. -/
theorem assemble_strict_iff {members : List GeneratedMember} (h : d.assemble (options.inMode false) = .ok members) :
    d.assemble (options.inMode true) = .ok members ↔ (d.isRecord = true → ∀ m ∈ d.storedMembers, m.IsComplete) := by
  have hlax : d.isRecord = true → ¬d.IsFaulty false := by
    intro hr hfaulty
    obtain ⟨e, he⟩ : ∃ e, d.assemble (options.inMode false) = .error e :=
      exists_assemble_eq_error_iff.mpr ⟨hr, hfaulty⟩
    rw [h] at he
    cases he
  rw [(d.assemble_onlyRefuses options).eq_ok_iff h, exists_assemble_eq_error_iff, not_and]
  exact imp_congr_right fun hr => not_isFaulty_true_iff (hlax hr)

end Declaration

/-! ### Expansion -/

namespace Expansion
variable {renderer : Code.Renderer} {source : List Char} {config : Config}

theorem treat_onlyRefuses (d : Declaration) (span : Span) (markerStart : Int) :
    OnlyRefuses (treat renderer source (config.inMode true) d span markerStart)
      (treat renderer source (config.inMode false) d span markerStart) :=
  (d.assemble_onlyRefuses config.synthesis).bind fun _ => .refl _

theorem treatments_onlyRefuses (declarations : List Declaration) :
    OnlyRefuses (treatments renderer source (config.inMode true) declarations)
      (treatments renderer source (config.inMode false) declarations) := by
  induction declarations with
  | nil => exact .refl _
  | cons d rest ih =>
    rw [treatments, treatments]
    cases d.span with
    | none => exact ih
    | some span =>
      cases hmarker : span.markerStart with
      | none =>
        simp only [hmarker]
        exact ih
      | some markerStart =>
        simp only [hmarker]
        exact (treat_onlyRefuses d span markerStart).bind fun _ => ih.bind fun _ => .refl _

theorem exists_treatments_eq_error_iff {declarations : List Declaration} :
    (∃ e, treatments renderer source config declarations = .error e) ↔
      ∃ r ∈ declarations, r.Fails config.synthesis.strict := by
  rw [← exists_firstIn_iff]
  simp only [treatments_eq_error_iff]
  constructor
  · rintro ⟨-, r, -, hr, -, -⟩
    exact ⟨r, hr⟩
  · rintro ⟨r, hr⟩
    obtain ⟨m, hm⟩ := Declaration.isFaulty_iff_exists_first.mp hr.holds.2.2
    exact ⟨_, r, m, hr, hm, rfl⟩

end Expansion

namespace LanguageKit
variable {k : LanguageKit} {source : List Char} {tree : SourceTree} {config : Config} {declarations : List Declaration}

theorem expandTree_onlyRefuses (k : LanguageKit) (source : List Char) (tree : SourceTree) (config : Config) :
    OnlyRefuses (k.expandTree source tree (config.inMode true)) (k.expandTree source tree (config.inMode false)) :=
  -- The marker is the same in both modes, and so are the declarations that are read.
  OnlyRefuses.bind (.refl _) fun declarations =>
    ((Expansion.treatments_onlyRefuses declarations).mapError _).bind fun _ => .refl _

theorem expandTree_of_extract (h : k.dialect.extract source tree config.synthesis.marker = .ok declarations) :
    k.expandTree source tree config =
      ((Expansion.treatments k.renderer source config declarations).mapError .synthesis).map
        (Expansion.ofTreatments source) := by
  unfold expandTree
  rw [h]
  show ((Expansion.treatments k.renderer source config declarations).mapError ExpansionError.synthesis >>= _) = _
  cases Expansion.treatments k.renderer source config declarations <;> rfl

theorem exists_expandTree_eq_error_iff
    (h : k.dialect.extract source tree config.synthesis.marker = .ok declarations) :
    (∃ e, k.expandTree source tree config = .error e) ↔ ∃ r ∈ declarations, r.Fails config.synthesis.strict := by
  have htreatments : (∃ e, Expansion.treatments k.renderer source config declarations = .error e) ↔
      ∃ r ∈ declarations, r.Fails config.synthesis.strict := Expansion.exists_treatments_eq_error_iff
  rw [expandTree_of_extract h, ← htreatments]
  cases Expansion.treatments k.renderer source config declarations with
  | error e => exact ⟨fun _ => ⟨e, rfl⟩, fun _ => ⟨.synthesis e, rfl⟩⟩
  | ok treatments => simp [Except.mapError, Except.map]

/-- Of what can be expanded outside of strict mode, it refuses sources in which a marked record has an incomplete stored
    member. -/
theorem expandTree_strict_iff (h : k.dialect.extract source tree config.synthesis.marker = .ok declarations)
    {e : Expansion} (he : k.expandTree source tree (config.inMode false) = .ok e) :
    k.expandTree source tree (config.inMode true) = .ok e ↔
      ∀ r ∈ declarations, r.isMarked = true → r.isRecord = true → ∀ m ∈ r.storedMembers, m.IsComplete := by
  have hfails (strict : Bool) : (∃ error, k.expandTree source tree (config.inMode strict) = .error error) ↔
      ∃ r ∈ declarations, r.Fails strict := exists_expandTree_eq_error_iff h
  have hlax : ∀ r ∈ declarations, ¬r.Fails false := by
    intro r hr hfail
    obtain ⟨error, herror⟩ := (hfails false).mpr ⟨r, hr, hfail⟩
    rw [he] at herror
    cases herror
  rw [(k.expandTree_onlyRefuses source tree config).eq_ok_iff he, hfails, not_exists]
  refine forall_congr' fun r => ?_
  rw [not_and]
  refine imp_congr_right fun hr => ?_
  rw [Declaration.Fails, not_and, not_and]
  refine imp_congr_right fun hmarked => imp_congr_right fun hrecord => ?_
  exact Declaration.not_isFaulty_true_iff fun hfaulty => hlax r hr ⟨hmarked, hrecord, hfaulty⟩

end LanguageKit

/-- An expansion that succeeds in strict mode gives the same result outside of it, and one that fails outside of strict
    mode fails in it; of those that succeed outside of it, strict mode refuses exactly the ones with a marked record
    that has a stored member without a name or a type. The same holds of the members of a single declaration. -/
theorem strict_mode_only_refuses (k : LanguageKit) (source : List Char) (tree : SourceTree) (config : Config) :
    (∀ e, k.expandTree source tree (config.inMode true) = .ok e →
      k.expandTree source tree (config.inMode false) = .ok e) ∧
    (∀ error, k.expandTree source tree (config.inMode false) = .error error →
      ∃ error', k.expandTree source tree (config.inMode true) = .error error') ∧
    (∀ declarations e, k.dialect.extract source tree config.synthesis.marker = .ok declarations →
      k.expandTree source tree (config.inMode false) = .ok e →
      (k.expandTree source tree (config.inMode true) = .ok e ↔
        ∀ r ∈ declarations, r.isMarked = true → r.isRecord = true → ∀ m ∈ r.storedMembers, m.IsComplete)) ∧
    ∀ (d : Declaration) (options : Synthesis),
      (∀ members, d.assemble (options.inMode true) = .ok members → d.assemble (options.inMode false) = .ok members) ∧
      (∀ error, d.assemble (options.inMode false) = .error error →
        ∃ error', d.assemble (options.inMode true) = .error error') ∧
      (∀ members, d.assemble (options.inMode false) = .ok members →
        (d.assemble (options.inMode true) = .ok members ↔
          (d.isRecord = true → ∀ m ∈ d.storedMembers, m.IsComplete))) := by
  have hexpand := k.expandTree_onlyRefuses source tree config
  refine ⟨hexpand, fun _ => hexpand.exists_error, ?_, ?_⟩
  · intro declarations e hextract he
    exact LanguageKit.expandTree_strict_iff hextract he
  · intro d options
    have hassemble := d.assemble_onlyRefuses options
    exact ⟨hassemble, fun _ => hassemble.exists_error, fun _ => Declaration.assemble_strict_iff⟩

open Sample in
/-- The pair is expanded in both modes alike, and the twins in neither. -/
theorem strict_mode_only_refuses_pair :
    (∃ e, LanguageKit.swift.expandTree pairSource pairTree (Config.inMode {} true) = .ok e ∧
      LanguageKit.swift.expandTree pairSource pairTree (Config.inMode {} false) = .ok e ∧ e.expanded = ["P"]) ∧
    (∃ error, LanguageKit.swift.expandTree twinSource pairTree (Config.inMode {} false) = .error error) ∧
    ∃ error, LanguageKit.swift.expandTree twinSource pairTree (Config.inMode {} true) = .error error := by
  obtain ⟨hpair, -⟩ := strict_mode_only_refuses .swift pairSource pairTree {}
  obtain ⟨-, htwin, -⟩ := strict_mode_only_refuses .swift twinSource pairTree {}
  have hnames : (LanguageKit.swift.expandTree pairSource pairTree (Config.inMode {} true)).toOption.map (·.expanded) =
      some ["P"] := by decide +kernel
  have hfails : LanguageKit.swift.expandTree twinSource pairTree (Config.inMode {} false) =
      .error (.synthesis (.duplicate "P" "x")) := by decide +kernel
  obtain ⟨e, he, hexpanded⟩ := Option.map_eq_some_iff.mp hnames
  have hok := Tree.eq_ok_of_toOption he
  exact ⟨⟨e, hok, hpair e hok, hexpanded⟩, ⟨_, hfails⟩, htwin _ hfails⟩

end Recordsmith
