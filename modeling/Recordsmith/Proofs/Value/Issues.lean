import Mathlib.Data.List.Basic
import Recordsmith.Value.Reading

/-!
What the issues of a refused value say. A reader that refuses a value reports at least one issue, and the steps of each
issue lead to a part of that value at one of the places that the reader looks at. A part that has a value of its own
where it is not given is either missing or read from the value.
-/

namespace Recordsmith

/-! ### Checked values -/

namespace Checked
variable {α β : Type} {c : Checked α} {f : α → β} {g : Checked (α → β)} {b : β}

theorem map_eq_ok (h : f <$> c = .ok b) : ∃ a, c = .ok a ∧ f a = b := by
  cases c with
  | ok a => exact ⟨a, rfl, Checked.ok.inj h⟩
  | bad issues => cases h

theorem seq_eq_ok (h : g <*> c = .ok b) : ∃ f a, g = .ok f ∧ c = .ok a ∧ f a = b := by
  cases g with
  | ok f =>
    cases c with
    | ok a => exact ⟨f, a, rfl, rfl, Checked.ok.inj h⟩
    | bad issues => cases h
  | bad first => cases c <;> cases h

theorem under_eq_ok {step : Step} {a : α} (h : c.under step = .ok a) : c = .ok a := by
  cases c with
  | ok a' => exact congrArg Checked.ok (Checked.ok.inj h)
  | bad issues => cases h

end Checked

namespace Value
variable {α β : Type} {v : Value} {entries : List (Value × Value)} {places places' : List (List Step)}
  {c : Checked α} {read : Value → Checked α} {name : String} {absent a : α}

/-- The part of a value that steps lead to. -/
def part? : List Step → Value → Option Value
  | [], v => some v
  | .key name :: rest, .map entries => entry? name entries >>= part? rest
  | .index n :: rest, .list items => items[n]? >>= part? rest
  | _, _ => none

/-! ### Accepted parts -/

theorem optional_eq_ok (h : optional name read absent entries = .ok a) :
    entry? name entries = none ∧ a = absent ∨ ∃ part, entry? name entries = some part ∧ read part = .ok a := by
  unfold optional at h
  cases hentry : entry? name entries with
  | none => exact .inl ⟨rfl, by simpa [hentry, eq_comm] using h⟩
  | some part => exact .inr ⟨part, rfl, Checked.under_eq_ok (by simpa [hentry] using h)⟩

theorem readObject_eq_ok {read : List (Value × Value) → Checked α} (h : readObject read v = .ok a) :
    ∃ entries, v = .map entries ∧ read entries = .ok a := by
  cases v with
  | map entries => exact ⟨entries, rfl, h⟩
  | _ => cases h

/-! ### Issues -/

/-- A reading of a value reports no empty list of issues, and each issue leads to a part of the value that stands at
    one of some places. -/
def Locates (places : List (List Step)) (v : Value) : Checked α → Prop
  | .ok _ => True
  | .bad issues => issues ≠ [] ∧ ∀ issue ∈ issues, issue.place ∈ places ∧ (v.part? issue.place).isSome

theorem locates_fail (kind : IssueKind) : Locates [[]] v (Checked.fail kind : Checked α) := by
  simp [Locates, Checked.fail, part?]

theorem Locates.mono (h : Locates places v c) (hsub : places ⊆ places') : Locates places' v c := by
  cases c with
  | ok a => trivial
  | bad issues => exact ⟨h.1, fun issue hissue => ⟨hsub (h.2 issue hissue).1, (h.2 issue hissue).2⟩⟩

theorem Locates.map (f : α → β) (h : Locates places v c) : Locates places v (f <$> c) := by
  cases c with
  | ok a => trivial
  | bad issues => exact h

theorem Locates.seq {f : Checked (α → β)} (hf : Locates places v f) (hc : Locates places' v c) :
    Locates (places ++ places') v (f <*> c) := by
  have hleft : Locates (places ++ places') v f := hf.mono (List.subset_append_left ..)
  have hright : Locates (places ++ places') v c := hc.mono (List.subset_append_right ..)
  cases f with
  | ok f =>
    cases c with
    | ok a => trivial
    | bad issues => exact hright
  | bad first =>
    cases c with
    | ok a => exact hleft
    | bad second =>
      refine ⟨List.append_ne_nil_of_left_ne_nil hleft.1 _, fun issue hissue => ?_⟩
      exact (List.mem_append.mp hissue).elim (hleft.2 issue) (hright.2 issue)

/-- An issue of a part is one of the whole, a step further down. -/
theorem Locates.under {part : Value} (hentry : entry? name entries = some part) (h : Locates places part c) :
    Locates (places.map (.key name :: ·)) (.map entries) (c.under (.key name)) := by
  cases c with
  | ok a => trivial
  | bad issues =>
    refine ⟨by simpa using h.1, fun issue hissue => ?_⟩
    obtain ⟨inner, hinner, rfl⟩ := List.mem_map.mp hissue
    obtain ⟨hplace, hsome⟩ := h.2 inner hinner
    exact ⟨List.mem_map_of_mem hplace, by simpa [part?, hentry] using hsome⟩

/-! ### Readers -/

theorem locates_readText (v : Value) : Locates [[]] v v.readText := by
  fun_cases readText v
  all_goals first | trivial | exact locates_fail _

theorem locates_readBoolNumber (n : Int) : Locates [[]] v (readBoolNumber n) := by
  fun_cases readBoolNumber n
  all_goals first | trivial | exact locates_fail _

theorem locates_readBoolWord (word : String) : Locates [[]] v (readBoolWord word) := by
  fun_cases readBoolWord word
  all_goals first | trivial | exact locates_fail _

theorem locates_readBool (v : Value) : Locates [[]] v v.readBool := by
  fun_cases readBool v
  all_goals first
    | trivial | exact locates_readBoolNumber _ | exact locates_readBoolWord _ | exact locates_fail _

theorem locates_readPath (v : Value) : Locates [[]] v v.readPath := by
  fun_cases readPath v
  all_goals first | trivial | exact locates_fail _

/-- Looking for surrogates refuses nothing. -/
theorem locates_readRaw (v : Value) : Locates [] v v.readRaw := by
  fun_cases readRaw v <;> trivial

theorem locates_readOneOf (ofWord? : String → Option α) (v : Value) : Locates [[]] v (readOneOf ofWord? v) := by
  fun_cases readOneOf ofWord? v
  all_goals first | trivial | exact locates_fail _

theorem locates_readOption (h : ∀ v, Locates places v (read v)) (v : Value) :
    Locates places v (readOption read v) := by
  cases v with
  | null => trivial
  | _ => exact (h _).map some

/-- A value that is no object is at fault as a whole. -/
theorem locates_readObject {read : List (Value × Value) → Checked α}
    (h : ∀ entries, Locates places (.map entries) (read entries)) (v : Value) :
    Locates ([] :: places) v (readObject read v) := by
  cases v with
  | map entries => exact (h entries).mono (List.subset_cons_self ..)
  | _ => exact (locates_fail .notObject).mono (by simp)

theorem locates_optional (name : String) (absent : α) (h : ∀ v, Locates places v (read v))
    (entries : List (Value × Value)) :
    Locates (places.map (.key name :: ·)) (.map entries) (optional name read absent entries) := by
  unfold optional
  cases hentry : entry? name entries with
  | none => trivial
  | some part => exact (h part).under hentry

end Value

end Recordsmith
