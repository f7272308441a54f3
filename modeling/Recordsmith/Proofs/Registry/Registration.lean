import Mathlib.Data.List.Basic
import Mathlib.Data.List.Induction
import Mathlib.Logic.Function.Basic
import Recordsmith.Registry

/-!
Runs of registrations. Whatever is registered, the languages in service stay the same, in the same order, and each is
served by the kit that was accepted last for it; what is refused leaves no trace. So which kit serves a file is decided by
the extensions of the kits that the languages have at present, in the order of the languages.
-/

namespace Recordsmith

/-- The kit of a language before anything is registered. -/
def LanguageKit.own : Language → LanguageKit
  | .swift => .swift
  | .java => .java

/-- The kit that a candidate is, if it is one. -/
def Candidate.kit? : Candidate → Option LanguageKit
  | .kit k => some k
  | .foreign _ => none

namespace Registry
variable {r : Registry} {kitOf : Language → LanguageKit} {language : Language} {k : LanguageKit}
  {languages : List Language} {calls : List (Language × Candidate)}

/-- The registry after a call. A refused call leaves it as it is. -/
def afterCall (r : Registry) (call : Language × Candidate) : Registry := (r.register call.1 call.2).toOption.getD r

/-- The registry after calls one after another. -/
def run (r : Registry) (calls : List (Language × Candidate)) : Registry := calls.foldl afterCall r

/-- The kit that was accepted last for a language, or else its own. -/
def lastKit (calls : List (Language × Candidate)) (language : Language) : LanguageKit :=
  (calls.filterMap fun call => if call.1 = language then call.2.kit? else none).getLast?.getD (.own language)

/-- Every language is in service, in the order in which they are offered, each with the kit given for it. -/
def Serves (r : Registry) (kitOf : Language → LanguageKit) : Prop :=
  r.kits = Language.all.map fun language => (language, kitOf language)

/-! ### One call -/

theorem put_map (hdistinct : languages.Nodup) (hmem : language ∈ languages) :
    put k language (languages.map fun other => (other, kitOf other)) =
      languages.map fun other => (other, Function.update kitOf language k other) := by
  induction languages with
  | nil => cases hmem
  | cons first rest ih =>
    obtain ⟨hfirst, hrest⟩ := List.nodup_cons.mp hdistinct
    rw [List.map_cons, List.map_cons, put]
    split
    · rename_i heq
      obtain rfl : first = language := heq
      have hsame : rest.map (fun other => (other, Function.update kitOf first k other)) =
          rest.map fun other => (other, kitOf other) := List.map_congr_left fun other hother =>
        congrArg (Prod.mk other) (Function.update_of_ne (ne_of_mem_of_not_mem hother hfirst) k kitOf)
      rw [hsame, Function.update_self]
    · rename_i hne
      rw [Function.update_of_ne hne, ih hrest ((List.mem_cons.mp hmem).resolve_left (Ne.symm hne))]

theorem Serves.afterCall_kit (h : r.Serves kitOf) (language : Language) (k : LanguageKit) :
    (r.afterCall (language, .kit k)).Serves (Function.update kitOf language k) := by
  have hput : (r.afterCall (language, .kit k)).kits = put k language r.kits := rfl
  rw [Serves, hput, h]
  exact put_map (by decide) (by cases language <;> decide)

theorem afterCall_foreign (r : Registry) (language : Language) (className : String) :
    r.afterCall (language, .foreign className) = r := rfl

/-! ### Runs -/

theorem run_append (r : Registry) (calls : List (Language × Candidate)) (call : Language × Candidate) :
    r.run (calls ++ [call]) = (r.run calls).afterCall call := by
  rw [run, List.foldl_append]
  rfl

theorem lastKit_append_kit (calls : List (Language × Candidate)) (language : Language) (k : LanguageKit) :
    lastKit (calls ++ [(language, .kit k)]) = Function.update (lastKit calls) language k := by
  funext other
  by_cases h : language = other
  · subst h
    simp [lastKit, Candidate.kit?]
  · simp [lastKit, h, Function.update_of_ne (Ne.symm h)]

theorem lastKit_append_foreign (calls : List (Language × Candidate)) (language : Language) (className : String) :
    lastKit (calls ++ [(language, .foreign className)]) = lastKit calls := by
  funext other
  simp [lastKit, Candidate.kit?]

theorem serves_run (calls : List (Language × Candidate)) : (initial.run calls).Serves (lastKit calls) := by
  induction calls using List.reverseRecOn with
  | nil => rfl
  | append_singleton calls call ih =>
    obtain ⟨language, candidate⟩ := call
    rw [run_append]
    cases candidate with
    | kit k =>
      rw [lastKit_append_kit]
      exact ih.afterCall_kit language k
    | foreign className =>
      rw [lastKit_append_foreign, afterCall_foreign]
      exact ih

/-! ### What a registry answers -/

namespace Serves

theorem names (h : r.Serves kitOf) : r.names = Language.all.map (·.name) := by
  rw [Registry.names, Registry.languages, h, List.map_map]
  rfl

theorem kit? (h : r.Serves kitOf) (language : Language) : r.kit? language = some (kitOf language) := by
  rw [Registry.kit?, h]
  cases language <;> rfl

theorem get (h : r.Serves kitOf) (language : Language) : r.get language.name = .ok (kitOf language) := by
  rw [Registry.get, Language.ofName?_name, Option.bind_some, h.kit?]

/-- The first language whose kit knows the extension of a file decides which kit serves the file. -/
theorem forPath (h : r.Serves kitOf) (path : Path) :
    r.forPath path =
      match Language.all.find? fun language => Text.lowerCase path.suffix ∈ (kitOf language).extensions with
      | some language => .ok (kitOf language)
      | none => .error (.noKitFor path.name (Language.all.map (·.name))) := by
  have hknows : (fun entry : Language × LanguageKit => decide (Text.lowerCase path.suffix ∈ entry.2.extensions)) ∘
      (fun language => (language, kitOf language)) =
      fun language => decide (Text.lowerCase path.suffix ∈ (kitOf language).extensions) := rfl
  rw [Registry.forPath, h.names, h, List.find?_map, hknows]
  cases Language.all.find? fun language => Text.lowerCase path.suffix ∈ (kitOf language).extensions with
  | some language => rfl
  | none => rfl

theorem exists_forPath_eq_error_iff (h : r.Serves kitOf) (path : Path) :
    (∃ e, r.forPath path = .error e) ↔ ∀ language, Text.lowerCase path.suffix ∉ (kitOf language).extensions := by
  have hall : ∀ language, language ∈ Language.all := by
    intro language
    cases language <;> decide
  rw [h.forPath]
  split
  · rename_i language hfound
    have hknown := List.find?_some hfound
    exact iff_of_false (by simp) fun hnone => hnone language (by simpa using hknown)
  · rename_i hnone
    exact iff_of_true ⟨_, rfl⟩ fun language => by simpa using List.find?_eq_none.mp hnone language (hall language)

end Serves

/-- After any calls a call with a class that is no kit is refused and changes nothing, a language has the kit that was
    accepted last for it, the languages are listed in the same order, and a file has the kit of the first of them whose
    present kit lists the file's extension in lower case. A language that is given decides alone. -/
theorem registrations_serve_last_kit (calls : List (Language × Candidate)) :
    (∀ language className,
      (initial.run calls).register language (.foreign className) = .error (.notKit className) ∧
      initial.run (calls ++ [(language, .foreign className)]) = initial.run calls) ∧
    (∀ language : Language, (initial.run calls).get language.name = .ok (lastKit calls language)) ∧
    (initial.run calls).names = ["swift", "java"] ∧
    (∀ path, (initial.run calls).forPath path =
      match [Language.swift, Language.java].find? fun language =>
        Text.lowerCase path.suffix ∈ (lastKit calls language).extensions with
      | some language => .ok (lastKit calls language)
      | none => .error (.noKitFor path.name ["swift", "java"])) ∧
    (∀ path, (∃ e, (initial.run calls).forPath path = .error e) ↔
      ∀ language, Text.lowerCase path.suffix ∉ (lastKit calls language).extensions) ∧
    ∀ language path, (initial.run calls).lookup (some language) path = .ok (lastKit calls language) := by
  have h := serves_run calls
  refine ⟨fun language className => ⟨rfl, ?_⟩, h.get, h.names, h.forPath, h.exists_forPath_eq_error_iff, ?_⟩
  · rw [run_append, afterCall_foreign]
  · intro language path
    rw [lookup, h.get]

-- A language that another one's kit serves is asked first about the files of that kit, and its own files have no kit.
example : (initial.run [(.swift, .kit .java), (.java, .foreign "dict")]).forPath (.ofText "src/A.SWIFT") =
    .error (.noKitFor "A.SWIFT" ["swift", "java"]) := by rfl

end Registry

end Recordsmith
