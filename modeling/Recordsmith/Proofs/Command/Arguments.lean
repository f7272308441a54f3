import Mathlib.Data.List.Basic
import Recordsmith.Command.Arguments

/-!
What arguments give, option by option. What stands in front of other arguments is given before what these give, so an
option in front counts unless the other arguments give it too.
-/

namespace Recordsmith.Command

variable {specs : List OptionSpec} {g h : Given} {rest : List String}

/-! ### One after the other -/

/-- What is given in front of something, with that. -/
def Given.followedBy (g h : Given) : Given := ⟨g.options ++ h.options, g.operands ++ h.operands⟩

@[simp] theorem Given.followedBy_empty (g : Given) : g.followedBy {} = g := by simp [followedBy]

theorem Given.followedBy_withOption (g h : Given) (spec : OptionSpec) (value : String) :
    (g.followedBy h).withOption spec value = g.followedBy (h.withOption spec value) := by
  simp [followedBy, withOption]

/-- Of two values of an option the later one counts. -/
theorem Given.value?_followedBy (g h : Given) (name : String) :
    (g.followedBy h).value? name = (h.value? name).or (g.value? name) := by
  simp only [value?, followedBy, List.filter_append, List.getLast?_append]
  cases (h.options.filter (·.1 == name)).getLast? <;> rfl

theorem shortOptions_followedBy (g h : Given) (chars : List Char) (rest : List String) :
    shortOptions specs (g.followedBy h) chars rest =
      (shortOptions specs h chars rest).map fun (h, rest) => (g.followedBy h, rest) := by
  induction chars generalizing h with
  | nil => rfl
  | cons c more ih =>
    simp only [shortOptions]
    cases specs.find? (·.short == some c) with
    | none => rfl
    | some spec =>
      dsimp only
      cases spec.takesValue with
      | false => simpa [Given.followedBy_withOption] using ih (h.withOption spec "")
      | true =>
        cases more <;> cases rest <;> simp [Given.followedBy_withOption]

theorem longOption_followedBy (g h : Given) (argument : List Char) (rest : List String) :
    longOption specs (g.followedBy h) argument rest =
      (longOption specs h argument rest).map fun (h, rest) => (g.followedBy h, rest) := by
  unfold longOption
  dsimp only
  cases specs.find? (·.long.toList == argument.takeWhile (· != '=')) with
  | none => rfl
  | some spec =>
    dsimp only
    split <;> simp_all [Given.followedBy_withOption]

theorem argument?_followedBy (g h : Given) (argument : String) (rest : List String) :
    argument? specs (g.followedBy h) argument rest =
      (argument? specs h argument rest).map fun (h, rest) => (g.followedBy h, rest) := by
  unfold argument?
  split
  · exact longOption_followedBy g h _ rest
  · exact shortOptions_followedBy g h _ rest
  · simp [Given.followedBy]

theorem parse_cons_of_argument? {argument : String} {left : List String} (hends : argument ≠ "--")
    (hargument : argument? specs g argument rest = some (h, left)) :
    parse specs g (argument :: rest) = parse specs h left := by
  rw [parse, if_neg hends]
  split <;> simp_all

theorem parse_cons_of_refused {argument : String} (hends : argument ≠ "--")
    (hargument : argument? specs g argument rest = none) : parse specs g (argument :: rest) = none := by
  rw [parse, if_neg hends]
  split <;> simp_all

theorem parse_followedBy (g h : Given) (arguments : List String) :
    parse specs (g.followedBy h) arguments = (parse specs h arguments).map g.followedBy := by
  fun_induction parse specs h arguments with
  | case1 => simp [parse]
  | case2 h rest => simp [parse, Given.followedBy]
  | case3 h argument rest hends hargument =>
    rw [parse_cons_of_refused hends (by rw [argument?_followedBy, hargument]; rfl)]
    rfl
  | case4 h argument rest hends given left hargument ih =>
    rw [parse_cons_of_argument? hends (by rw [argument?_followedBy, hargument]; rfl), ih]

/-! ### An option in front -/

/-- A short option with its value in front of other arguments. -/
theorem ofArguments?_short {spec : OptionSpec} {c : Char} (hfind : specs.find? (·.short == some c) = some spec)
    (hvalue : spec.takesValue = true) (hc : c ≠ '-') (value : String) (arguments : List String) :
    Given.ofArguments? specs (String.ofList ['-', c] :: value :: arguments) =
      (Given.ofArguments? specs arguments).map (Given.followedBy ⟨[(spec.name, value)], []⟩) := by
  have hends : String.ofList ['-', c] ≠ "--" := fun h => hc (by simpa using congrArg String.toList h)
  have htaken : argument? specs {} (String.ofList ['-', c]) (value :: arguments) =
      some (⟨[(spec.name, value)], []⟩, arguments) := by
    simp [argument?, shortOptions, hfind, hvalue, Given.withOption]
  rw [Given.ofArguments?, parse_cons_of_argument? hends htaken, Given.ofArguments?, ← parse_followedBy,
    Given.followedBy_empty]

end Recordsmith.Command
