/-!
Command-line arguments. Options may stand anywhere between the operands: long ones take their value after an equals sign
or as the next argument, and short ones may be joined, the last of them with its value. Two dashes end the options.
-/

namespace Recordsmith.Command

/-- An option of a command. -/
structure OptionSpec where
  name : String
  long : String
  short : Option Char := none
  takesValue : Bool := true
  deriving DecidableEq, Repr

/-- What was given: options with their values, in their order, and operands. -/
structure Given where
  options : List (String × String) := []
  operands : List String := []
  deriving DecidableEq, Repr, Inhabited

namespace Given

def withOption (g : Given) (spec : OptionSpec) (value : String) : Given :=
  { g with options := g.options ++ [(spec.name, value)] }

/-- The last value of an option. -/
def value? (g : Given) (name : String) : Option String := ((g.options.filter (·.1 == name)).getLast?).map (·.2)

def isSet (g : Given) (name : String) : Bool := (g.value? name).isSome

end Given

/-- Joined short options after their dash: what is given so far and the arguments that are left. -/
def shortOptions (specs : List OptionSpec) (g : Given) : List Char → List String → Option (Given × List String)
  | [], rest => some (g, rest)
  | c :: more, rest =>
    match specs.find? (·.short == some c) with
    | none => none
    | some spec =>
      if spec.takesValue then
        match more, rest with
        | [], [] => none
        | [], value :: rest => some (g.withOption spec value, rest)
        | value, rest => some (g.withOption spec (String.ofList value), rest)
      else shortOptions specs (g.withOption spec "") more rest

/-- A long option with its dashes. -/
def longOption (specs : List OptionSpec) (g : Given) (argument : List Char) (rest : List String) :
    Option (Given × List String) :=
  let name := argument.takeWhile (· != '=')
  let value := argument.drop name.length
  match specs.find? (·.long.toList == name) with
  | none => none
  | some spec =>
    match spec.takesValue, value, rest with
    | true, '=' :: value, rest => some (g.withOption spec (String.ofList value), rest)
    | true, _, next :: rest => some (g.withOption spec next, rest)
    | true, _, [] => none
    | false, [], rest => some (g.withOption spec "", rest)
    | false, _, _ => none

/-- What one argument gives, and the arguments that are left after it and its value. -/
def argument? (specs : List OptionSpec) (g : Given) (argument : String) (rest : List String) :
    Option (Given × List String) :=
  match argument.toList with
  | '-' :: '-' :: name => longOption specs g ('-' :: '-' :: name) rest
  | '-' :: c :: more => shortOptions specs g (c :: more) rest
  | _ => some ({ g with operands := g.operands ++ [argument] }, rest)

section
variable {specs : List OptionSpec} {g h : Given} {rest left : List String}

theorem length_of_shortOptions {chars : List Char} (hshort : shortOptions specs g chars rest = some (h, left)) :
    left.length ≤ rest.length := by
  induction chars generalizing g with
  | nil =>
    cases hshort
    exact Nat.le_refl _
  | cons c more ih =>
    simp only [shortOptions] at hshort
    split at hshort
    · cases hshort
    · split at hshort
      · split at hshort
        · cases hshort
        · cases hshort
          simp
        · cases hshort
          exact Nat.le_refl _
      · exact ih hshort

theorem length_of_longOption {argument : List Char} (hlong : longOption specs g argument rest = some (h, left)) :
    left.length ≤ rest.length := by
  unfold longOption at hlong
  dsimp only at hlong
  split at hlong
  · cases hlong
  · split at hlong <;> cases hlong <;> simp

theorem length_of_argument? {argument : String} (hargument : argument? specs g argument rest = some (h, left)) :
    left.length ≤ rest.length := by
  unfold argument? at hargument
  split at hargument
  · exact length_of_longOption hargument
  · exact length_of_shortOptions hargument
  · cases hargument
    exact Nat.le_refl _

end

/-- What the arguments give; none if an option is unknown or lacks its value, or has one that it does not take. -/
def parse (specs : List OptionSpec) (g : Given) (arguments : List String) : Option Given :=
  match arguments with
  | [] => some g
  | argument :: rest =>
    if argument = "--" then some { g with operands := g.operands ++ rest }
    else match _h : argument? specs g argument rest with
      | none => none
      | some (h, left) => parse specs h left
termination_by arguments.length
decreasing_by exact Nat.lt_succ_of_le (length_of_argument? _h)

/-- What the arguments give, in the order in which they stand. -/
def Given.ofArguments? (specs : List OptionSpec) (arguments : List String) : Option Given := parse specs {} arguments

/-! ### Help -/

/-- Every command can be asked for help. -/
def helpOption : OptionSpec := { name := "help", long := "--help", takesValue := false }

/-- Whether arguments that are nothing but right apart from that ask for help. -/
def asksHelp (specs : List OptionSpec) (arguments : List String) : Bool :=
  (Given.ofArguments? (helpOption :: specs) arguments).any (·.isSet "help")

def isOption (argument : String) : Bool :=
  match argument.toList with
  | ['-', '-'] => false
  | '-' :: _ :: _ => true
  | _ => false

/-- Whether arguments ask for help in front of any command, and for nothing else there. -/
def opensWithHelp (arguments : List String) : Bool :=
  let options := arguments.takeWhile isOption
  !options.isEmpty && options.all (· == helpOption.long)

end Recordsmith.Command
