import Recordsmith.Log
import Recordsmith.Record.Constructor
import Recordsmith.Record.Wither
import Recordsmith.Text.Quoted

/-! Assembly: the members generated for a declaration, a constructor and then its withers. -/

namespace Recordsmith

/-- How members are generated, and which declarations are marked for it. -/
structure Synthesis where
  strict : Bool := false
  parameterName : String := "value"
  marker : String := "Buildable"
  deriving DecidableEq, Repr, Inhabited

inductive GeneratedMember
  | constructor (c : Constructor)
  | wither (w : Wither)
  deriving DecidableEq, Repr

/-- Why no members can be generated for a record. -/
inductive SynthesisError
  | unrepresentable (record : String) (field : Option String) (gap : Gap)
  | duplicate (record field : String)
  deriving DecidableEq, Repr

/-- What stands for a field that has no name. -/
def patternLabel : String := "<pattern>"

def SynthesisError.message : SynthesisError → String
  | .unrepresentable record field gap => record ++ "." ++ field.getD patternLabel ++ ": " ++ gap.reason
  | .duplicate record field => record ++ ": duplicate field '" ++ field ++ "'"

namespace Declaration

/-- The first field that keeps a record from being generated, given the names of the fields before: a field that
    repeats a name, and in strict mode one that generated code cannot speak of. -/
def fault? (record : String) (strict : Bool) : List String → List Field → Option SynthesisError
  | _, [] => none
  | seen, field :: rest =>
    match field.gap? with
    | some gap => if strict then some (.unrepresentable record field.name gap) else fault? record strict seen rest
    | none =>
      match field.name with
      | none => fault? record strict seen rest
      | some name => if name ∈ seen then some (.duplicate record name) else fault? record strict (name :: seen) rest

/-- A declaration that is no record gets no members. -/
def assemble (d : Declaration) (options : Synthesis) : Except SynthesisError (List GeneratedMember) :=
  if d.isRecord then
    match fault? d.name options.strict [] d.fields with
    | some e => .error e
    | none =>
      let constructor := Constructor.ofFields d.fields d.accessModifier d.requiresConstructor
      let withers := Wither.ofFields d.fields d.accessModifier options.parameterName
      .ok (.constructor constructor :: withers.map .wither)
  else .ok []

/-! ### Log -/

/-- The fields passed over before the first fault. -/
def skipped (record : String) (strict : Bool) : List String → List Field → List (Option String × Gap)
  | _, [] => []
  | seen, field :: rest =>
    match field.gap? with
    | some gap => if strict then [] else (field.name, gap) :: skipped record strict seen rest
    | none =>
      match field.name with
      | none => skipped record strict seen rest
      | some name => if name ∈ seen then [] else skipped record strict (name :: seen) rest

/-- What assembling a declaration tells. -/
def assemblyLog (d : Declaration) (options : Synthesis) : List LogLine :=
  if d.isRecord then
    let passed := (skipped d.name options.strict [] d.fields).map fun (name, gap) =>
      ⟨.debug, .assembly,
        "Skipping field " ++ (name.map Text.quoted).getD "None" ++ " of " ++ d.name ++ ": " ++ gap.reason⟩
    match d.assemble options with
    | .error _ => passed
    | .ok members =>
      let parameters := (Field.parameters d.fields).length
      passed ++ [⟨.info, .assembly,
        "Synthesized " ++ d.name ++ ": " ++ toString parameters ++ " constructor parameters, " ++
          toString (members.length - 1) ++ " withers"⟩]
  else [⟨.debug, .assembly, d.name ++ " is not a struct or class, nothing to generate"⟩]

end Declaration

end Recordsmith
