import Recordsmith.Code.Renderer
import Recordsmith.Config.Basic
import Recordsmith.Expansion.Edit
import Recordsmith.Total

/-!
Expansion: every marked declaration of a source loses its marker and, if it is a record, gains its generated members.
-/

namespace Recordsmith

/-- What came of expanding a source: the new text, and the names of the declarations that gained members and of those
    that could not. -/
structure Expansion where
  source : List Char
  expanded : List String := []
  skipped : List String := []
  memberCount : Nat := 0
  deriving DecidableEq, Repr, Inhabited

def Expansion.changed (e : Expansion) : Bool := !e.expanded.isEmpty || !e.skipped.isEmpty

/-- Why a source cannot be expanded. -/
inductive ExpansionError
  | undecodable (e : Text.Utf8.DecodeError)
  | synthesis (e : SynthesisError)
  deriving DecidableEq, Repr

def ExpansionError.message : ExpansionError → String
  | .undecodable e => e.message
  | .synthesis e => e.message

/-- What becomes of one marked declaration. One without members is no record. -/
structure Treatment where
  name : String
  memberCount : Nat
  edits : List Edit
  deriving DecidableEq, Repr

namespace Treatment

def isSkipped (t : Treatment) : Bool := t.memberCount == 0

end Treatment

namespace Expansion

/-- The indentation unit of generated members: the configured one unless it is empty, or the declaration's own. -/
def indentOf (output : Output) (d : Declaration) : String :=
  match output.indent with
  | some indent => if indent = "" then d.indentUnit else indent
  | none => d.indentUnit

/-- The treatment of a declaration whose span holds a marker. -/
def treat (renderer : Code.Renderer) (source : List Char) (config : Config) (d : Declaration) (span : Span)
    (markerStart : Int) : Except SynthesisError Treatment := do
  let removal : Edit := ⟨markerStart, span.markerEnd.getD markerStart, []⟩
  let members ← d.assemble config.synthesis
  if members.isEmpty then return ⟨d.name, 0, [removal]⟩
  else
    let rendered := renderer.members members d (indentOf config.output d)
    return ⟨d.name, members.length, [removal, span.insertion source rendered]⟩

/-- The treatments of the marked declarations, in their order, up to the first that fails. -/
def treatments (renderer : Code.Renderer) (source : List Char) (config : Config) :
    List Declaration → Except SynthesisError (List Treatment)
  | [] => .ok []
  | d :: rest =>
    match d.span with
    | none => treatments renderer source config rest
    | some span =>
      match span.markerStart with
      | none => treatments renderer source config rest
      | some markerStart => do
        let first ← treat renderer source config d span markerStart
        let more ← treatments renderer source config rest
        return first :: more

/-- The result of all treatments of a source. -/
def ofTreatments (source : List Char) (treatments : List Treatment) : Expansion where
  source := Edit.applyAll source (treatments.flatMap (·.edits))
  expanded := (treatments.filter (!·.isSkipped)).map (·.name)
  skipped := (treatments.filter (·.isSkipped)).map (·.name)
  memberCount := total (treatments.map (·.memberCount))

/-! ### Log -/

/-- What treating the marked declarations tells, up to the first that fails. -/
def treatmentLog (config : Config) : List Declaration → List LogLine
  | [] => []
  | d :: rest =>
    if d.isMarked then
      let own := d.assemblyLog config.synthesis
      match d.assemble config.synthesis with
      | .error _ => own
      | .ok members =>
        let ignored : List LogLine :=
          if members.isEmpty then
            [⟨.debug, .expansion, "Marker on " ++ d.name ++ " ignored: not a struct or class"⟩]
          else []
        own ++ ignored ++ treatmentLog config rest
    else treatmentLog config rest

def summary (e : Expansion) : LogLine :=
  ⟨.info, .expansion,
    "Expanded " ++ toString e.expanded.length ++ " declarations with " ++ toString e.memberCount ++ " members"⟩

end Expansion

end Recordsmith
