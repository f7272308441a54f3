import Recordsmith.Config.Basic
import Recordsmith.Text.Lines
import Recordsmith.Yaml.Document

/-! Configuration files. -/

namespace Recordsmith

/-- Why a configuration file gives no configuration. -/
inductive LoadError
  | config (e : ConfigError)
  | undecodable (e : Text.Utf8.DecodeError)
  | fault (f : Yaml.ScalarFault)
  | keyNotText
  deriving DecidableEq, Repr

def LoadError.message : LoadError → String
  | .config e => e.message
  | .undecodable e => e.message
  | .fault f => f.message
  | .keyNotText => "keywords must be strings"

namespace Config

def isText : Value → Bool
  | .text _ => true
  | _ => false

/-- The parameter name that the settings of a document give. -/
def namedParameter? (entries : List (Value × Value)) : Option Value :=
  match Value.entry? "synthesis" entries with
  | some (.map parts) => Value.entry? "parameter_name" parts
  | _ => none

/-- The error about a parameter name that is no identifier. -/
def parameterNameError (entries : List (Value × Value)) (name : String) : ConfigError :=
  match namedParameter? entries with
  | some (.rawText points) => .rawParameterName points
  | _ => .invalidParameterName name

/-- The configuration that a parsed file gives. -/
def ofDocument : Value → Except LoadError Config
  | .null => .error (.config .empty)
  | .map entries =>
    if entries.all (isText ·.1) then
      match ofValue (.map entries) with
      | .bad issues => .error (.config (.invalid issues))
      | .ok config =>
        if Text.isIdentifier config.synthesis.parameterName then .ok config
        else .error (.config (parameterNameError entries config.synthesis.parameterName))
    else .error .keyNotText
  | _ => .error (.config .notMapping)

/-- The configuration that a parsed file gives, or why it could not be parsed. -/
def ofReading : Except Yaml.YamlError Value → Except LoadError Config
  | .ok value => ofDocument value
  | .error .malformed => .error (.config .malformed)
  | .error (.fault f) => .error (.fault f)

/-- The configuration that a file's bytes give with a reader of documents. They are read in portions, and all line
    breaks alike. -/
def ofBytes (read : List Char → Except Yaml.YamlError Value) (bytes : List UInt8) : Except LoadError Config :=
  match Text.Utf8.decode bytes with
  | .error e => .error (.undecodable e.inPortions)
  | .ok text => ofReading (read (Text.unifyBreaks text))

/-- The configuration that a YAML text gives. -/
def ofText (text : List Char) : Except LoadError Config := ofReading (Yaml.read text)

/-- The configuration of a file that may be missing. -/
def load (path : Path) : Option (List UInt8) → Except LoadError Config
  | none => .error (.config (.fileMissing path))
  | some bytes => ofBytes Yaml.read bytes

/-- What a new configuration file says. -/
def defaultFile : String := Text.join "\n" [
  "language: null",
  "synthesis:",
  "  strict: false",
  "  parameter_name: value",
  "  marker: Buildable",
  "output:",
  "  indent: null",
  ""]

end Config

end Recordsmith
