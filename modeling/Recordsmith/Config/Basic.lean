import Recordsmith.Path
import Recordsmith.Record.Encoding
import Recordsmith.Text.Identifier

/-! Configurations: how declarations are expanded and where the result goes. -/

namespace Recordsmith

open Text (CodePoint)

/-- How generated members are written. Without an indentation the source's own is used, and without a path the
    result is printed. Where there are surrogates in one of them, it has a stand-in for each of them. -/
structure Output where
  indent : Option String := none
  path : Option Path := none
  /-- The indentation by its code points, if there are surrogates among them. -/
  rawIndent : Option (List CodePoint) := none
  /-- The path by its code points, if there are surrogates among them. -/
  rawPath : Option (List CodePoint) := none
  deriving DecidableEq, Repr, Inhabited

/-- Without a language the name of the source file decides. -/
structure Config where
  language : Option Language := none
  synthesis : Synthesis := {}
  output : Output := {}
  deriving DecidableEq, Repr, Inhabited

/-- Why there is no usable configuration. -/
inductive ConfigError
  | unsupportedLanguage (text : String)
  | invalidParameterName (name : String)
  /-- A parameter name with surrogates. -/
  | rawParameterName (points : List CodePoint)
  | fileMissing (path : Path)
  | malformed
  | empty
  | notMapping
  | invalid (issues : List Issue)
  deriving DecidableEq, Repr

/-- What opens the message about a file that cannot be parsed. -/
def ConfigError.malformedText : String := "Invalid YAML in configuration file"

/-- What opens the message about a file with invalid settings. -/
def ConfigError.invalidText : String := "Configuration validation failed:"

def ConfigError.message : ConfigError → String
  | .unsupportedLanguage text =>
    "Unsupported language '" ++ text ++ "'. Valid languages: " ++ Language.listing (Language.all.map (·.name))
  | .invalidParameterName name => "Invalid wither parameter name '" ++ name ++ "'"
  | .rawParameterName points =>
    "Invalid wither parameter name '" ++ CodePoint.withStandIn CodePoint.standIn points ++ "'"
  | .fileMissing path => "Configuration file not found: " ++ path.text
  | .malformed => malformedText
  | .empty => "Configuration file is empty"
  | .notMapping => "Configuration file must contain a mapping at the top level"
  | .invalid _ => invalidText

namespace Config

/-! ### Command line -/

/-- Settings given one by one. -/
structure Settings where
  language : Option String := none
  strict : Bool := false
  parameterName : String := "value"
  marker : String := "Buildable"
  indent : Option String := none
  path : Option Path := none
  deriving DecidableEq, Repr, Inhabited

/-- An empty language name counts as none. -/
def languageOf : Option String → Except ConfigError (Option Language)
  | none => .ok none
  | some text =>
    if text = "" then .ok none
    else match Language.ofText? text with
      | some language => .ok (some language)
      | none => .error (.unsupportedLanguage text)

/-- A marker may be given with the signs that attributes start with. -/
def bareMarker (marker : String) : String := String.ofList (marker.toList.dropWhile (· == '@'))

def ofSettings (s : Settings) : Except ConfigError Config := do
  let language ← languageOf s.language
  if Text.isIdentifier s.parameterName then
    return {
      language
      synthesis := { strict := s.strict, parameterName := s.parameterName, marker := bareMarker s.marker }
      output := { indent := s.indent, path := s.path } }
  else throw (.invalidParameterName s.parameterName)

/-! ### Overrides -/

/-- Settings of a command line that go before those of a configuration file. -/
structure Overrides where
  strict : Bool := false
  language : Option String := none
  path : Option Path := none
  deriving DecidableEq, Repr, Inhabited

/-- Whether nothing is overridden. -/
def Overrides.isEmpty (o : Overrides) : Bool := !o.strict && o.language.getD "" == "" && o.path.isNone

/-- Strictness is only turned on; a language and a path replace what the configuration says. -/
def override (c : Config) (o : Overrides) : Except ConfigError Config := do
  let language ← languageOf o.language
  return {
    language := language.or c.language
    synthesis := { c.synthesis with strict := c.synthesis.strict || o.strict }
    output := { c.output with
      path := o.path.or c.output.path
      rawPath := if o.path.isSome then none else c.output.rawPath } }

end Config

/-! ### Values -/

def Language.toValue (l : Language) : Value := .text l.name

/-- A text that may be missing, by its code points if there are surrogates among them. -/
def Value.ofRaw (raw : Option (List CodePoint)) (text : Option String) : Value :=
  match raw with
  | some points => .rawText points
  | none => Value.ofOption .text text

def Output.toValue (o : Output) : Value := .object [
  ("indent", Value.ofRaw o.rawIndent o.indent), ("output_path", Value.ofRaw o.rawPath (o.path.map Path.text))]

def Output.ofValue : Value → Checked Output := Value.readObject fun parts =>
  Output.mk
    <$> Value.optional "indent" (Value.readOption Value.readText) none parts
    <*> Value.optional "output_path" (Value.readOption Value.readPath) none parts
    <*> Value.optional "indent" Value.readRaw none parts
    <*> Value.optional "output_path" Value.readRaw none parts

def Config.toValue (c : Config) : Value := .object [
  ("language", Value.ofOption Language.toValue c.language), ("synthesis", c.synthesis.toValue),
  ("output", c.output.toValue)]

def Config.ofValue : Value → Checked Config := Value.readObject fun parts =>
  Config.mk
    <$> Value.optional "language" (Value.readOption (Value.readOneOf Language.ofName?)) none parts
    <*> Value.optional "synthesis" Synthesis.ofValue {} parts
    <*> Value.optional "output" Output.ofValue {} parts

end Recordsmith
