import Recordsmith.Command.Arguments
import Recordsmith.Config.File
import Recordsmith.Console.Markup
import Recordsmith.Console.Sequence
import Recordsmith.Console.Table
import Recordsmith.Record.Report
import Recordsmith.Registry
import Recordsmith.Store

/-!
The commands: `expand` writes the expansion of a source, `inspect` shows how its fields are treated, and `init` writes a
configuration file. A command works on a store of files and says what it prints. How documents, sources and markup are read
is given to it.
-/

namespace Recordsmith

open Console (MarkupError)
open Text (CodePoint)

/-! ### Surrogates in results and names -/

/-- The same configuration with another stand-in for the surrogates in its indentation. -/
def Config.twin (config : Config) : Config :=
  match config.output.rawIndent with
  | none => config
  | some points => { config with
      output := { config.output with indent := some (CodePoint.withStandIn CodePoint.twinStandIn points) } }

/-- The code points of a result, given its twin: the surrogates of the indentation stand where the two differ. -/
def Output.points (output : Output) (text twin : List Char) : List CodePoint :=
  CodePoint.ofTwins (CodePoint.surrogates (output.rawIndent.getD [])) [] text twin

/-- Why no file can be at a path: at which character it goes wrong, and what is said about it. Some surrogates stand for
    bytes in a name; a file with such a name is in a store by the name with stand-ins. -/
def Output.nameFault? (output : Output) (path : Path) : Option (Nat × String) :=
  match output.rawPath with
  | some points =>
    let twin := Path.ofText (CodePoint.withStandIn CodePoint.twinStandIn points)
    let name := CodePoint.ofTwins (CodePoint.surrogates points) [] path.text.toList twin.text.toList
    (CodePoint.encodeError? CodePoint.isFileByte name).map fun e => (e.position, e.message)
  | none =>
    if path.text.toList.contains '\x00' then some (path.text.toList.idxOf '\x00', "embedded null byte") else none

namespace Command

/-- What a command reads with: documents, the sources of each language, and markup in messages. -/
structure Readers where
  document : List Char → Except Yaml.YamlError Value
  source : Language → List Char → Tree.SourceTree
  markup : List Char → Except MarkupError (List Char)

/-- The readers of this library. -/
def Readers.builtIn : Readers where
  document := Yaml.read
  source
    | .swift => Source.SwiftSource.read
    | .java => Source.JavaSource.read
  markup := Console.render

/-- The kit of a language with a given reader of its sources. -/
def Readers.kit (r : Readers) (k : LanguageKit) : LanguageKit := { k with read := r.source k.language }

/-- The kits in service at the start, with given readers of their sources. -/
def Readers.registry (r : Readers) : Registry := ⟨Registry.initial.kits.map fun entry => (entry.1, r.kit entry.2)⟩

variable (r : Readers)

/-- What goes wrong without a message of the command's own. -/
inductive Failure
  | store (e : StoreError)
  | markup (e : MarkupError)
  /-- A message has surrogates, and so does the one that would say that it cannot be printed. -/
  | unprintable
  | load (e : LoadError)
  deriving DecidableEq, Repr

/-- How a command ends before its work is done. -/
inductive Stop
  /-- The arguments ask for something that is not there. -/
  | usage
  /-- A message, with its markup. -/
  | message (markup : String)
  | failure (f : Failure)
  deriving DecidableEq, Repr

/-- What a command has done: its exit code, what it printed, its log, and the files afterwards. -/
structure Outcome where
  exitCode : Nat
  output : List Char := []
  log : List LogLine := []
  failure : Option Failure := none
  store : Store

/-- The columns of the terminal. -/
def consoleWidth : Nat := 200

def unlinesAll (lines : List (List Char)) : List Char := lines.flatMap (· ++ ['\n'])

/-- The lines that a marked-up message prints. -/
def printed (markup : String) : Except MarkupError (List Char) :=
  (r.markup markup.toList).map fun text => unlinesAll (Console.wrap .plain true consoleWidth text)

/-- Prints messages one after another, up to one that cannot be printed. -/
def printAll (r : Readers) : List String → List Char × Option Failure
  | [] => ([], none)
  | markup :: rest =>
    match printed r markup with
    | .error e => ([], some (.markup e))
    | .ok text =>
      let (more, failure) := printAll r rest
      (text ++ more, failure)

/-- The outcome of a command that stops. -/
def Stop.outcome (store : Store) (log : List LogLine) : Stop → Outcome
  | .usage => { exitCode := 2, store }
  | .failure f => { exitCode := 1, failure := some f, log, store }
  | .message markup =>
    let (output, broken) := printAll r [markup]
    { exitCode := 1, output, failure := broken, log, store }

def Stop.ofError (message : String) : Stop :=
  .message ("[bold red]Error:[/bold red] " ++ String.ofList (Console.escape message.toList))

/-- The message about a file that cannot be parsed goes on with a reason, and one with surrogates cannot be printed. -/
def Stop.ofConfigError (e : ConfigError) : Stop :=
  let message (text : String) : Stop := .message ("[bold red]Configuration Error:[/bold red] " ++ text)
  match e with
  | .malformed => message (e.message ++ ":")
  | .rawParameterName _ => .failure .unprintable
  | _ => message e.message

/-- A scalar that cannot be what it says fails with a message if its text is at fault. -/
def Stop.ofLoadError (e : LoadError) : Stop :=
  match e with
  | .config e => .ofConfigError e
  | .undecodable _ => .ofError e.message
  | .fault (.integer _ _) => .ofError e.message
  | .fault (.float _) => .ofError e.message
  | .fault (.date _) => .ofError e.message
  | .fault .noCodePoint => .ofError e.message
  | .fault _ => .failure (.load e)
  | .keyNotText => .failure (.load e)

/-- The path of a file that must exist. -/
def existing (store : Store) (text : String) : Except Stop Path :=
  let path := Path.ofText text
  if store.exists? path then .ok path else .error .usage

/-- The text of a file, with all its line breaks read alike. -/
def sourceText (store : Store) (path : Path) : Except Stop (List Char) :=
  match store.read path with
  | .error e => .error (.failure (.store e))
  | .ok bytes =>
    match Text.Utf8.decode bytes with
    | .error e => .error (.ofError e.message)
    | .ok text => .ok (Text.unifyBreaks text)

def kitFor (language : Option Language) (path : Path) : Except Stop LanguageKit :=
  (r.registry.lookup language (some path)).mapError fun e => .ofError e.message

/-- An empty argument counts as none. -/
def nonEmpty (text : Option String) : Option String := text.filter (· ≠ "")

/-- The configuration of a command: that of a file with the command's own settings before it, or these alone. -/
def configFor (store : Store) (file language : Option String) (strict : Bool) (output : Option String) :
    Except Stop Config := do
  let path := (nonEmpty output).map Path.ofText
  match nonEmpty file with
  | none => (Config.ofSettings { language, strict, path }).mapError .ofConfigError
  | some file =>
    let filePath ← existing store file
    match store.read filePath with
    | .error e => .error (.failure (.store e))
    | .ok bytes =>
      let config ← (Config.ofBytes r.document bytes).mapError .ofLoadError
      (config.override { strict, language, path }).mapError .ofConfigError

/-! ### Expanding -/

def expandOptions : List OptionSpec := [
  { name := "output", long := "--output", short := some 'o' },
  { name := "config", long := "--config", short := some 'c' },
  { name := "language", long := "--language", short := some 'l' },
  { name := "strict", long := "--strict", takesValue := false },
  { name := "verbose", long := "--verbose", short := some 'v', takesValue := false }]

/-- What an expansion is made from. -/
structure Request where
  config : Config
  kit : LanguageKit
  source : List Char

/-- Everything is looked at before anything is written. -/
def expandRequest (g : Given) (operand : String) (store : Store) : Except Stop Request := do
  let path ← existing store operand
  let config ← configFor r store (g.value? "config") (g.value? "language") (g.isSet "strict") (g.value? "output")
  let kit ← kitFor r config.language path
  let source ← sourceText store path
  return { config, kit, source }

def savedMessage (e : Expansion) (path : Path) : String :=
  "[green]✓[/green] Expanded " ++ toString e.expanded.length ++ " declarations (" ++ toString e.memberCount ++
    " members) -> " ++ path.text

def skippedMessage (name : String) : String := "[yellow]Skipped " ++ name ++ ": not a struct or class[/yellow]"

/-- The outcome for a path that no file can be at. The directories on the way to it are made first, if they can be. -/
def refusePath (store : Store) (log : List LogLine) (path : Path) (position : Nat) (message : String) : Outcome :=
  if position < path.parent.text.length then (Stop.ofError message).outcome r store log
  else match store.ensureDirectory path.parent with
    | .error error => { exitCode := 1, failure := some (.store error.cause), log, store := error.store }
    | .ok store => (Stop.ofError message).outcome r store log

/-- Prints a result without its escape sequences, and then the messages about it. No escape sequence has a surrogate. -/
def printResult (store : Store) (log : List LogLine) (e : Expansion) (points : List CodePoint) : Outcome :=
  match CodePoint.encode (CodePoint.mapBetween Console.withoutSequences [] points) with
  | .error error => (Stop.ofError error.message).outcome r store log
  | .ok _ =>
    let (messages, failure) := printAll r (e.skipped.map skippedMessage)
    { exitCode := if failure.isSome then 1 else 0, output := Console.withoutSequences e.source ++ messages, failure,
      log, store }

/-- Writes a result to its file and says so. The file is emptied before it is written, and the path of a file with
    surrogates cannot be printed. -/
def saveResult (store : Store) (log : List LogLine) (output : Output) (path : Path) (e : Expansion)
    (points : List CodePoint) : Outcome :=
  let failed (error : SaveError) : Outcome :=
    { exitCode := 1, failure := some (.store error.cause), log, store := error.store }
  match CodePoint.encode points with
  | .error error =>
    match store.save path [] with
    | .error error => failed error
    | .ok store => (Stop.ofError error.message).outcome r store log
  | .ok bytes =>
    match store.save path bytes with
    | .error error => failed error
    | .ok store =>
      if output.rawPath.isSome then { exitCode := 1, failure := some .unprintable, log, store }
      else
        let (output, failure) := printAll r (savedMessage e path :: e.skipped.map skippedMessage)
        { exitCode := if failure.isSome then 1 else 0, output, failure, log, store }

/-- Brings a result, whose code points are given too, to where the configuration wants it. -/
def deliver (store : Store) (log : List LogLine) (output : Output) (e : Expansion) (points : List CodePoint) : Outcome :=
  match output.path with
  | none => printResult r store log e points
  | some path =>
    match output.nameFault? path with
    | some (position, message) => refusePath r store log path position message
    | none => saveResult r store log output path e points

def expand (g : Given) (operand : String) (store : Store) : Outcome :=
  match expandRequest r g operand store with
  | .error stop => stop.outcome r store []
  | .ok request =>
    let tree := request.kit.read request.source
    let log := request.kit.expandTreeLog request.source tree request.config
    match request.kit.expandTree request.source tree request.config with
    | .error e => (Stop.ofError e.message).outcome r store log
    | .ok e =>
      let twin := (request.kit.expandTree request.source tree request.config.twin).toOption.getD e
      deliver r store log request.config.output e (request.config.output.points e.source twin.source)

/-! ### Inspecting -/

def inspectOptions : List OptionSpec := [
  { name := "language", long := "--language", short := some 'l' },
  { name := "verbose", long := "--verbose", short := some 'v', takesValue := false }]

def reportColumns : List Console.Column := [
  ⟨"Field".toList, .left⟩, ⟨"Type".toList, .left⟩, ⟨"Kind".toList, .left⟩, ⟨"Mutable".toList, .center⟩,
  ⟨"Private".toList, .center⟩, ⟨"Default".toList, .center⟩, ⟨"Wither".toList, .center⟩]

/-- The text of a cell, printed as it is. -/
def cell (text : String) : Except MarkupError (List Char) := r.markup (Console.escape text.toList)

def flag (set : Bool) : List Char := if set then ['✓'] else []

/-- The cells of a report. -/
def reportRow (report : Report) : Except MarkupError (List (List Char)) := do
  let name := (nonEmpty report.name).getD patternLabel
  let kind :=
    if report.classification = .stored ∧ !report.representable then "unrepresentable" else report.classification.text
  return [← cell r name, ← cell r (report.type.getD ""), kind.toList, flag report.isMutable, flag report.isPrivate,
    flag report.hasDefault, flag report.hasWither]

/-- The table about a declaration. -/
def reportTable (marker : String) (d : Declaration) : Except MarkupError Console.Table := do
  let title := d.name ++ " (" ++ d.kind.text ++ ")" ++ (if d.isMarked then " @" ++ marker else "")
  return { title := ← r.markup title.toList, columns := reportColumns, rows := ← d.reports.mapM (reportRow r) }

/-- Prints tables one after another, up to one that cannot be printed. -/
def printTables (r : Readers) (marker : String) : List Declaration → List Char × Option Failure
  | [] => ([], none)
  | d :: rest =>
    match reportTable r marker d with
    | .error e => ([], some (.markup e))
    | .ok table =>
      let (more, failure) := printTables r marker rest
      (unlinesAll table.lines ++ more, failure)

def inspectRequest (g : Given) (operand : String) (store : Store) : Except Stop Request := do
  let path ← existing store operand
  let config ← (Config.ofSettings { language := g.value? "language" }).mapError .ofConfigError
  let kit ← kitFor r config.language path
  let source ← sourceText store path
  return { config, kit, source }

def inspect (g : Given) (operand : String) (store : Store) : Outcome :=
  match inspectRequest r g operand store with
  | .error stop => stop.outcome r store []
  | .ok request =>
    let marker := request.config.synthesis.marker
    let tree := request.kit.read request.source
    let log := request.kit.dialect.extractionLog request.source tree marker
    match request.kit.dialect.extract request.source tree marker with
    | .error e => (Stop.ofError e.message).outcome r store log
    | .ok found =>
      let (output, failure) :=
        if found.isEmpty then printAll r ["[yellow]No declarations found.[/yellow]"] else printTables r marker found
      { exitCode := if failure.isSome then 1 else 0, output, failure, log, store }

/-! ### Initialising -/

def initOptions : List OptionSpec := [{ name := "output", long := "--output", short := some 'o' }]

def defaultFileName : String := "./recordgen.yaml"

/-- Asks until the answer is yes, no or nothing, which means no. The answers are the lines of the input; without one
    there is no decision. -/
def confirm (prompt : List Char) : List (List Char) → Option Bool × List Char
  | [] => (none, prompt)
  | line :: rest =>
    let asked := prompt ++ line ++ ['\n']
    let answer := (String.ofList (Text.trim line)).toLower
    if answer ∈ ["y", "yes"] then (some true, asked)
    else if answer ∈ ["", "n", "no"] then (some false, asked)
    else
      let (decision, more) := confirm prompt rest
      (decision, asked ++ "Error: invalid input\n".toList ++ more)

/-- The lines of an input; a line break at its end starts no further line. -/
def inputLines (input : List Char) : List (List Char) :=
  let lines := Text.lines (Text.unifyBreaks input)
  if lines.getLast? = some [] then lines.dropLast else lines

def nextSteps : Console.Panel where
  title := "Next steps".toList
  text := ("Set synthesis.marker to the attribute that selects declarations,\n" ++
    "and synthesis.strict to fail on untyped fields.").toList

/-- Writes the default configuration, after what has been printed already. -/
def writeDefault (store : Store) (target : String) (before : List Char) : Outcome :=
  match store.save (Path.ofText target) (Text.Utf8.encode Config.defaultFile.toList) with
  | .error e => { exitCode := 1, output := before, failure := some (.store e.cause), store := e.store }
  | .ok store =>
    let (done, failure) := printAll r ["[green]✓[/green] Generated configuration file: " ++ target]
    match failure with
    | some f => { exitCode := 1, output := before ++ done, failure := some f, store }
    | none => { exitCode := 0, output := before ++ done ++ unlinesAll (nextSteps.lines consoleWidth), store }

/-- The question before a file is overwritten. -/
def overwritePrompt (target : String) : List Char :=
  Console.withoutSequences (target ++ " already exists. Overwrite? [y/N]:").toList ++ [' ']

/-- A file that exists is only overwritten with consent. -/
def init (g : Given) (input : List Char) (store : Store) : Outcome :=
  let target := (g.value? "output").getD defaultFileName
  if store.exists? (Path.ofText target) then
    match confirm (overwritePrompt target) (inputLines input) with
    | (some true, asked) => writeDefault r store target asked
    | (some false, asked) => { exitCode := 1, output := asked ++ "Cancelled.\n".toList, store }
    | (none, asked) => { exitCode := 1, output := asked, store }
  else writeDefault r store target []

/-! ### Choosing the command -/

/-- The outcome for arguments of a command that give nothing: help, whose page is left out here, or none. -/
def helpOutcome (specs : List OptionSpec) (arguments : List String) (store : Store) : Outcome :=
  if asksHelp specs arguments then { exitCode := 0, store } else Stop.usage.outcome r store []

/-- A command that takes one operand. -/
def withOperand (specs : List OptionSpec) (arguments : List String) (store : Store)
    (act : Given → String → Store → Outcome) : Outcome :=
  match Given.ofArguments? specs arguments with
  | some g =>
    match g.operands with
    | [operand] => act g operand store
    | _ => Stop.usage.outcome r store []
  | none => helpOutcome r specs arguments store

/-- Runs a command line on a store with given readers, and with what is typed as input. -/
def runWith (arguments : List String) (input : List Char) (store : Store) : Outcome :=
  match if arguments.head? = some "--" then arguments.drop 1 else arguments with
  | "expand" :: rest => withOperand r expandOptions rest store (expand r)
  | "inspect" :: rest => withOperand r inspectOptions rest store (inspect r)
  | "init" :: rest =>
    match Given.ofArguments? initOptions rest with
    | some g => if g.operands.isEmpty then init r g input store else Stop.usage.outcome r store []
    | none => helpOutcome r initOptions rest store
  | _ => if opensWithHelp arguments then { exitCode := 0, store } else Stop.usage.outcome r store []

/-- Runs a command line on a store, with what is typed as input. -/
def run (arguments : List String) (input : List Char) (store : Store) : Outcome :=
  runWith Readers.builtIn arguments input store

end Command

end Recordsmith
