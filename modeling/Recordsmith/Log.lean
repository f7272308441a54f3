import Recordsmith.Language

/-! Log lines: what the program tells about its work besides its results. -/

namespace Recordsmith

inductive LogLevel
  | debug
  | info
  | warning
  deriving DecidableEq, Repr

/-- The part of the program that a line comes from. -/
inductive LogOrigin
  | assembly
  | expansion
  | extraction (language : Language)
  deriving DecidableEq, Repr

structure LogLine where
  level : LogLevel
  origin : LogOrigin
  message : String
  deriving DecidableEq, Repr

def LogLevel.text : LogLevel → String
  | .debug => "DEBUG"
  | .info => "INFO"
  | .warning => "WARNING"

def LogOrigin.text : LogOrigin → String
  | .assembly => "recordgen.synthesis.assembler"
  | .expansion => "recordgen.languages.base.plugin"
  | .extraction language => "recordgen.languages." ++ language.name ++ ".plugin"

def LogLine.text (line : LogLine) : String := line.level.text ++ " " ++ line.origin.text ++ ": " ++ line.message

end Recordsmith
