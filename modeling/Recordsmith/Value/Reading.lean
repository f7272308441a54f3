import Recordsmith.Path
import Recordsmith.Text.Utf8
import Recordsmith.Value.Basic

/-! Lenient reading of scalars and the building blocks for reading objects. -/

namespace Recordsmith.Value

open Text (CodePoint)

/-- Bytes are read as UTF-8, and a stand-in for every surrogate. -/
def readText : Value → Checked String
  | .text s => .ok s
  | .rawText points => .ok (CodePoint.withStandIn CodePoint.standIn points)
  | .bytes data =>
    match Text.Utf8.decode data with
    | .ok chars => .ok (String.ofList chars)
    | .error _ => .fail .undecodableText
  | _ => .fail .notText

/-! ### Truth values -/

def falseWords : List String := ["0", "off", "f", "false", "n", "no"]

def trueWords : List String := ["1", "on", "t", "true", "y", "yes"]

/-- Words for truth values are read in any mixture of upper and lower case. -/
def readBoolWord (word : String) : Checked Bool :=
  if word.toLower ∈ trueWords then .ok true
  else if word.toLower ∈ falseWords then .ok false
  else .fail .unreadableBool

def readBoolNumber (n : Int) : Checked Bool :=
  if n = 0 then .ok false else if n = 1 then .ok true else .fail .unreadableBool

/-- The whole number that a decimal number is, if it is one. -/
def whole? (mantissa : Int) (scale : Nat) : Option Int :=
  let unit : Int := Nat.pow 10 scale
  if mantissa % unit = 0 then some (mantissa / unit) else none

def readBool : Value → Checked Bool
  | .bool b => .ok b
  | .int n => readBoolNumber n
  | .decimal mantissa scale =>
    match whole? mantissa scale with
    | some n => readBoolNumber n
    | none => .fail .notBool
  | .text word => readBoolWord word
  | .bytes data =>
    match Text.Utf8.decode data with
    | .ok chars => readBoolWord (String.ofList chars)
    | .error _ => .fail .notBool
  | _ => .fail .notBool

/-! ### Integers -/

/-- Decimal digits; single underscores may stand between them. -/
def digits? (chars : List Char) : Option Nat :=
  if (Text.splitAt (· == '_') chars).all fun run => run ≠ [] ∧ run.all Char.isDigit then
    some ((chars.filter Char.isDigit).foldl (fun n c => n * 10 + (c.toNat - 48)) 0)
  else none

/-- Zeros after a point do not count. -/
def withoutZeroFraction (chars : List Char) : List Char :=
  let body := chars.takeWhile (· ≠ '.')
  if (chars.drop (body.length + 1)).all (· == '0') then body else chars

def intOfChars? : List Char → Option Int
  | '-' :: rest => (digits? (withoutZeroFraction rest)).map fun n => -(n : Int)
  | '+' :: rest => (digits? (withoutZeroFraction rest)).map Int.ofNat
  | rest => (digits? (withoutZeroFraction rest)).map Int.ofNat

def readIntText (text : String) : Checked Int :=
  match intOfChars? (Text.trim text.toList) with
  | some n => .ok n
  | none => .fail .unreadableInt

def readInt : Value → Checked Int
  | .int n => .ok n
  | .bool b => .ok (if b then 1 else 0)
  | .decimal mantissa scale =>
    match whole? mantissa scale with
    | some n => .ok n
    | none => .fail .fractionalInt
  | .nonFinite => .fail .nonFiniteInt
  | .text s => readIntText s
  | .bytes data =>
    match Text.Utf8.decode data with
    | .ok chars => readIntText (String.ofList chars)
    | .error _ => .fail .notInt
  | _ => .fail .notInt

/-! ### Other parts -/

def readPath : Value → Checked Path
  | .text s => .ok (Path.ofText s)
  | .rawText points => .ok (Path.ofText (CodePoint.withStandIn CodePoint.standIn points))
  | _ => .fail .notPath

/-- The code points of a text with surrogates; of any other value none. -/
def readRaw : Value → Checked (Option (List CodePoint))
  | .rawText points => .ok (some points)
  | _ => .ok none

/-- One of a fixed number of words. -/
def readOneOf {α : Type} (ofWord? : String → Option α) : Value → Checked α
  | .text word =>
    match ofWord? word with
    | some a => .ok a
    | none => .fail .notOffered
  | _ => .fail .notOffered

def readList {α : Type} (read : Value → Checked α) : Value → Checked (List α)
  | .list items => Checked.items read 0 items
  | _ => .fail .notList

def readOption {α : Type} (read : Value → Checked α) : Value → Checked (Option α)
  | .null => .ok none
  | value => (read value).map some

/-- The parts of an object. -/
def readObject {α : Type} (read : List (Value × Value) → Checked α) : Value → Checked α
  | .map entries => read entries
  | _ => .fail .notObject

/-- A part that must be there. -/
def required {α : Type} (name : String) (read : Value → Checked α) (entries : List (Value × Value)) : Checked α :=
  match entry? name entries with
  | some value => (read value).under (.key name)
  | none => Checked.under (.key name) (.fail .missing)

/-- A part with a value of its own where it is not given. -/
def optional {α : Type} (name : String) (read : Value → Checked α) (absent : α) (entries : List (Value × Value)) :
    Checked α :=
  match entry? name entries with
  | some value => (read value).under (.key name)
  | none => .ok absent

end Recordsmith.Value
