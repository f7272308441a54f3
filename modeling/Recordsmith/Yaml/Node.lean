import Recordsmith.Yaml.Token

/-! Nodes of a YAML document, and what the texts of scalars look like. -/

namespace Recordsmith.Yaml

open Text (CodePoint)

/-! ### Tags -/

/-- What a node is. -/
inductive Tag
  | null
  | bool
  | int
  | float
  | binary
  | timestamp
  | orderedMap
  | pairs
  | set
  | text
  | sequence
  | mapping
  | merge
  /-- The sign for a mapping's default value, which only stands as a key. -/
  | value
  /-- A tag that says nothing about how its node is to be read. -/
  | unknown
  deriving DecidableEq, Repr

/-- What the tags of the language itself start with. -/
def languageTag : List Char := "tag:yaml.org,2002:".toList

def Tag.ofName (name : List Char) : Tag :=
  if languageTag.isPrefixOf name then
    match String.ofList (name.drop languageTag.length) with
    | "null" => .null
    | "bool" => .bool
    | "int" => .int
    | "float" => .float
    | "binary" => .binary
    | "timestamp" => .timestamp
    | "omap" => .orderedMap
    | "pairs" => .pairs
    | "set" => .set
    | "str" => .text
    | "seq" => .sequence
    | "map" => .mapping
    | "merge" => .merge
    | "value" => .value
    | _ => .unknown
  else .unknown

/-! ### Texts that look like something -/

def isDigits (chars : List Char) : Bool := chars.all Char.isDigit

def isDigitOrUnderscore (c : Char) : Bool := c.isDigit || c == '_'

/-- The text without a sign in front. -/
def unsigned : List Char → List Char
  | '+' :: rest => rest
  | '-' :: rest => rest
  | rest => rest

/-- Whether a text starts with a digit and goes on with digits and underscores. -/
def isCount : List Char → Bool
  | [] => false
  | c :: rest => c.isDigit && rest.all isDigitOrUnderscore

/-- A number below sixty, with one or two digits. -/
def isSixtieth (chars : List Char) : Bool :=
  match chars with
  | [c] => c.isDigit
  | [c, d] => '0' ≤ c && c ≤ '5' && d.isDigit
  | _ => false

/-- An exponent with its sign, or nothing. -/
def isExponent : List Char → Bool
  | [] => true
  | e :: sign :: c :: rest => (e == 'e' || e == 'E') && (sign == '+' || sign == '-') && isDigits (c :: rest)
  | _ => false

def looksLikeBool (text : String) : Bool := text ∈ [
  "yes", "Yes", "YES", "no", "No", "NO", "true", "True", "TRUE", "false", "False", "FALSE", "on", "On", "ON", "off",
  "Off", "OFF"]

def looksLikeNull (text : String) : Bool := text ∈ ["", "~", "null", "Null", "NULL"]

/-- Integers are written in base two, eight, ten, sixteen or sixty. -/
def looksLikeInt (text : List Char) : Bool :=
  match unsigned text with
  | ['0'] => true
  | '0' :: 'b' :: c :: rest => (c :: rest).all fun d => d == '0' || d == '1' || d == '_'
  | '0' :: 'x' :: c :: rest => (c :: rest).all fun d => (hexDigit? d).isSome || d == '_'
  | '0' :: rest => rest.all fun d => ('0' ≤ d && d ≤ '7') || d == '_'
  | body =>
    match Text.splitAt (· == ':') body with
    | [] => false
    | first :: more => isCount first && more.all isSixtieth

/-- Numbers with a point, an exponent or digits of base sixty, and what is no finite number. -/
def looksLikeFloat (text : List Char) : Bool :=
  let body := unsigned text
  let hasSign := body.length != text.length
  let head := body.takeWhile (· ≠ '.')
  match body.drop head.length with
  | [] => false
  | _ :: tail =>
    let digits := tail.takeWhile isDigitOrUnderscore
    let rest := tail.drop digits.length
    if head = [] then
      ["inf", "Inf", "INF"].contains (String.ofList tail) ||
        (!hasSign && ["nan", "NaN", "NAN"].contains (String.ofList tail)) ||
        (!hasSign && isCount digits && isExponent rest)
    else
      match Text.splitAt (· == ':') head with
      | [count] => isCount count && isExponent rest
      | count :: more => isCount count && more.all isSixtieth && rest == []
      | [] => false

/-- One or two digits at the start of a text, and what follows them. -/
def shortNumber (text : List Char) : Option (Nat × List Char) :=
  match text with
  | c :: d :: rest =>
    if c.isDigit then
      if d.isDigit then some (digitsValue [c, d], rest) else some (digitsValue [c], d :: rest)
    else none
  | [c] => if c.isDigit then some (digitsValue [c], []) else none
  | [] => none

/-- Exactly two digits at the start of a text, and what follows them. -/
def twoDigits (text : List Char) : Option (Nat × List Char) :=
  match text with
  | c :: d :: rest => if c.isDigit && d.isDigit then some (digitsValue [c, d], rest) else none
  | _ => none

/-- What follows a character that must open a text. -/
def after? (mark : Char) : List Char → Option (List Char)
  | [] => none
  | c :: rest => if c = mark then some rest else none

/-- A date, with a time of day if one is given. -/
structure Moment where
  year : Nat
  month : Nat
  day : Nat
  time : Option (Nat × Nat × Nat) := none
  deriving DecidableEq, Repr

def isIndentChar (c : Char) : Bool := c == ' ' || c == '\t'

/-- The zone after a time of day, or nothing. -/
def isZone (text : List Char) : Bool :=
  match text.dropWhile isIndentChar with
  | [] => text == []
  | ['Z'] => true
  | sign :: rest =>
    (sign == '+' || sign == '-') &&
      match shortNumber rest with
      | some (_, []) => true
      | some (_, ':' :: rest) => (twoDigits rest).any (·.2 == [])
      | _ => false

/-- The time of day after a date, if the text has that form. -/
def timeOfDay? (text : List Char) : Option (Nat × Nat × Nat) := do
  let (hour, text) ← shortNumber text
  let (minute, text) ← twoDigits (← after? ':' text)
  let (second, text) ← twoDigits (← after? ':' text)
  let text := match text with
    | '.' :: rest => rest.dropWhile Char.isDigit
    | rest => rest
  if isZone text then some (hour, minute, second) else none

/-- The moment that a text writes: a date with all its digits, or a date and a time of day. -/
def moment? (text : List Char) : Option Moment := do
  let year := text.take 4
  if year.length ≠ 4 ∨ !isDigits year then none
  else
    let rest ← after? '-' (text.drop 4)
    let (month, afterMonth) ← shortNumber rest
    let afterMonth ← after? '-' afterMonth
    let (day, afterDay) ← shortNumber afterMonth
    if afterDay = [] then
      if text.length = 10 then some ⟨digitsValue year, month, day, none⟩ else none
    else
      let timeText ←
        match afterDay with
        | 'T' :: rest => some rest
        | 't' :: rest => some rest
        | c :: rest => if isIndentChar c then some (rest.dropWhile isIndentChar) else none
        | [] => none
      let time ← timeOfDay? timeText
      some ⟨digitsValue year, month, day, some time⟩

/-- The tag of a plain scalar. -/
def Tag.ofPlain (text : List Char) : Tag :=
  let word := String.ofList text
  if looksLikeBool word then .bool
  else if looksLikeFloat text then .float
  else if looksLikeInt text then .int
  else if word = "<<" then .merge
  else if looksLikeNull word then .null
  else if (moment? text).isSome then .timestamp
  else if word = "=" then .value
  else .text

/-! ### Nodes -/

inductive Node
  | scalar (tag : Tag) (text : List Char)
  /-- A scalar with surrogates. -/
  | rawScalar (tag : Tag) (points : List CodePoint)
  | sequence (tag : Tag) (items : List Node)
  | mapping (tag : Tag) (pairs : List (Node × Node))
  /-- An alias of a collection that it stands in, which is not complete yet. -/
  | around (name : List Char)
  deriving Repr

namespace Node

def tag : Node → Tag
  | .scalar tag _ => tag
  | .rawScalar tag _ => tag
  | .sequence tag _ => tag
  | .mapping tag _ => tag
  | .around _ => .unknown

/-- The scalar that stands where a node is missing. -/
def empty : Node := .scalar .null []

/-! ### Collections that hold themselves -/

mutual

/-- A node in which aliases of the collection `name` around them are replaced. -/
def replace (name : List Char) (whole : Node) : Node → Node
  | .scalar tag text => .scalar tag text
  | .rawScalar tag points => .rawScalar tag points
  | .sequence tag items => .sequence tag (replaceAll name whole items)
  | .mapping tag pairs => .mapping tag (replacePairs name whole pairs)
  | .around other => if other = name then whole else .around other

def replaceAll (name : List Char) (whole : Node) : List Node → List Node
  | [] => []
  | item :: rest => replace name whole item :: replaceAll name whole rest

def replacePairs (name : List Char) (whole : Node) : List (Node × Node) → List (Node × Node)
  | [] => []
  | (key, value) :: rest => (replace name whole key, replace name whole value) :: replacePairs name whole rest

end

/-- A collection without its contents. -/
def emptied : Node → Node
  | .sequence tag _ => .sequence tag []
  | .mapping tag _ => .mapping tag []
  | node => node

/-- A collection that holds itself, written out so many times inside itself, and once more without its contents. -/
def unrolled (name : List Char) (node : Node) : Nat → Node
  | 0 => node.emptied
  | depth + 1 => replace name (unrolled name node depth) node

/-- How often a collection is written out. Settings lie two steps deep, and of what they are only the kind matters, so
    nobody looks further into a collection through itself. -/
def selfDepth : Nat := 4

end Node

end Recordsmith.Yaml
