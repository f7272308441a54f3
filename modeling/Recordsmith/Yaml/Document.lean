import Recordsmith.Value.Basic
import Recordsmith.Yaml.Parse
import Recordsmith.Yaml.Scan

/-! Documents: the value that a YAML text writes. -/

namespace Recordsmith.Yaml

open Text (CodePoint)

/-! ### Numbers -/

def digitOf? (base : Nat) (c : Char) : Option Nat := (hexDigit? c).filter (· < base)

/-- The number that digits of a base write. -/
def natOf? (base : Nat) (digits : List Char) : Option Nat :=
  if digits = [] then none
  else digits.foldl (fun n c => n.bind fun n => (digitOf? base c).map (n * base + ·)) (some 0)

def natOf (base : Nat) (digits : List Char) : Except ScalarFault Nat :=
  match natOf? base digits with
  | some n => .ok n
  | none => .error (.integer (String.ofList digits) base)

/-- The number whose digits of base sixty are given, highest first. -/
def sixties (parts : List Nat) : Nat := parts.foldl (fun n part => n * 60 + part) 0

def isNegative (text : List Char) : Bool := text.head? == some '-'

def intOf (text : List Char) : Except ScalarFault Int := do
  let text := text.filter (· ≠ '_')
  let body := unsigned text
  let size ←
    match body with
    | [] => .error .emptyNumber
    | ['0'] => .ok 0
    | '0' :: 'b' :: rest => natOf 2 rest
    | '0' :: 'x' :: rest => natOf 16 rest
    | '0' :: _ => natOf 8 body
    | _ =>
      match Text.splitAt (· == ':') body with
      | [_] => natOf 10 body
      | parts => sixties <$> parts.mapM (natOf 10)
  return if isNegative text then -(size : Int) else size

/-- A decimal number with an exponent. Exponents beyond any number's are taken for infinity and zero. -/
def decimalOf? (text : List Char) : Option Value :=
  let whole := text.takeWhile Char.isDigit
  let rest := text.drop whole.length
  let (fraction, rest) := match rest with
    | '.' :: more => (more.takeWhile Char.isDigit, more.dropWhile Char.isDigit)
    | more => ([], more)
  let mantissa := digitsValue (whole ++ fraction)
  if whole = [] ∧ fraction = [] then none
  else match rest with
    | [] => some (.decimal mantissa fraction.length)
    | 'e' :: exponent =>
      (natOf? 10 (unsigned exponent)).map fun size =>
        if 400 < size then if isNegative exponent then .decimal 0 0 else .nonFinite
        else if isNegative exponent then .decimal mantissa (fraction.length + size)
        else .decimal (mantissa * Nat.pow 10 size) fraction.length
    | _ => none

def negated : Value → Value
  | .decimal mantissa scale => .decimal (-mantissa) scale
  | value => value

def floatOf (text : List Char) : Except ScalarFault Value :=
  let text := (text.filter (· ≠ '_')).map Char.toLower
  let body := unsigned text
  let found : Option Value :=
    if String.ofList body ∈ [".inf", ".nan", "inf", "nan", "infinity"] then some .nonFinite
    else match Text.splitAt (· == ':') body with
      | [_] => decimalOf? body
      | parts => do
        let high ← parts.dropLast.mapM (natOf? 10)
        match decimalOf? (parts.getLast?.getD []) with
        | some (.decimal mantissa scale) => some (.decimal (sixties high * 60 * Nat.pow 10 scale + mantissa) scale)
        | other => other
  match found with
  | some value => .ok (if isNegative text then negated value else value)
  | none => .error (.float (String.ofList body))

/-! ### Other scalars -/

def boolOf (text : List Char) : Except ScalarFault Bool :=
  let word := (String.ofList text).toLower
  if word ∈ ["yes", "true", "on"] then .ok true
  else if word ∈ ["no", "false", "off"] then .ok false
  else .error (.truth word)

def isLeapYear (year : Nat) : Bool := year % 4 == 0 && (year % 100 != 0 || year % 400 == 0)

def daysInMonth (year month : Nat) : Nat :=
  if month = 2 then if isLeapYear year then 29 else 28
  else if month ∈ [4, 6, 9, 11] then 30
  else 31

/-- What is wrong with a date or a time of day. -/
def Moment.fault? (m : Moment) : Option String :=
  if m.year = 0 then some "year 0 is out of range"
  else if m.month = 0 ∨ 12 < m.month then some "month must be in 1..12"
  else if m.day = 0 ∨ daysInMonth m.year m.month < m.day then some "day is out of range for month"
  else match m.time with
    | none => none
    | some (hour, minute, second) =>
      if 23 < hour then some "hour must be in 0..23"
      else if 59 < minute then some "minute must be in 0..59"
      else if 59 < second then some "second must be in 0..59"
      else none

def momentOf (text : List Char) : Except ScalarFault Value :=
  match moment? text with
  | none => .error .noDate
  | some m =>
    match m.fault? with
    | some reason => .error (.date reason)
    | none => .ok .moment

def sextet? (c : Char) : Option Nat :=
  if 'A' ≤ c ∧ c ≤ 'Z' then some (c.toNat - 65)
  else if 'a' ≤ c ∧ c ≤ 'z' then some (c.toNat - 71)
  else if c.isDigit then some (c.toNat + 4)
  else if c = '+' then some 62
  else if c = '/' then some 63
  else none

/-- The bytes that groups of four characters of six bits each write. -/
def bytesOf : List Nat → Option (List UInt8)
  | [] => some []
  | [_] => none
  | [a, b] => some [UInt8.ofNat (a * 4 + b / 16)]
  | [a, b, c] => some [UInt8.ofNat (a * 4 + b / 16), UInt8.ofNat (b % 16 * 16 + c / 4)]
  | a :: b :: c :: d :: rest => (bytesOf rest).map fun more =>
    UInt8.ofNat (a * 4 + b / 16) :: UInt8.ofNat (b % 16 * 16 + c / 4) :: UInt8.ofNat (c % 4 * 64 + d) :: more

/-- Bytes written with six bits to a character. Other characters are passed over, and the last group is filled up. -/
def binaryOf (text : List Char) : Option Value := do
  let body := text.takeWhile (· ≠ '=')
  let fill := (text.filter (· == '=')).length
  let sextets := body.filterMap sextet?
  let bytes ← bytesOf sextets
  if text.all (·.toNat < 128) ∧ (sextets.length % 4 = 0 ∨ 4 ≤ sextets.length % 4 + fill) then some (.bytes bytes) else none

/-! ### Merging -/

namespace Node

/-- The pairs of a mapping; nothing else can be merged into one. -/
def pairs? : Node → Option (List (Node × Node))
  | .mapping _ pairs => some pairs
  | _ => none

/-- The pairs that a value under the sign for merging stands for: those of a mapping, or of several from the last to the
    first. -/
def mergedPairs? : Node → Option (List (Node × Node))
  | .sequence _ items => (items.mapM pairs?).map fun found => found.reverse.flatten
  | node => node.pairs?

/-- The pairs of a mapping, with those of the mappings merged into it in front. -/
def flatten (pairs : List (Node × Node)) : Option (List (Node × Node)) := do
  let parts ← pairs.mapM fun (key, value) =>
    if key.tag = .merge then value.mergedPairs?.map fun merged => (merged, ([] : List (Node × Node)))
    else match key with
      | .scalar .value text => some ([], [(.scalar .text text, value)])
      | key => some ([], [(key, value)])
  some ((parts.map (·.1)).flatten ++ (parts.map (·.2)).flatten)

mutual

/-- A node in which every mapping has the pairs of those merged into it, from the inside out. The entries of ordered
    maps and lists of pairs are taken as they stand. -/
def merged? : Node → Option Node
  | .sequence tag items =>
    if tag = .orderedMap ∨ tag = .pairs then (mergedEntries? items).map (.sequence tag ·)
    else (mergedItems? items).map (.sequence tag ·)
  | .mapping tag pairs => ((mergedParts? pairs).bind flatten).map (.mapping tag ·)
  | node => some node

def mergedItems? : List Node → Option (List Node)
  | [] => some []
  | item :: rest => do
    let item ← merged? item
    let rest ← mergedItems? rest
    some (item :: rest)

def mergedEntries? : List Node → Option (List Node)
  | [] => some []
  | .mapping tag pairs :: rest => do
    let pairs ← mergedParts? pairs
    let rest ← mergedEntries? rest
    some (.mapping tag pairs :: rest)
  | item :: rest => do
    let item ← merged? item
    let rest ← mergedEntries? rest
    some (item :: rest)

def mergedParts? : List (Node × Node) → Option (List (Node × Node))
  | [] => some []
  | (key, value) :: rest => do
    let key ← merged? key
    let value ← merged? value
    let rest ← mergedParts? rest
    some ((key, value) :: rest)

end

end Node

/-! ### Values -/

/-- Whether two keys are the same. Other keys than these never decide anything. -/
def sameKey : Value → Value → Bool
  | .text a, .text b => a == b
  | .int a, .int b => a == b
  | .bool a, .bool b => a == b
  | .null, .null => true
  | _, _ => false

/-- Sets a key, in the place it has if it is there already. -/
def put (key value : Value) : List (Value × Value) → List (Value × Value)
  | [] => [(key, value)]
  | entry :: rest => if sameKey entry.1 key then (entry.1, value) :: rest else entry :: put key value rest

/-- A value as a key. Collections cannot be keys, and a text with surrogates names nothing anyway. -/
def asKey : Value → Except YamlError Value
  | .list _ => .error .malformed
  | .map _ => .error .malformed
  | .rawText points => .ok (.text (CodePoint.withStandIn CodePoint.standIn points))
  | key => .ok key

def scalarValue (tag : Tag) (text : List Char) : Except YamlError Value :=
  match tag with
  | .null => .ok .null
  | .bool => orFault ((boolOf text).map .bool)
  | .int => orFault ((intOf text).map .int)
  | .float => orFault (floatOf text)
  | .timestamp => orFault (momentOf text)
  | .text => .ok (.text (String.ofList text))
  | .binary => orMalformed (binaryOf text)
  | _ => .error .malformed

/-- The value of a scalar with surrogates. None of them is a digit, a letter or a byte. -/
def rawValue (tag : Tag) (points : List CodePoint) : Except YamlError Value :=
  match tag with
  | .text => .ok (.rawText points)
  | tag => scalarValue tag (CodePoint.withStandIn CodePoint.standIn points).toList

mutual

/-- The value of a node whose mappings are merged. Nothing but a later pair decides between two pairs with one key. -/
def valueOf : Node → Except YamlError Value
  | .scalar tag text => scalarValue tag text
  | .rawScalar tag points => rawValue tag points
  | .sequence tag items =>
    if tag = .sequence then (valuesOf items).map .list
    else if tag = .orderedMap ∨ tag = .pairs then (entriesOf items).map .list
    else .error .malformed
  | .mapping tag pairs =>
    if tag = .mapping then (pairsOf pairs).map fun found =>
      .map (found.foldl (fun entries entry => put entry.1 entry.2 entries) [])
    else if tag = .set then (pairsOf pairs).map fun found => .list (found.map (·.1))
    else .error .malformed
  | .around _ => .error .malformed

def valuesOf : List Node → Except YamlError (List Value)
  | [] => .ok []
  | item :: rest => return (← valueOf item) :: (← valuesOf rest)

/-- The entries of an ordered map or a list of pairs, each of which is a mapping with one pair. -/
def entriesOf : List Node → Except YamlError (List Value)
  | [] => .ok []
  | .mapping _ [(key, value)] :: rest => return .list [← valueOf key, ← valueOf value] :: (← entriesOf rest)
  | _ :: _ => .error .malformed

def pairsOf : List (Node × Node) → Except YamlError (List (Value × Value))
  | [] => .ok []
  | (key, value) :: rest => do
    let key ← valueOf key
    let key ← asKey key
    return (key, ← valueOf value) :: (← pairsOf rest)

end

/-- The value that a text writes; an empty text writes none. -/
def read (text : List Char) : Except YamlError Value := do
  let tokens ← Token.scan text
  match ← orMalformed (Node.ofTokens? tokens) with
  | none => return .null
  | some node => valueOf (← orMalformed node.merged?)

end Recordsmith.Yaml
