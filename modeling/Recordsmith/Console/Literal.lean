import Recordsmith.Source.Piece
import Recordsmith.Yaml.Scalar

/-!
Literals in markup: numbers, texts and constants, and tuples, sets and maps of them. Only whether a text is one matters.
The brackets that markup uses itself cannot occur in one.
-/

namespace Recordsmith.Console.Literal

open Source (Piece Token Lexeme)
open Yaml (hexDigit?)

/-! ### Tokens -/

def isQuote (c : Char) : Bool := c == '"' || c == '\''

/-- What may stand directly in front of a quoted text, in small letters. -/
def prefixes : List String := ["", "r", "u", "b", "br", "rb"]

/-- The characters of a quoted text after its opening quotes, up to and with its closing ones. -/
def quotedLength (mark : List Char) : List Char → Nat
  | [] => 0
  | '\\' :: _ :: rest => quotedLength mark rest + 2
  | c :: rest => if mark.isPrefixOf (c :: rest) then mark.length else quotedLength mark rest + 1

/-- The quotes that open a text, and that close it. -/
def quotesOf (text : List Char) : List Char :=
  match text with
  | [] => []
  | c :: rest => if isQuote c then if [c, c].isPrefixOf rest then [c, c, c] else [c] else []

/-- The characters of a number after its first one. The sign of an exponent belongs to it. -/
def numberLength : List Char → Nat
  | e :: sign :: d :: rest =>
    if (e == 'e' || e == 'E') && (sign == '+' || sign == '-') && d.isDigit then
      (rest.takeWhile fun c => c.isAlphanum || c == '_').length + 3
    else if e.isAlphanum || e == '_' || e == '.' then numberLength (sign :: d :: rest) + 1
    else 0
  | c :: rest => if c.isAlphanum || c == '_' || c == '.' then numberLength rest + 1 else 0
  | [] => 0

def lexeme (c : Char) (rest : List Char) : Lexeme :=
  let word := (c :: rest).takeWhile Source.extendsWord
  let quotes := quotesOf ((c :: rest).drop word.length)
  if Text.isBlank c then ⟨none, 0⟩
  else if quotes ≠ [] then
    let after := (c :: rest).drop (word.length + quotes.length)
    ⟨some .literal, word.length + quotes.length + quotedLength quotes after - 1⟩
  else if ['.', '.', '.'].isPrefixOf (c :: rest) then ⟨some .word, 2⟩
  else if c.isDigit || (c == '.' && rest.head?.any Char.isDigit) then ⟨some .literal, numberLength rest⟩
  else if word ≠ [] then ⟨some .word, word.length - 1⟩
  else ⟨some .symbol, 0⟩

def lexer : Source.Lexer := { lexeme := fun _ => lexeme }

/-! ### Numbers and texts -/

/-- Digits of a kind; single underscores may stand between them. -/
def areDigits (isDigit : Char → Bool) (text : List Char) : Bool :=
  (Text.splitAt (· == '_') text).all fun run => run ≠ [] ∧ run.all isDigit

/-- Whether a text is a decimal number without an exponent and a sign, and may start with zeros only if it is no whole
    one. -/
def isDecimal (zeros : Bool) (text : List Char) : Bool :=
  let whole := text.takeWhile (· ≠ '.')
  match text.drop whole.length with
  | [] => areDigits Char.isDigit whole && (zeros || whole.head? != some '0' || whole.all fun c => c == '0' || c == '_')
  | _ :: fraction =>
    (whole ≠ [] ∨ fraction ≠ []) && (whole == [] || areDigits Char.isDigit whole) &&
      (fraction == [] || areDigits Char.isDigit fraction)

/-- Whether a text is a number, and if so whether it is an imaginary one. -/
def imaginary? (text : List Char) : Option Bool :=
  let small := text.map Char.toLower
  let based (isDigit : Char → Bool) (digits : List Char) : Option Bool :=
    let digits := if digits.head? = some '_' then digits.drop 1 else digits
    if areDigits isDigit digits then some false else none
  match small with
  | '0' :: 'x' :: digits => based (fun c => (hexDigit? c).isSome) digits
  | '0' :: 'o' :: digits => based (fun c => '0' ≤ c && c ≤ '7') digits
  | '0' :: 'b' :: digits => based (fun c => c == '0' || c == '1') digits
  | _ =>
    let isImaginary := small.getLast? == some 'j'
    let real := if isImaginary then small.dropLast else small
    let size := real.takeWhile (· ≠ 'e')
    match real.drop size.length with
    | [] => if isDecimal isImaginary size then some isImaginary else none
    | _ :: exponent =>
      let digits := match exponent with
        | '+' :: digits => digits
        | '-' :: digits => digits
        | digits => digits
      if isDecimal true size && areDigits Char.isDigit digits then some isImaginary else none

/-- Whether the escapes inside quotes write characters. -/
def escapesWell : List Char → Bool
  | [] => true
  | '\\' :: c :: rest =>
    let count := if c = 'x' then 2 else if c = 'u' then 4 else if c = 'U' then 8 else 0
    let digits := rest.take count
    let number := digits.foldl (fun n c => n * 16 + (hexDigit? c).getD 0) 0
    digits.length == count && digits.all (fun c => (hexDigit? c).isSome) && number ≤ 0x10FFFF && escapesWell rest
  | _ :: rest => escapesWell rest

/-- Whether a text in quotes, with what stands in front of it, is well written, and if so whether it is one of bytes. -/
def bytes? (text : List Char) : Option Bool :=
  let start := (String.ofList (text.takeWhile (!isQuote ·))).toLower
  let quotes := quotesOf (text.drop start.length)
  let body := (text.drop (start.length + quotes.length)).take (text.length - start.length - 2 * quotes.length)
  let isBytes := start.toList.contains 'b'
  let isRaw := start.toList.contains 'r'
  let isClosed := text.length ≥ start.length + 2 * quotes.length &&
    quotedLength quotes (text.drop (start.length + quotes.length)) + start.length + quotes.length == text.length &&
    quotes.isPrefixOf (text.drop (text.length - quotes.length))
  let onOneLine := quotes.length == 3 || !body.contains '\n'
  let fits := if isBytes then body.all (·.toNat < 128) else true
  if start ∈ prefixes ∧ isClosed ∧ onOneLine ∧ fits ∧ (isRaw ∨ escapesWell body) then some isBytes else none

/-! ### Values -/

/-- What one piece contributes to a list of values. -/
inductive Atom
  | real
  | imaginary
  | text
  | bytes
  /-- Any other value, and whether it may stand in a set or as a key. -/
  | value (isKey : Bool)
  | sign
  | comma
  | colon
  deriving DecidableEq, Repr

/-- What there is of one value so far. -/
inductive Part
  | nothing
  | sign
  | real
  /-- A real number and a sign, after which an imaginary one must follow. -/
  | sum
  | text
  | bytes
  | value (isKey : Bool)
  deriving DecidableEq, Repr

def Part.push : Part → Atom → Option Part
  | .nothing, .sign => some .sign
  | .nothing, .real => some .real
  | .nothing, .imaginary => some (.value true)
  | .nothing, .text => some .text
  | .nothing, .bytes => some .bytes
  | .nothing, .value isKey => some (.value isKey)
  | .sign, .real => some .real
  | .sign, .imaginary => some (.value true)
  | .real, .sign => some .sum
  | .sum, .imaginary => some (.value true)
  | .text, .text => some .text
  | .bytes, .bytes => some .bytes
  | _, _ => none

/-- Whether a value that is complete may be a key. -/
def Part.isKey? : Part → Option Bool
  | .nothing => none
  | .sign => none
  | .sum => none
  | .value isKey => some isKey
  | _ => some true

/-- The values of a list so far: the present one, the number of those before it, how many of them all have a key, and
    whether all that must be keys can be. -/
structure Values where
  part : Part := .nothing
  afterColon : Bool := false
  count : Nat := 0
  keyed : Nat := 0
  keysFit : Bool := true
  deriving Repr

namespace Values

/-- Completes the present value. In a map only keys must be able to be keys. -/
def finish (v : Values) : Option Values :=
  v.part.isKey?.map fun isKey =>
    { part := .nothing, count := v.count + 1, keyed := v.keyed, keysFit := v.keysFit && (v.afterColon || isKey) }

def push (v : Values) : Atom → Option Values
  | .comma => v.finish
  | .colon => if v.afterColon then none else v.part.isKey?.map fun isKey =>
    { v with part := .nothing, afterColon := true, keyed := v.keyed + 1, keysFit := v.keysFit && isKey }
  | atom => (v.part.push atom).map fun part => { v with part }

/-- The values with the present one; a comma may stand behind the last. -/
def all? (v : Values) : Option Values := if v.part = .nothing ∧ !v.afterColon then some v else v.finish

/-- What stands between round brackets: a tuple, or a single value. -/
def tuple? (v : Values) : Option Atom :=
  if v.keyed ≠ 0 then none
  else if v.count = 0 then
    if v.part = .nothing then some (.value true) else v.part.isKey?.map .value
  else v.all?.map fun found => .value found.keysFit

/-- What stands between braces: a map, or a set. -/
def collection? (v : Values) : Option Atom :=
  v.all?.bind fun found =>
    if (found.keyed = 0 ∨ found.keyed = found.count) ∧ found.keysFit then some (.value false) else none

end Values

def tokenAtom? (t : Token) : Option Atom :=
  match t.kind with
  | .word => if t.text ∈ ["True", "False", "None", "..."] then some (.value true) else none
  | .literal =>
    if t.text.toList.any isQuote then (bytes? t.text.toList).map fun isBytes => if isBytes then .bytes else .text
    else (imaginary? t.text.toList).map fun isImaginary => if isImaginary then .imaginary else .real
  | .symbol =>
    match t.text with
    | "," => some .comma
    | ":" => some .colon
    | "+" => some .sign
    | "-" => some .sign
    | _ => none

mutual

def atom? : Piece → Option Atom
  | .token t => tokenAtom? t
  | .group opening inner _ => do
    let values ← values? {} inner
    if opening.text = "(" then values.tuple? else if opening.text = "\x7b" then values.collection? else none

/-- The values that pieces write, after some others. -/
def values? (v : Values) : List Piece → Option Values
  | [] => some v
  | p :: rest => do
    let v ← v.push (← atom? p)
    values? v rest

end

end Literal

/-- Whether a text is a literal, or several with commas between them. -/
def isLiteral (text : List Char) : Bool :=
  let (pieces, faulty) := Source.group (Literal.lexer.tokens text)
  !faulty && !pieces.isEmpty && ((Literal.values? {} pieces).bind Literal.Values.tuple?).isSome

end Recordsmith.Console
