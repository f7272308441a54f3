import Recordsmith.Source.Token

/-! Tokens of Swift sources: strings with interpolated code, regular expressions, nested comments and pictographs. -/

namespace Recordsmith.Source.SwiftSource

/-! ### Strings -/

/-- Where a text with interpolated code stands: in a string with so many number signs around it, over one line or
    several, or in code with so many open brackets. -/
inductive Context
  | string (signs : Nat) (manyLines : Bool)
  | code (depth : Nat)
  deriving DecidableEq, Repr

def signsBefore (chars : List Char) : Nat := (chars.takeWhile (· == '#')).length

/-- The string that opens a text: its number signs, whether it runs over several lines, and the length of what opens
    it. -/
def stringOpening? (chars : List Char) : Option (Nat × Bool × Nat) :=
  let signs := signsBefore chars
  match chars.drop signs with
  | '"' :: '"' :: '"' :: _ => some (signs, true, signs + 3)
  | '"' :: _ => some (signs, false, signs + 1)
  | _ => none

/-- How many characters close a string here, if it closes. -/
def stringClosing? (signs : Nat) (manyLines : Bool) (chars : List Char) : Option Nat :=
  let quotes := if manyLines then ['"', '"', '"'] else ['"']
  let mark := quotes ++ List.replicate signs '#'
  if mark.isPrefixOf chars then some mark.length else none

/-- How many characters lead to the end of a string that is open, given the contexts around the place, innermost
    first, and how many characters are settled already. A string on one line ends with its line. -/
def stringLength : List Context → Nat → List Char → Nat
  | _, _, [] => 0
  | contexts, settled + 1, _ :: rest => stringLength contexts settled rest + 1
  | [], 0, _ => 0
  | .string signs manyLines :: outer, 0, c :: rest =>
    match stringClosing? signs manyLines (c :: rest) with
    | some length => stringLength outer (length - 1) rest + 1
    | none =>
      if c = '\\' then
        if (List.replicate signs '#' ++ ['(']).isPrefixOf rest then
          stringLength (.code 0 :: .string signs manyLines :: outer) (signs + 1) rest + 1
        else stringLength (.string signs manyLines :: outer) (if signs = 0 then 1 else 0) rest + 1
      else if c = '\n' ∧ !manyLines then 0
      else stringLength (.string signs manyLines :: outer) 0 rest + 1
  | .code depth :: outer, 0, c :: rest =>
    match stringOpening? (c :: rest) with
    | some (signs, manyLines, length) =>
      stringLength (.string signs manyLines :: .code depth :: outer) (length - 1) rest + 1
    | none =>
      if c = '(' then stringLength (.code (depth + 1) :: outer) 0 rest + 1
      else if c = ')' then
        stringLength (if depth = 0 then outer else .code (depth - 1) :: outer) 0 rest + 1
      else stringLength (.code depth :: outer) 0 rest + 1

/-! ### Regular expressions -/

/-- The characters of a regular expression after its opening slash, up to and with the closing one. It stands on one
    line, and no blank stands before its closing slash. -/
def regexLength? (rest : List Char) : Option Nat :=
  let body := rest.takeWhile fun c => c != '/' && c != '\n'
  match body.getLast?, rest.drop body.length with
  | some last, '/' :: _ => if last = ' ' ∨ last = '\t' then none else some (body.length + 1)
  | _, _ => none

/-- The characters of a regular expression between number signs, up to and with the last slash with a sign on its line.
    The line goes on if it ends with a slash. -/
def signedRegexLength? (afterSlash : Bool) : List Char → Option Nat
  | [] => none
  | c :: rest =>
    if c = '\n' ∧ !afterSlash then none
    else match signedRegexLength? (c == '/') rest with
      | some length => some (length + 1)
      | none => if c = '/' ∧ rest.head? = some '#' then some 2 else none

/-- The characters of a regular expression over several lines, up to and with the line that closes it. -/
def blockRegexLength? : List Char → Option Nat
  | '\n' :: '/' :: '#' :: _ => some 3
  | '/' :: '#' :: _ => none
  | '/' :: _ :: rest => (blockRegexLength? rest).map (· + 2)
  | _ :: rest => (blockRegexLength? rest).map (· + 1)
  | [] => none

/-- How many characters follow the first of a regular expression, if one stands here. After an operand a slash is an
    operator. -/
def regex? (afterOperand : Bool) : Char → List Char → Option Nat
  | '/', rest => if afterOperand then none else regexLength? rest
  | '#', '/' :: '\n' :: rest => (blockRegexLength? rest).map (· + 2)
  | '#', '/' :: c :: rest => (signedRegexLength? (c == '/') rest).map (· + 2)
  | _, _ => none

/-- Words after which an expression starts. -/
def expressionLeads : List String := [
  "return", "throw", "try", "await", "in", "case", "if", "else", "guard", "while", "where", "switch", "yield"]

/-- Operands end with names, literals and closing brackets, and go on with a mark that stands directly after them. -/
def endsOperand (afterOperand : Bool) (t : Token) : Bool :=
  match t.kind with
  | .literal => true
  | .word => t.text ∉ expressionLeads
  | .symbol => t.text ∈ [")", "]", "\x7d"] || (t.text ∈ ["!", "?"] && afterOperand && !t.apart)

/-! ### Comments and names -/

/-- The characters of a block comment that is open `depth + 1` times. Block comments nest. -/
def commentLength : Nat → List Char → Nat
  | _, [] => 0
  | depth, '/' :: '*' :: rest => commentLength (depth + 1) rest + 2
  | 0, '*' :: '/' :: _ => 2
  | depth + 1, '*' :: '/' :: rest => commentLength depth rest + 2
  | depth, _ :: rest => commentLength depth rest + 1

def wordQuote : Char := '\x60'

/-- Pictographs, which names may hold. -/
def pictographs : List (Nat × Nat) := [
  (0xA9, 0xA9), (0xAE, 0xAE), (0x203C, 0x203C), (0x2049, 0x2049), (0x2122, 0x2122), (0x2139, 0x2139),
  (0x2194, 0x2199), (0x21A9, 0x21AA), (0x231A, 0x231B), (0x2328, 0x2328), (0x23CF, 0x23CF), (0x23E9, 0x23F3),
  (0x23F8, 0x23FA), (0x24C2, 0x24C2), (0x25AA, 0x25AB), (0x25B6, 0x25B6), (0x25C0, 0x25C0), (0x25FB, 0x25FE),
  (0x2600, 0x27BF), (0x2934, 0x2935), (0x2B05, 0x2B07), (0x2B1B, 0x2B1C), (0x2B50, 0x2B50), (0x2B55, 0x2B55),
  (0x3030, 0x3030), (0x303D, 0x303D), (0x3297, 0x3297), (0x3299, 0x3299), (0x1F000, 0x1FAFF)]

def opensName (c : Char) : Bool := opensWord c || Text.inRanges pictographs c.toNat

/-- Pictographs may be joined and varied inside a name. -/
def extendsName (c : Char) : Bool :=
  extendsWord c || Text.inRanges pictographs c.toNat || c.toNat ∈ [0x200D, 0x20E3, 0xFE0F]

def lexeme (afterOperand : Bool) (c : Char) (rest : List Char) : Lexeme :=
  match c, rest with
  | '/', '/' :: more => ⟨none, (more.takeWhile (!breaksLine ·)).length + 1⟩
  | '/', '*' :: more => ⟨none, commentLength 0 more + 1⟩
  | c, rest =>
    match stringOpening? (c :: rest) with
    | some (signs, manyLines, length) =>
      ⟨some .literal, stringLength [.string signs manyLines] (length - 1) rest⟩
    | none =>
      match regex? afterOperand c rest with
      | some length => ⟨some .literal, length⟩
      | none =>
        if isGap c then ⟨none, 0⟩
        else if c.isDigit then ⟨some .literal, (rest.takeWhile fun d => d.isAlphanum || d == '_').length⟩
        else if opensName c then ⟨some .word, (rest.takeWhile extendsName).length⟩
        else if c = wordQuote then ⟨some .word, through [wordQuote] rest⟩
        else ⟨some .symbol, 0⟩

def lexer : Lexer := { lexeme, endsOperand }

end Recordsmith.Source.SwiftSource
