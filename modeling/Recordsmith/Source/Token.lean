import Recordsmith.Text.Blank
import Recordsmith.Text.Identifier
import Recordsmith.Total

/-! Tokens of source texts, with the bytes they span. Which lexeme opens a text is for each language to say. -/

namespace Recordsmith.Source

inductive TokenKind
  | word
  | literal
  | symbol
  deriving DecidableEq, Repr, Inhabited

/-- A token stands `apart` when blanks or comments separate it from the token before, and `opensLine` when a line break
    does. -/
structure Token where
  kind : TokenKind
  text : String
  start : Nat
  stop : Nat
  apart : Bool
  opensLine : Bool
  deriving DecidableEq, Repr, Inhabited

/-- What opens a text: a token, or blanks and comments. It takes `extra` characters after the first. -/
structure Lexeme where
  kind : Option TokenKind
  extra : Nat
  deriving DecidableEq, Repr

/-- Either character of a line break. -/
def breaksLine (c : Char) : Bool := c == '\n' || c == '\r'

/-- The bytes that a text takes. -/
def byteLength (chars : List Char) : Nat := total (chars.map Char.utf8Size)

/-- How the texts of a language fall into lexemes. What opens a text may depend on whether an operand stands before it. -/
structure Lexer where
  lexeme : (afterOperand : Bool) → Char → List Char → Lexeme
  /-- Whether an operand ends with a token, given whether one ended before it. -/
  endsOperand : (afterOperand : Bool) → Token → Bool := fun _ _ => false

/-- The tokens of a text that starts at byte `position`. -/
def tokens (lexer : Lexer) (position : Nat) (apart opensLine afterOperand : Bool) : List Char → List Token
  | [] => []
  | c :: rest =>
    let found := lexer.lexeme afterOperand c rest
    let taken := c :: rest.take found.extra
    let stop := position + byteLength taken
    match found.kind with
    | none => tokens lexer stop true (opensLine || taken.any breaksLine) afterOperand (rest.drop found.extra)
    | some kind =>
      let token : Token := ⟨kind, String.ofList taken, position, stop, apart, opensLine⟩
      token :: tokens lexer stop false false (lexer.endsOperand afterOperand token) (rest.drop found.extra)
termination_by chars => chars.length
decreasing_by all_goals simp only [List.length_drop, List.length_cons]; omega

/-- The tokens of a whole text. -/
def Lexer.tokens (lexer : Lexer) (text : List Char) : List Token := Source.tokens lexer 0 false false false text

/-! ### Lexemes that languages share -/

/-- A mark at the start of a file that says how it is encoded. -/
def encodingMark : Char := Char.ofNat 0xFEFF

def isGap (c : Char) : Bool := Text.isBlank c || c == encodingMark

def opensWord (c : Char) : Bool := Text.opensIdentifier c || c == '$'

def extendsWord (c : Char) : Bool := Text.extendsIdentifier c || c == '$'

/-- The characters up to the end of the line. -/
def restOfLine (chars : List Char) : Nat := (chars.takeWhile (· ≠ '\n')).length

/-- The characters up to and with the first place where `mark` stands, or all of them. -/
def through (mark : List Char) : List Char → Nat
  | [] => 0
  | c :: rest => if mark.isPrefixOf (c :: rest) then mark.length else through mark rest + 1

/-- The characters of a number after its first digit. -/
def numberLength (chars : List Char) : Nat :=
  (chars.takeWhile fun c => c.isAlphanum || c == '_' || c == '.').length

end Recordsmith.Source
