import Recordsmith.Text.Quoted
import Recordsmith.Text.Utf8

/-!
Code points: what the texts are made of that escapes can write. Besides characters these are surrogates, which are half
a character in another encoding and have no bytes in UTF-8.
-/

namespace Recordsmith.Text

inductive CodePoint
  | char (c : Char)
  | surrogate (n : Nat)
  deriving DecidableEq, Repr, Inhabited

namespace CodePoint

def ofNat? (n : Nat) : Option CodePoint :=
  if 0xD800 ≤ n ∧ n ≤ 0xDFFF then some (.surrogate n)
  else if n ≤ 0x10FFFF then some (.char (Char.ofNat n))
  else none

def surrogate? : CodePoint → Option Nat
  | .char _ => none
  | .surrogate n => some n

/-- The code points of a text. -/
def ofChars (text : List Char) : List CodePoint := text.map .char

/-- The surrogates of a text, in their order. -/
def surrogates (points : List CodePoint) : List Nat := points.filterMap surrogate?

/-! ### Stand-ins -/

/-- Stands for a surrogate where only a character can. -/
def standIn : Char := Char.ofNat 0xFFFD

/-- Stands for a surrogate in the twin of a text. -/
def twinStandIn : Char := Char.ofNat 0xFFFC

/-- A text with one character in the place of all its surrogates. -/
def withStandIn (standIn : Char) (points : List CodePoint) : String :=
  String.ofList (points.map fun
    | .char c => c
    | .surrogate _ => standIn)

/-- The code points of a text that was made twice, with different characters where a surrogate belongs. The surrogates
    are those of `all` in turn, again and again, of which `next` are still to come this time. -/
def ofTwins (all : List Nat) : List Nat → List Char → List Char → List CodePoint
  | next, c :: text, d :: twin =>
    if c = d then .char c :: ofTwins all next text twin
    else match if next.isEmpty then all else next with
      | n :: more => .surrogate n :: ofTwins all more text twin
      | [] => .char c :: ofTwins all next text twin
  | _, text, _ => ofChars text

/-- A function of texts on what stands between the surrogates. The characters since the last one come first. -/
def mapBetween (f : List Char → List Char) (since : List Char) : List CodePoint → List CodePoint
  | [] => ofChars (f since)
  | .char c :: rest => mapBetween f (since ++ [c]) rest
  | .surrogate n :: rest => ofChars (f since) ++ .surrogate n :: mapBetween f [] rest

/-! ### Encoding -/

/-- The first run of surrogates in a text: where it starts, its first one, and how many more there are. -/
structure EncodeError where
  position : Nat
  first : Nat
  more : Nat
  deriving DecidableEq, Repr

def EncodeError.message (e : EncodeError) : String :=
  let place :=
    if e.more = 0 then "character '\\u" ++ String.ofList (hexText 4 e.first) ++ "' in position " ++ toString e.position
    else "characters in position " ++ toString e.position ++ "-" ++ toString (e.position + e.more)
  "'utf-8' codec can't encode " ++ place ++ ": surrogates not allowed"

/-- The first run of surrogates that opens with one without a byte, if any surrogate has none. -/
def encodeError? (hasByte : Nat → Bool) (points : List CodePoint) : Option EncodeError :=
  let before := points.takeWhile fun p => p.surrogate?.all hasByte
  match surrogates ((points.drop before.length).takeWhile fun p => p.surrogate?.isSome) with
  | first :: more => some ⟨before.length, first, more.length⟩
  | [] => none

/-- The bytes of a text. In UTF-8 no surrogate has any. -/
def encode (points : List CodePoint) : Except EncodeError (List UInt8) :=
  match encodeError? (fun _ => false) points with
  | some e => .error e
  | none => .ok (Utf8.encode (withStandIn standIn points).toList)

/-- Surrogates that stand for single bytes in the name of a file. -/
def isFileByte (n : Nat) : Bool := 0xDC80 ≤ n && n ≤ 0xDCFF

end CodePoint

end Recordsmith.Text
