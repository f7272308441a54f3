/-!
UTF-8: bytes of a text, and reading bytes back piece by piece. A piece is a character, or a faulty run of bytes: the
longest start of a sequence that could still have become a character, or a single byte that opens none.
-/

namespace Recordsmith.Text.Utf8

/-- Why a run of bytes is no character. -/
inductive Fault
  | start
  | continuation
  | truncated
  deriving DecidableEq, Repr

def Fault.reason : Fault → String
  | .start => "invalid start byte"
  | .continuation => "invalid continuation byte"
  | .truncated => "unexpected end of data"

inductive Piece
  | char (c : Char)
  | bad (size : Nat) (fault : Fault)
  deriving DecidableEq, Repr

/-- A sequence that is not complete: the bits so far, the bytes still owed, the bounds of the next byte, and the bytes
    already taken. -/
structure Pending where
  value : Nat
  owed : Nat
  low : Nat
  high : Nat
  taken : Nat
  deriving DecidableEq, Repr

/-- What a byte opens when no sequence is pending. -/
def opening (byte : Nat) : Piece ⊕ Pending :=
  if byte < 0x80 then .inl (.char (Char.ofNat byte))
  else if byte < 0xC2 then .inl (.bad 1 .start)
  else if byte < 0xE0 then .inr ⟨byte - 0xC0, 1, 0x80, 0xBF, 1⟩
  else if byte < 0xF0 then
    .inr ⟨byte - 0xE0, 2, if byte == 0xE0 then 0xA0 else 0x80, if byte == 0xED then 0x9F else 0xBF, 1⟩
  else if byte < 0xF5 then
    .inr ⟨byte - 0xF0, 3, if byte == 0xF0 then 0x90 else 0x80, if byte == 0xF4 then 0x8F else 0xBF, 1⟩
  else .inl (.bad 1 .start)

def Pending.push (p : Pending) (byte : Nat) : Pending :=
  ⟨p.value * 64 + (byte - 0x80), p.owed - 1, 0x80, 0xBF, p.taken + 1⟩

def Pending.accepts (p : Pending) (byte : Nat) : Bool := p.low ≤ byte && byte ≤ p.high

def Pending.interrupted (p : Pending) : Piece := .bad p.taken .continuation

/-- The pieces of a byte sequence that starts inside `pending`. -/
def pieces (pending : Option Pending) : List UInt8 → List Piece
  | [] => match pending with
    | none => []
    | some p => [.bad p.taken .truncated]
  | byte :: rest =>
    let b := byte.toNat
    match pending.filter (·.accepts b) with
    | some p =>
      if p.owed = 1 then .char (Char.ofNat (p.push b).value) :: pieces none rest else pieces (some (p.push b)) rest
    | none =>
      (pending.map (·.interrupted)).toList ++
        match opening b with
        | .inl piece => piece :: pieces none rest
        | .inr p => pieces (some p) rest

/-- The UTF-8 bytes of a text. -/
def encode (text : List Char) : List UInt8 := text.flatMap String.utf8EncodeChar

/-- The first faulty run of a byte sequence: its bytes, where it starts, and what is wrong with it. -/
structure DecodeError where
  bytes : List UInt8
  position : Nat
  fault : Fault
  deriving DecidableEq, Repr

def hexDigits (n : Nat) : String := String.ofList [Nat.digitChar (n / 16 % 16), Nat.digitChar (n % 16)]

def DecodeError.message (e : DecodeError) : String :=
  let place := match e.bytes with
    | [byte] => "byte 0x" ++ hexDigits byte.toNat ++ " in position " ++ toString e.position
    | bytes => "bytes in position " ++ toString e.position ++ "-" ++ toString (e.position + bytes.length - 1)
  "'utf-8' codec can't decode " ++ place ++ ": " ++ e.fault.reason

/-- The characters of the pieces, up to the first faulty run. `bytes` are the bytes that the pieces were read from. -/
def characters (bytes : List UInt8) (position : Nat) : List Piece → Except DecodeError (List Char)
  | [] => .ok []
  | .char c :: more =>
    let size := (String.utf8EncodeChar c).length
    match characters (bytes.drop size) (position + size) more with
    | .ok rest => .ok (c :: rest)
    | .error e => .error e
  | .bad size fault :: _ => .error ⟨bytes.take size, position, fault⟩

/-- Reads bytes as a text, refusing the first run of bytes that is no character. -/
def decode (bytes : List UInt8) : Except DecodeError (List Char) := characters bytes 0 (pieces none bytes)

/-- The error as a reader sees that takes a file in portions: a run that the end of the file cuts off is all that is left
    over from the portions before, so its place is counted from its own start. -/
def DecodeError.inPortions (e : DecodeError) : DecodeError :=
  if e.fault = .truncated then { e with position := 0 } else e

/-- How many characters the bytes read as when every faulty run counts as one. -/
def lossyLength (bytes : List UInt8) : Nat := (pieces none bytes).length

/-- The character offset of a byte offset. In a text of single bytes the two agree, also past its end. -/
def charOffset (text : List Char) (byteOffset : Nat) : Nat :=
  let bytes := encode text
  if bytes.length = text.length then byteOffset else lossyLength (bytes.take byteOffset)

end Recordsmith.Text.Utf8
