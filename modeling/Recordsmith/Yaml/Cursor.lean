import Recordsmith.Text.Blank

/-! A place in a YAML text, with the line and column that decide about its structure. -/

namespace Recordsmith.Yaml

/-- Stands for the end of the text, which holds no such character itself. -/
def endMark : Char := Char.ofNat 0

def isBreak (c : Char) : Bool := c == '\n' || c == '\r' || c.toNat == 0x85 || c.toNat == 0x2028 || c.toNat == 0x2029

def endsLine (c : Char) : Bool := c == endMark || isBreak c

/-- The end of a line, or a space. -/
def endsPart (c : Char) : Bool := c == ' ' || endsLine c

/-- The end of a line, a space or a tab. -/
def endsWord (c : Char) : Bool := c == '\t' || endsPart c

/-- Characters that a text may hold: no control characters but tabs and line breaks. -/
def isAllowed (c : Char) : Bool :=
  let n := c.toNat
  n == 9 || n == 10 || n == 13 || (0x20 ≤ n && n ≤ 0x7E) || n == 0x85 || (0xA0 ≤ n && n ≤ 0xD7FF) ||
    (0xE000 ≤ n && n ≤ 0xFFFD) || 0x10000 ≤ n

/-- The rest of a text and where it starts. -/
structure Cursor where
  chars : List Char
  index : Nat := 0
  line : Nat := 0
  column : Nat := 0
  deriving DecidableEq, Repr

namespace Cursor

/-- The character `n` places ahead. -/
def ahead (k : Cursor) (n : Nat) : Char := (k.chars.drop n).head?.getD endMark

def peek (k : Cursor) : Char := k.chars.head?.getD endMark

/-- A byte order mark takes no column. -/
def step (k : Cursor) : Cursor :=
  match k.chars with
  | [] => k
  | c :: rest =>
    if isBreak c then ⟨rest, k.index + 1, k.line + 1, 0⟩
    else ⟨rest, k.index + 1, k.line, if c.toNat == 0xFEFF then k.column else k.column + 1⟩

def skip (k : Cursor) : Nat → Cursor
  | 0 => k
  | n + 1 => k.step.skip n

/-- The characters up to the first that `p` refuses, and what follows. -/
def takeWhile (k : Cursor) (p : Char → Bool) : List Char × Cursor :=
  let taken := k.chars.takeWhile p
  (taken, k.skip taken.length)

def skipWhile (k : Cursor) (p : Char → Bool) : Cursor := (k.takeWhile p).2

/-- What a line break reads as. Only the separators of lines and paragraphs keep their own character. -/
def breakText (c : Char) : List Char := [if c.toNat == 0x2028 || c.toNat == 0x2029 then c else '\n']

/-- The line break that may stand here, written as one character, and what follows it. -/
def lineBreak (k : Cursor) : List Char × Cursor := if isBreak k.peek then (breakText k.peek, k.step) else ([], k)

/-- Whether a line starts here that divides documents. -/
def atDocumentMark (k : Cursor) : Bool :=
  (k.chars.take 3 == ['-', '-', '-'] || k.chars.take 3 == ['.', '.', '.']) && endsWord (k.ahead 3)

/-! ### What is left -/

@[simp, grind =] theorem chars_step (k : Cursor) : k.step.chars = k.chars.tail := by
  unfold step
  split
  · simp_all
  · split <;> simp_all

@[simp, grind =] theorem chars_skip (k : Cursor) (n : Nat) : (k.skip n).chars = k.chars.drop n := by
  induction n generalizing k with
  | zero => simp [skip]
  | succ n ih => simp [skip, ih]

theorem length_chars_step (k : Cursor) : k.step.chars.length = k.chars.length - 1 := by
  rw [chars_step, List.length_tail]

theorem length_chars_skip (k : Cursor) (n : Nat) : (k.skip n).chars.length = k.chars.length - n := by
  rw [chars_skip, List.length_drop]

theorem length_chars_takeWhile (k : Cursor) (p : Char → Bool) : (k.takeWhile p).2.chars.length ≤ k.chars.length := by
  simp [takeWhile]

grind_pattern length_chars_takeWhile => (k.takeWhile p).2

/-- Taking the character that stands here leaves less. -/
theorem length_chars_takeWhile_lt {k : Cursor} {p : Char → Bool} (hchars : k.chars ≠ []) (h : p k.peek = true) :
    (k.takeWhile p).2.chars.length < k.chars.length := by
  cases hk : k.chars with
  | nil => exact absurd hk hchars
  | cons c rest =>
    have hc : p c = true := by simpa [peek, hk] using h
    simp only [takeWhile, chars_skip, hk, hc, List.takeWhile_cons, List.drop_succ_cons, List.length_cons, ite_true]
    exact Nat.lt_succ_of_le (List.length_drop ▸ Nat.sub_le ..)

theorem takeWhile_of_refused {k : Cursor} {p : Char → Bool} (h : p k.peek = false) : (k.takeWhile p).2 = k := by
  cases hk : k.chars with
  | nil => simp [takeWhile, hk, skip]
  | cons c rest =>
    have hc : p c = false := by simpa [peek, hk] using h
    simp [takeWhile, hk, hc, skip]

theorem length_chars_skipWhile (k : Cursor) (p : Char → Bool) : (k.skipWhile p).chars.length ≤ k.chars.length :=
  k.length_chars_takeWhile p

grind_pattern length_chars_skipWhile => k.skipWhile p

theorem length_chars_lineBreak (k : Cursor) : k.lineBreak.2.chars.length ≤ k.chars.length := by
  unfold lineBreak
  split <;> simp

grind_pattern length_chars_lineBreak => k.lineBreak

/-- Where a character stands there is something left. -/
theorem length_chars_pos {k : Cursor} (h : k.peek ≠ endMark) : 0 < k.chars.length := by
  unfold peek at h
  cases hchars : k.chars with
  | nil => simp [hchars] at h
  | cons c rest => simp

theorem ne_endMark_of_isBreak {c : Char} (h : isBreak c = true) : c ≠ endMark := by
  rintro rfl
  exact absurd h (by decide)

/-- A step over a character leaves less. -/
theorem length_chars_step_lt {k : Cursor} (h : k.peek ≠ endMark) : k.step.chars.length < k.chars.length := by
  have hpos := length_chars_pos h
  rw [length_chars_step]
  omega

end Cursor

end Recordsmith.Yaml
