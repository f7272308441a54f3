import Recordsmith.Text.CodePoint
import Recordsmith.Yaml.Cursor
import Recordsmith.Yaml.Error

/-! Scalars as they are written: plain, quoted, and as blocks of lines. -/

namespace Recordsmith.Yaml

open Text (CodePoint)

/-- What a line break inside a flowing scalar contributes: a single one becomes a space, and of several the first is
    dropped. -/
def folded (first breaks : List Char) : List Char :=
  if first ≠ ['\n'] then first ++ breaks else if breaks = [] then [' '] else breaks

/-! ### Plain scalars -/

/-- The line breaks in a run of spaces and line breaks, or none if the run leads to the end of the document. -/
def emptyLines (k : Cursor) : Option (List Char) × Cursor :=
  if k.peek = ' ' then emptyLines k.step
  else if isBreak k.peek then
    if k.step.atDocumentMark then (none, k.step)
    else
      let (more, rest) := emptyLines k.step
      (more.map (Cursor.breakText k.peek ++ ·), rest)
  else (some [], k)
termination_by k.chars.length
decreasing_by
  · rename_i hspace
    exact Cursor.length_chars_step_lt (by rw [hspace]; decide)
  · rename_i hbreak _
    exact Cursor.length_chars_step_lt (Cursor.ne_endMark_of_isBreak hbreak)

theorem length_chars_emptyLines (k : Cursor) : (emptyLines k).2.chars.length ≤ k.chars.length := by
  fun_induction emptyLines k <;> simp_all <;> omega

/-- The blanks after a part of a plain scalar: what they contribute if the scalar goes on, whether they end a line, and
    what follows them. -/
def plainBlanks (k : Cursor) : List Char × Bool × Cursor :=
  let (spaces, k) := k.takeWhile (· == ' ')
  if isBreak k.peek then
    let (first, k) := k.lineBreak
    if k.atDocumentMark then ([], true, k)
    else
      match emptyLines k with
      | (some breaks, k) => (folded first breaks, true, k)
      | (none, k) => ([], true, k)
  else (spaces, false, k)

theorem length_chars_plainBlanks (k : Cursor) : (plainBlanks k).2.2.chars.length ≤ k.chars.length := by
  have hspaces := k.length_chars_takeWhile (· == ' ')
  have hbreak := (k.takeWhile (· == ' ')).2.length_chars_lineBreak
  have hlines := length_chars_emptyLines (k.takeWhile (· == ' ')).2.lineBreak.2
  unfold plainBlanks
  dsimp only
  split
  · split
    · exact Nat.le_trans hbreak hspaces
    · split
      · rename_i hempty
        rw [hempty] at hlines
        exact Nat.le_trans hlines (Nat.le_trans hbreak hspaces)
      · rename_i hempty
        rw [hempty] at hlines
        exact Nat.le_trans hlines (Nat.le_trans hbreak hspaces)
  · exact hspaces

/-- How many characters a part of a plain scalar has. -/
def plainLength (inFlow : Bool) : List Char → Nat
  | [] => 0
  | c :: rest =>
    let next := rest.head?.getD endMark
    let isIndicator (d : Char) := inFlow && [',', '[', ']', '\x7b', '\x7d'].contains d
    if endsWord c || (c == ':' && (endsWord next || isIndicator next)) || isIndicator c || (inFlow && c == '?') then 0
    else plainLength inFlow rest + 1

/-- A plain scalar: its text, what follows, and whether a new line was started after its last part. -/
def plainScalar (inFlow : Bool) (indent : Int) (blanks : List Char) (k : Cursor) : List Char × Bool × Cursor :=
  let length := plainLength inFlow k.chars
  if k.peek = '#' ∨ length = 0 then ([], false, k)
  else
    let part := k.chars.take length
    match _hblanks : plainBlanks (k.skip length) with
    | (next, brokeLine, after) =>
      if next = [] ∨ after.peek = '#' ∨ (!inFlow ∧ (after.column : Int) < indent) then (blanks ++ part, brokeLine, after)
      else
        let (more, laterBreak, last) := plainScalar inFlow indent next after
        (blanks ++ part ++ more, if more = [] then brokeLine else laterBreak, last)
termination_by k.chars.length
decreasing_by
  rename_i hpart _
  have hlength : plainLength inFlow k.chars ≠ 0 := fun h => hpart (Or.inr h)
  have hafter := length_chars_plainBlanks (k.skip (plainLength inFlow k.chars))
  rw [_hblanks, Cursor.length_chars_skip] at hafter
  have hchars : 0 < k.chars.length := by
    cases hk : k.chars with
    | nil => simp [hk, plainLength] at hlength
    | cons c rest => simp
  dsimp only at hafter
  omega

/-- A plain scalar takes its first part at least. -/
theorem length_chars_plainScalar (inFlow : Bool) {k : Cursor} (indent : Int) (blanks : List Char) (h : k.peek ≠ '#') :
    (plainScalar inFlow indent blanks k).2.2.chars.length ≤ k.chars.length - plainLength inFlow k.chars := by
  fun_induction plainScalar inFlow indent blanks k with
  | case1 blanks k length hnone =>
    have hlength : plainLength inFlow k.chars = 0 := hnone.resolve_left h
    rw [hlength]
    exact Nat.le_refl _
  | case2 blanks k length hpart part next brokeLine after hblanks hstop =>
    have hafter := length_chars_plainBlanks (k.skip length)
    rwa [hblanks, Cursor.length_chars_skip] at hafter
  | case3 blanks k length hpart part next brokeLine after hblanks hgoes more laterBreak last hmore ih =>
    have hafter := length_chars_plainBlanks (k.skip length)
    rw [hblanks, Cursor.length_chars_skip] at hafter
    have hlast := ih fun hmark => hgoes (Or.inr (Or.inl hmark))
    rw [hmore] at hlast
    exact Nat.le_trans hlast (Nat.le_trans (Nat.sub_le ..) hafter)

/-! ### Quoted scalars -/

/-- The characters that single letters after a backslash stand for. -/
def escaped? (c : Char) : Option Char :=
  match c with
  | '0' => some (Char.ofNat 0)
  | 'a' => some (Char.ofNat 7)
  | 'b' => some (Char.ofNat 8)
  | 't' => some '\t'
  | '\t' => some '\t'
  | 'n' => some '\n'
  | 'v' => some (Char.ofNat 11)
  | 'f' => some (Char.ofNat 12)
  | 'r' => some '\r'
  | 'e' => some (Char.ofNat 27)
  | ' ' => some ' '
  | '"' => some '"'
  | '\\' => some '\\'
  | '/' => some '/'
  | 'N' => some (Char.ofNat 0x85)
  | '_' => some (Char.ofNat 0xA0)
  | 'L' => some (Char.ofNat 0x2028)
  | 'P' => some (Char.ofNat 0x2029)
  | _ => none

/-- How many hexadecimal digits follow a letter after a backslash. -/
def escapeDigits? (c : Char) : Option Nat :=
  match c with
  | 'x' => some 2
  | 'u' => some 4
  | 'U' => some 8
  | _ => none

def hexDigit? (c : Char) : Option Nat :=
  if c.isDigit then some (c.toNat - 48)
  else if 'a' ≤ c ∧ c ≤ 'f' then some (c.toNat - 87)
  else if 'A' ≤ c ∧ c ≤ 'F' then some (c.toNat - 55)
  else none

/-- The number that hexadecimal digits write. -/
def hexNumber? (digits : List Char) : Option Nat :=
  digits.foldl (fun n c => n.bind fun n => (hexDigit? c).map (n * 16 + ·)) (some 0)

def isQuotedBlank (c : Char) : Bool := c == ' ' || c == '\t'

/-- The line breaks between two lines of a quoted scalar. A mark between documents must not stand there. -/
def quotedBreaks (k : Cursor) : Option (List Char × Cursor) :=
  if k.atDocumentMark then none
  else
    let spaced := k.skipWhile isQuotedBlank
    if isBreak spaced.peek then
      (quotedBreaks spaced.step).map fun (more, rest) => (Cursor.breakText spaced.peek ++ more, rest)
    else some ([], spaced)
termination_by k.chars.length
decreasing_by
  rename_i hbreak
  exact Nat.lt_of_lt_of_le (Cursor.length_chars_step_lt (Cursor.ne_endMark_of_isBreak hbreak))
    (k.length_chars_skipWhile isQuotedBlank)

theorem length_chars_quotedBreaks {k rest : Cursor} {breaks : List Char} (h : quotedBreaks k = some (breaks, rest)) :
    rest.chars.length ≤ k.chars.length := by
  fun_induction quotedBreaks k generalizing breaks rest with
  | case1 => cases h
  | case2 k hmark spaced hbreak =>
    rename_i ih
    obtain ⟨⟨more, last⟩, hmore, heq⟩ := Option.map_eq_some_iff.mp h
    obtain ⟨-, rfl⟩ := Prod.mk.inj heq
    have hlast := ih hmore
    have hspaced : spaced.chars.length ≤ k.chars.length := k.length_chars_skipWhile isQuotedBlank
    rw [Cursor.length_chars_step] at hlast
    omega
  | case3 k hmark spaced =>
    cases h
    exact k.length_chars_skipWhile isQuotedBlank

/-- What a backslash in a quoted scalar and the characters after it write, and what follows them. -/
def escape (k : Cursor) : Except YamlError (List CodePoint × Cursor) :=
  match escaped? k.peek, escapeDigits? k.peek with
  | some d, _ => .ok ([.char d], k.step)
  | none, some count =>
    let digits := k.step.chars.take count
    match if digits.length = count then hexNumber? digits else none with
    | none => .error .malformed
    | some n =>
      match CodePoint.ofNat? n with
      | some point => .ok ([point], k.step.skip count)
      | none => .error (.fault (if n < 0x80000000 then .noCodePoint else .hugeNumber))
  | none, none =>
    if isBreak k.peek then (orMalformed (quotedBreaks k.step)).map fun (breaks, k) => (CodePoint.ofChars breaks, k)
    else .error .malformed

theorem length_chars_escape {k rest : Cursor} {points : List CodePoint} (h : escape k = .ok (points, rest)) :
    rest.chars.length ≤ k.chars.length := by
  unfold escape at h
  split at h
  · cases h
    simp
  · dsimp only at h
    split at h
    · cases h
    · split at h
      · cases h
        simp
      · cases h
  · split at h
    · obtain ⟨⟨breaks, last⟩, hbreaks, heq⟩ := map_eq_ok h
      obtain rfl : last = rest := congrArg Prod.snd heq
      have hlast := length_chars_quotedBreaks (orMalformed_eq_ok hbreaks)
      rw [Cursor.length_chars_step] at hlast
      omega
    · cases h

/-- The blanks and line breaks at one place of a quoted scalar, and what follows them. -/
def quotedBlanks (k : Cursor) : Except YamlError (List CodePoint × Cursor) :=
  let (blanks, k) := k.takeWhile isQuotedBlank
  if k.chars = [] then .error .malformed
  else if isBreak k.peek then
    (orMalformed (quotedBreaks k.step)).map fun (breaks, rest) =>
      (CodePoint.ofChars (folded (Cursor.breakText k.peek) breaks), rest)
  else .ok (CodePoint.ofChars blanks, k)

theorem length_chars_quotedBlanks {k rest : Cursor} {points : List CodePoint} (hchars : k.chars ≠ [])
    (hblank : isQuotedBlank k.peek = true ∨ isBreak k.peek = true) (h : quotedBlanks k = .ok (points, rest)) :
    rest.chars.length < k.chars.length := by
  unfold quotedBlanks at h
  dsimp only at h
  split at h
  · cases h
  split at h
  · -- The line break that ends the blanks is passed.
    rename_i hbreak
    obtain ⟨⟨breaks, last⟩, hbreaks, heq⟩ := map_eq_ok h
    obtain rfl : last = rest := congrArg Prod.snd heq
    have hlast := length_chars_quotedBreaks (orMalformed_eq_ok hbreaks)
    have hpassed := Cursor.length_chars_step_lt (Cursor.ne_endMark_of_isBreak hbreak)
    have hblanks := k.length_chars_takeWhile isQuotedBlank
    omega
  · -- Without a line break after them there are blanks.
    rename_i hbreak
    cases h
    by_cases hspace : isQuotedBlank k.peek = true
    · exact Cursor.length_chars_takeWhile_lt hchars hspace
    · rw [Cursor.takeWhile_of_refused (by simpa using hspace)] at hbreak
      exact absurd (hblank.resolve_left hspace) hbreak

/-- What stands at one place of a quoted scalar, and what follows it; nothing if the scalar is closed here. -/
def quotedPart (quote : Char) (k : Cursor) : Except YamlError (Option (List CodePoint) × Cursor) :=
  let isDouble := quote == '"'
  let c := k.peek
  if k.chars = [] then .error .malformed
  else if c = quote then
    .ok (if !isDouble ∧ k.ahead 1 = quote then (some [.char quote], k.skip 2) else (none, k.step))
  else if isDouble ∧ c = '\\' then (escape k.step).map fun (points, k) => (some points, k)
  else if isQuotedBlank c ∨ isBreak c then (quotedBlanks k).map fun (points, k) => (some points, k)
  else .ok (some [.char c], k.step)

theorem length_chars_quotedPart {quote : Char} {k rest : Cursor} {points : List CodePoint}
    (h : quotedPart quote k = .ok (some points, rest)) : rest.chars.length < k.chars.length := by
  unfold quotedPart at h
  dsimp only at h
  split at h
  · cases h
  rename_i hchars
  have hpos := List.length_pos_iff.mpr hchars
  split at h
  · split at h
    · cases h
      simp
      omega
    · cases h
  split at h
  · obtain ⟨⟨written, last⟩, hescape, heq⟩ := map_eq_ok h
    obtain rfl : last = rest := congrArg Prod.snd heq
    have hlast := length_chars_escape hescape
    rw [Cursor.length_chars_step] at hlast
    omega
  split at h
  · rename_i hblank
    obtain ⟨⟨blanks, last⟩, hblanks, heq⟩ := map_eq_ok h
    obtain rfl : last = rest := congrArg Prod.snd heq
    exact length_chars_quotedBlanks hchars hblank hblanks
  · cases h
    rw [Cursor.length_chars_step]
    omega

theorem chars_quotedPart_none {quote : Char} {k rest : Cursor} (h : quotedPart quote k = .ok (none, rest)) : rest = k.step := by
  unfold quotedPart at h
  dsimp only at h
  split at h
  · cases h
  split at h
  · split at h
    · cases h
    · cases h
      rfl
  split at h
  · obtain ⟨written, -, heq⟩ := map_eq_ok h
    cases heq
  split at h
  · obtain ⟨blanks, -, heq⟩ := map_eq_ok h
    cases heq
  · cases h

/-- The code points of a quoted scalar after its opening quote, and what follows its closing one. -/
def quotedScalar (quote : Char) (k : Cursor) : Except YamlError (List CodePoint × Cursor) :=
  match _hpart : quotedPart quote k with
  | .error e => .error e
  | .ok (none, rest) => .ok ([], rest)
  | .ok (some points, rest) => (quotedScalar quote rest).map fun (more, last) => (points ++ more, last)
termination_by k.chars.length
decreasing_by exact length_chars_quotedPart _hpart

theorem length_chars_quotedScalar {quote : Char} {k rest : Cursor} {points : List CodePoint}
    (h : quotedScalar quote k = .ok (points, rest)) : rest.chars.length ≤ k.chars.length := by
  fun_induction quotedScalar quote k generalizing points rest with
  | case1 => cases h
  | case2 k last hpart =>
    cases h
    rw [chars_quotedPart_none hpart, Cursor.length_chars_step]
    omega
  | case3 k part after hpart ih =>
    have hafter := length_chars_quotedPart hpart
    obtain ⟨⟨more, last⟩, hmore, heq⟩ := map_eq_ok h
    obtain rfl : last = rest := congrArg Prod.snd heq
    have hlast := ih hmore
    omega

/-! ### Blocks -/

/-- What becomes of the line breaks at the end of a block. -/
inductive Chomping
  | clip
  | strip
  | keep
  deriving DecidableEq, Repr

def chomping? (c : Char) : Option Chomping :=
  if c = '+' then some .keep else if c = '-' then some .strip else none

/-- A digit that says how much deeper a block is indented; zero is no such digit. -/
def increment? (k : Cursor) : Option (Option Nat × Cursor) :=
  if k.peek = '0' then none
  else if k.peek.isDigit then some (some (k.peek.toNat - 48), k.step)
  else some (none, k)

@[grind →] theorem length_chars_increment? {k rest : Cursor} {extra : Option Nat} (h : increment? k = some (extra, rest)) :
    rest.chars.length ≤ k.chars.length := by
  grind [increment?]

/-- The indicators in the head of a block, in either order. -/
def blockIndicators (k : Cursor) : Option (Chomping × Option Nat × Cursor) := do
  let (chomping, increment, k) ←
    match chomping? k.peek with
    | some chomping => do
      let (increment, k) ← increment? k.step
      some (chomping, increment, k)
    | none => do
      let (increment, after) ← increment? k
      if increment.isSome then
        match chomping? after.peek with
        | some chomping => some (chomping, increment, after.step)
        | none => some (.clip, increment, after)
      else some (.clip, none, k)
  if endsPart k.peek then some (chomping, increment, k) else none

@[grind →] theorem length_chars_blockIndicators {k rest : Cursor} {chomping : Chomping} {extra : Option Nat}
    (h : blockIndicators k = some (chomping, extra, rest)) : rest.chars.length ≤ k.chars.length := by
  grind [blockIndicators, Option.bind_eq_some_iff]

/-- Skips spaces and a comment after them. -/
def Cursor.skipComment (k : Cursor) : Cursor :=
  let k := k.skipWhile (· == ' ')
  if k.peek = '#' then k.skipWhile (!endsLine ·) else k

theorem Cursor.length_chars_skipComment (k : Cursor) : k.skipComment.chars.length ≤ k.chars.length := by
  have hspaces := k.length_chars_skipWhile (· == ' ')
  unfold skipComment
  dsimp only
  split
  · exact Nat.le_trans (Cursor.length_chars_skipWhile ..) hspaces
  · exact hspaces

grind_pattern Cursor.length_chars_skipComment => k.skipComment

/-- The rest of a line that may hold nothing but a comment. -/
def ignoredLine (k : Cursor) : Option Cursor :=
  let k := k.skipComment
  if endsLine k.peek then some k.lineBreak.2 else none

@[grind →] theorem length_chars_ignoredLine {k rest : Cursor} (h : ignoredLine k = some rest) :
    rest.chars.length ≤ k.chars.length := by
  grind [ignoredLine]

/-- The empty lines before a block, and the widest indentation among them and its first line. -/
def blockIndentation (widest : Nat) (k : Cursor) : List Char × Nat × Cursor :=
  if k.peek = ' ' then blockIndentation (max widest k.step.column) k.step
  else if isBreak k.peek then
    let (more, widest, rest) := blockIndentation widest k.step
    (Cursor.breakText k.peek ++ more, widest, rest)
  else ([], widest, k)
termination_by k.chars.length
decreasing_by
  · rename_i hspace
    exact Cursor.length_chars_step_lt (by rw [hspace]; decide)
  · rename_i hbreak
    exact Cursor.length_chars_step_lt (Cursor.ne_endMark_of_isBreak hbreak)

theorem length_chars_blockIndentation (widest : Nat) (k : Cursor) :
    (blockIndentation widest k).2.2.chars.length ≤ k.chars.length := by
  fun_induction blockIndentation widest k <;> grind

grind_pattern length_chars_blockIndentation => blockIndentation widest k

/-- Skips spaces up to a column. -/
def skipIndent (indent : Nat) (k : Cursor) : Cursor :=
  k.skip (min (indent - k.column) (k.chars.takeWhile (· == ' ')).length)

/-- The empty lines inside a block. -/
def blockBreaks (indent : Nat) (k : Cursor) : List Char × Cursor :=
  let indented := skipIndent indent k
  if isBreak indented.peek then
    let (more, rest) := blockBreaks indent indented.step
    (Cursor.breakText indented.peek ++ more, rest)
  else ([], indented)
termination_by k.chars.length
decreasing_by
  rename_i hbreak
  exact Nat.lt_of_lt_of_le (Cursor.length_chars_step_lt (Cursor.ne_endMark_of_isBreak hbreak)) (by simp [skipIndent])

theorem length_chars_blockBreaks (indent : Nat) (k : Cursor) :
    (blockBreaks indent k).2.chars.length ≤ k.chars.length := by
  fun_induction blockBreaks indent k with
  | case1 k indented hbreak more rest hrest ih =>
    have hindented : indented.chars.length ≤ k.chars.length := by simp [indented, skipIndent]
    rw [hrest, Cursor.length_chars_step] at ih
    dsimp only at ih ⊢
    omega
  | case2 k indented hbreak => simp [indented, skipIndent]

grind_pattern length_chars_blockBreaks => blockBreaks indent k

/-- A line of a block leaves less, be it only by its line break. -/
theorem length_chars_line {k : Cursor} (h : k.chars ≠ []) :
    (k.takeWhile (!isBreak ·)).2.lineBreak.2.chars.length < k.chars.length := by
  have hpos := List.length_pos_iff.mpr h
  have hbreak := (k.takeWhile (!isBreak ·)).2.length_chars_lineBreak
  by_cases hpeek : isBreak k.peek = true
  · rw [Cursor.takeWhile_of_refused (by simp [hpeek]), Cursor.lineBreak, if_pos hpeek, Cursor.chars_step,
      List.length_tail]
    omega
  · exact Nat.lt_of_le_of_lt hbreak (Cursor.length_chars_takeWhile_lt h (by simpa using hpeek))

/-- The lines of a block, given the empty lines before the next one: its text, its last line break, the empty lines
    after it, and what follows. -/
def blockLines (isFolded : Bool) (indent : Nat) (breaks : List Char) (k : Cursor) :
    List Char × List Char × List Char × Cursor :=
  if k.column = indent ∧ k.chars ≠ [] then
    let isText (k : Cursor) := k.peek ≠ ' ' && k.peek ≠ '\t'
    let (line, _) := k.takeWhile (!isBreak ·)
    let (mark, _) := (k.takeWhile (!isBreak ·)).2.lineBreak
    match _hnext : blockBreaks indent (k.takeWhile (!isBreak ·)).2.lineBreak.2 with
    | (nextBreaks, after) =>
    if after.column = indent ∧ after.chars ≠ [] then
      let joint :=
        if isFolded ∧ mark = ['\n'] ∧ isText k ∧ isText after then if nextBreaks = [] then [' '] else [] else mark
      let (more, rest) := blockLines isFolded indent nextBreaks after
      (breaks ++ line ++ joint ++ more, rest)
    else (breaks ++ line, mark, nextBreaks, after)
  else ([], [], breaks, k)
termination_by k.chars.length
decreasing_by
  rename_i hline _
  have hafter := length_chars_blockBreaks indent (k.takeWhile (!isBreak ·)).2.lineBreak.2
  rw [_hnext] at hafter
  exact Nat.lt_of_le_of_lt hafter (length_chars_line hline.2)

theorem length_chars_blockLines (isFolded : Bool) (indent : Nat) (breaks : List Char) (k : Cursor) :
    (blockLines isFolded indent breaks k).2.2.2.chars.length ≤ k.chars.length := by
  fun_induction blockLines isFolded indent breaks k <;> grind

grind_pattern length_chars_blockLines => blockLines isFolded indent breaks k

/-- A block after its opening sign: its text and what follows. `parent` is the indentation around it. -/
def blockScalar (isFolded : Bool) (parent : Int) (k : Cursor) : Option (List Char × Cursor) := do
  let (chomping, increment, k) ← blockIndicators k
  let k ← ignoredLine k
  let least := max 1 (parent + 1).toNat
  let (breaks, indent, k) := match increment with
    | some extra =>
      let indent := least + extra - 1
      let (breaks, k) := blockBreaks indent k
      (breaks, indent, k)
    | none =>
      let (breaks, widest, k) := blockIndentation 0 k
      (breaks, max least widest, k)
  let (text, mark, breaks, k) := blockLines isFolded indent breaks k
  let ending := match chomping with
    | .strip => []
    | .clip => mark
    | .keep => mark ++ breaks
  some (text ++ ending, k)

theorem length_chars_blockScalar {isFolded : Bool} {parent : Int} {k rest : Cursor} {text : List Char}
    (h : blockScalar isFolded parent k = some (text, rest)) : rest.chars.length ≤ k.chars.length := by
  grind [blockScalar, Option.bind_eq_some_iff]

end Recordsmith.Yaml
