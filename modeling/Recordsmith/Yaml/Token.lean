import Recordsmith.Text.Utf8
import Recordsmith.Yaml.Scalar

/-! Tokens of a YAML text, and how names, tags and directives are written. -/

namespace Recordsmith.Yaml

open Text (CodePoint)

inductive Token
  | version (major : Nat)
  | tagHandle (handle expansion : List Char)
  | reservedDirective
  | documentStart
  | documentEnd
  | blockSequenceStart
  | blockMappingStart
  | blockEnd
  | flowSequenceStart
  | flowSequenceEnd
  | flowMappingStart
  | flowMappingEnd
  | blockEntry
  | flowEntry
  | key
  | value
  | alias (name : List Char)
  | anchor (name : List Char)
  | tag (handle : Option (List Char)) (rest : List Char)
  | scalar (text : List Char) (plain : Bool)
  /-- A scalar with surrogates, which only stand between quotes. -/
  | rawScalar (points : List CodePoint)
  deriving DecidableEq, Repr

/-- The scalar that is written between quotes. -/
def Token.ofQuoted (points : List CodePoint) : Token :=
  if CodePoint.surrogates points = [] then .scalar (CodePoint.withStandIn CodePoint.standIn points).toList false
  else .rawScalar points

/-! ### Names, tags and directives -/

def isNameChar (c : Char) : Bool := c.isAlphanum || c == '-' || c == '_'

/-- The name of an anchor or an alias. -/
def anchorName (k : Cursor) : Option (List Char × Cursor) :=
  let (name, k) := k.takeWhile isNameChar
  if name ≠ [] ∧ (endsWord k.peek ∨ "?:,]\x7d%@".toList.contains k.peek ∨ k.peek = '\x60') then some (name, k) else none

theorem length_chars_anchorName {k rest : Cursor} {name : List Char} (h : anchorName k = some (name, rest)) :
    rest.chars.length ≤ k.chars.length := by
  unfold anchorName at h
  dsimp only at h
  split at h
  · cases h
    exact k.length_chars_takeWhile isNameChar
  · cases h

def isTagChar (c : Char) : Bool := c.isAlphanum || "-;/?:@&=+$,_.!~*'()[]".toList.contains c

theorem ne_endMark_of_isTagChar {c : Char} (h : isTagChar c = true) : c ≠ endMark := by
  rintro rfl
  exact absurd h (by decide)

/-- The bytes that a run of escapes writes in hexadecimal. -/
def uriEscapes (k : Cursor) : Option (List UInt8 × Cursor) :=
  if k.peek = '%' then
    match hexDigit? (k.ahead 1), hexDigit? (k.ahead 2) with
    | some high, some low =>
      (uriEscapes (k.skip 3)).map fun (more, k) => (UInt8.ofNat (high * 16 + low) :: more, k)
    | _, _ => none
  else some ([], k)
termination_by k.chars.length
decreasing_by
  rename_i hpercent
  have hpos := Cursor.length_chars_pos (k := k) (by rw [hpercent]; decide)
  rw [Cursor.length_chars_skip]
  omega

theorem length_chars_uriEscapes {k rest : Cursor} {bytes : List UInt8} (h : uriEscapes k = some (bytes, rest)) :
    rest.chars.length ≤ k.chars.length - if k.peek = '%' then 1 else 0 := by
  fun_induction uriEscapes k generalizing bytes rest with
  | case1 k hpercent high low _ _ ih =>
    obtain ⟨⟨more, last⟩, hmore, heq⟩ := Option.map_eq_some_iff.mp h
    obtain ⟨-, rfl⟩ := Prod.mk.inj heq
    have hlast := ih hmore
    rw [Cursor.length_chars_skip] at hlast
    split <;> omega
  | case2 => cases h
  | case3 k hpercent =>
    cases h
    simp [hpercent]

/-- The text of a tag as far as it goes. -/
def uriChars (k : Cursor) : Option (List Char × Cursor) :=
  if k.peek = '%' then
    match _hescapes : uriEscapes k with
    | none => none
    | some (bytes, after) => do
      let text ← (Text.Utf8.decode bytes).toOption
      let (more, rest) ← uriChars after
      some (text ++ more, rest)
  else if isTagChar k.peek then (uriChars k.step).map fun (more, rest) => (k.peek :: more, rest)
  else some ([], k)
termination_by k.chars.length
decreasing_by
  · rename_i hpercent
    have hafter := length_chars_uriEscapes _hescapes
    have hpos := Cursor.length_chars_pos (k := k) (by rw [hpercent]; decide)
    rw [if_pos hpercent] at hafter
    omega
  · rename_i htag
    exact Cursor.length_chars_step_lt (ne_endMark_of_isTagChar htag)

theorem length_chars_uriChars {k rest : Cursor} {text : List Char} (h : uriChars k = some (text, rest)) :
    rest.chars.length ≤ k.chars.length := by
  fun_induction uriChars k generalizing text rest with
  | case1 => cases h
  | case2 k hpercent bytes after hescapes ih =>
    obtain ⟨decoded, -, h⟩ := Option.bind_eq_some_iff.mp h
    obtain ⟨⟨more, last⟩, hmore, heq⟩ := Option.bind_eq_some_iff.mp h
    obtain ⟨-, rfl⟩ := Prod.mk.inj (Option.some.inj heq)
    have hafter := length_chars_uriEscapes hescapes
    have hlast := ih hmore
    omega
  | case3 k _ _ ih =>
    obtain ⟨⟨more, last⟩, hmore, heq⟩ := Option.map_eq_some_iff.mp h
    obtain ⟨-, rfl⟩ := Prod.mk.inj heq
    have hlast := ih hmore
    rw [Cursor.length_chars_step] at hlast
    omega
  | case4 =>
    cases h
    exact Nat.le_refl _

/-- The text of a tag, which must not be empty. -/
def tagUri (k : Cursor) : Option (List Char × Cursor) := do
  let (text, k) ← uriChars k
  if text = [] then none else some (text, k)

theorem length_chars_tagUri {k rest : Cursor} {text : List Char} (h : tagUri k = some (text, rest)) :
    rest.chars.length ≤ k.chars.length := by
  obtain ⟨⟨found, after⟩, hchars, h⟩ := Option.bind_eq_some_iff.mp h
  dsimp only at h
  split at h
  · cases h
  · cases h
    exact length_chars_uriChars hchars

/-- A handle: an exclamation mark, or a name between two of them. -/
def tagHandle (k : Cursor) : Option (List Char × Cursor) :=
  if k.peek ≠ '!' then none
  else if k.ahead 1 = ' ' then some (['!'], k.step)
  else
    let (name, after) := k.step.takeWhile isNameChar
    if after.peek = '!' then some ('!' :: name ++ ['!'], after.step) else none

theorem length_chars_tagHandle {k rest : Cursor} {text : List Char} (h : tagHandle k = some (text, rest)) :
    rest.chars.length < k.chars.length := by
  unfold tagHandle at h
  split at h
  · cases h
  · rename_i hmark
    have hpos := Cursor.length_chars_pos (k := k) (by rw [Decidable.not_not.mp hmark]; decide)
    have hname := k.step.length_chars_takeWhile isNameChar
    rw [Cursor.length_chars_step] at hname
    split at h
    · cases h
      rw [Cursor.length_chars_step]
      omega
    · dsimp only at h
      split at h
      · cases h
        rw [Cursor.length_chars_step]
        omega
      · cases h

/-- The handle of a tag, with no more than a lone mark if there is no second mark. -/
def tagPrefix (k : Cursor) : Option (List Char × Cursor) :=
  let ahead := k.step.chars.takeWhile fun c => !endsPart c
  if ahead.contains '!' then tagHandle k else some (['!'], k.step)

theorem length_chars_tagPrefix {k rest : Cursor} {handle : List Char} (hk : k.chars ≠ [])
    (h : tagPrefix k = some (handle, rest)) : rest.chars.length < k.chars.length := by
  have hpos := List.length_pos_iff.mpr hk
  unfold tagPrefix at h
  dsimp only at h
  split at h
  · exact length_chars_tagHandle h
  · cases h
    rw [Cursor.length_chars_step]
    omega

/-- A tag: verbatim between angle brackets, a lone mark, or a handle with what follows it. -/
def tagBody (k : Cursor) : Option (Token × Cursor) :=
  if k.ahead 1 = '<' then do
    let (text, k) ← tagUri (k.skip 2)
    if k.peek = '>' then some (Token.tag none text, k.step) else none
  else if endsWord (k.ahead 1) then some (.tag none ['!'], k.step)
  else do
    let (handle, k) ← tagPrefix k
    let (text, k) ← tagUri k
    some (.tag (some handle) text, k)

theorem length_chars_tagBody {k rest : Cursor} {token : Token} (hk : k.chars ≠ []) (h : tagBody k = some (token, rest)) :
    rest.chars.length < k.chars.length := by
  have hpos := List.length_pos_iff.mpr hk
  unfold tagBody at h
  split at h
  · obtain ⟨⟨text, after⟩, htext, h⟩ := Option.bind_eq_some_iff.mp h
    have hafter := length_chars_tagUri htext
    rw [Cursor.length_chars_skip] at hafter
    dsimp only at h
    split at h
    · cases h
      rw [Cursor.length_chars_step]
      omega
    · cases h
  split at h
  · cases h
    rw [Cursor.length_chars_step]
    omega
  · obtain ⟨⟨handle, after⟩, hhandle, h⟩ := Option.bind_eq_some_iff.mp h
    obtain ⟨⟨text, last⟩, htext, h⟩ := Option.bind_eq_some_iff.mp h
    cases h
    exact Nat.lt_of_le_of_lt (length_chars_tagUri htext) (length_chars_tagPrefix hk hhandle)

def tagToken (k : Cursor) : Option (Token × Cursor) := do
  let (token, k) ← tagBody k
  if endsPart k.peek then some (token, k) else none

theorem length_chars_tagToken {k rest : Cursor} {token : Token} (hk : k.chars ≠ []) (h : tagToken k = some (token, rest)) :
    rest.chars.length < k.chars.length := by
  obtain ⟨⟨found, after⟩, hbody, h⟩ := Option.bind_eq_some_iff.mp h
  dsimp only at h
  split at h
  · cases h
    exact length_chars_tagBody hk hbody
  · cases h

def digitsValue (digits : List Char) : Nat := digits.foldl (fun n c => n * 10 + (c.toNat - 48)) 0

/-- The major number of a version such as `1.1`. -/
def versionValue (k : Cursor) : Option (Nat × Cursor) :=
  let (major, k) := (k.skipWhile (· == ' ')).takeWhile Char.isDigit
  let (minor, after) := k.step.takeWhile Char.isDigit
  if major ≠ [] ∧ k.peek = '.' ∧ minor ≠ [] ∧ endsPart after.peek then some (digitsValue major, after) else none

theorem length_chars_versionValue {k rest : Cursor} {major : Nat} (h : versionValue k = some (major, rest)) :
    rest.chars.length ≤ k.chars.length := by
  unfold versionValue at h
  dsimp only at h
  split at h
  · cases h
    refine Nat.le_trans (Cursor.length_chars_takeWhile ..) ?_
    rw [Cursor.length_chars_step]
    exact Nat.le_trans (Nat.sub_le ..) (Nat.le_trans (Cursor.length_chars_takeWhile ..) (k.length_chars_skipWhile _))
  · cases h

/-- A handle and the text that it abbreviates. -/
def handleValue (k : Cursor) : Option (List Char × List Char × Cursor) := do
  let (handle, k) ← tagHandle (k.skipWhile (· == ' '))
  if k.peek ≠ ' ' then none
  else
    let (expansion, k) ← tagUri (k.skipWhile (· == ' '))
    if endsPart k.peek then some (handle, expansion, k) else none

theorem length_chars_handleValue {k rest : Cursor} {handle expansion : List Char}
    (h : handleValue k = some (handle, expansion, rest)) : rest.chars.length ≤ k.chars.length := by
  obtain ⟨⟨found, after⟩, hhandle, h⟩ := Option.bind_eq_some_iff.mp h
  dsimp only at h
  split at h
  · cases h
  · obtain ⟨⟨text, last⟩, htext, h⟩ := Option.bind_eq_some_iff.mp h
    have hafter := length_chars_tagHandle hhandle
    have hlast := length_chars_tagUri htext
    have hspaces := k.length_chars_skipWhile (· == ' ')
    have hmore := after.length_chars_skipWhile (· == ' ')
    dsimp only at h
    split at h
    · cases h
      omega
    · cases h

/-- What a directive of a name says. -/
def directiveValue (name : List Char) (k : Cursor) : Option (Token × Cursor) :=
  if name = "YAML".toList then (versionValue k).map fun (major, k) => (Token.version major, k)
  else if name = "TAG".toList then
    (handleValue k).map fun (handle, expansion, k) => (Token.tagHandle handle expansion, k)
  else some (.reservedDirective, k.skipWhile (!endsLine ·))

theorem length_chars_directiveValue {name : List Char} {k rest : Cursor} {token : Token}
    (h : directiveValue name k = some (token, rest)) : rest.chars.length ≤ k.chars.length := by
  unfold directiveValue at h
  split at h
  · obtain ⟨⟨major, after⟩, hversion, heq⟩ := Option.map_eq_some_iff.mp h
    cases heq
    exact length_chars_versionValue hversion
  split at h
  · obtain ⟨⟨handle, expansion, after⟩, hhandle, heq⟩ := Option.map_eq_some_iff.mp h
    cases heq
    exact length_chars_handleValue hhandle
  · cases h
    exact k.length_chars_skipWhile _

/-- A directive after its percent sign. -/
def directive (k : Cursor) : Option (Token × Cursor) :=
  let (name, k) := k.takeWhile isNameChar
  if name = [] ∨ !endsPart k.peek then none
  else do
    let (token, k) ← directiveValue name k
    let k ← ignoredLine k
    some (token, k)

theorem length_chars_directive {k rest : Cursor} {token : Token} (h : directive k = some (token, rest)) :
    rest.chars.length ≤ k.chars.length := by
  unfold directive at h
  dsimp only at h
  split at h
  · cases h
  · obtain ⟨⟨found, after⟩, hvalue, h⟩ := Option.bind_eq_some_iff.mp h
    obtain ⟨last, hline, h⟩ := Option.bind_eq_some_iff.mp h
    cases h
    exact Nat.le_trans (length_chars_ignoredLine hline)
      (Nat.le_trans (length_chars_directiveValue hvalue) (k.length_chars_takeWhile _))

end Recordsmith.Yaml
