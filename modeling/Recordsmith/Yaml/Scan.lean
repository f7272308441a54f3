import Recordsmith.Yaml.Token

/-!
Scanning: the tokens of a YAML text. Indentation becomes explicit: a block collection opens and closes with a token of
its own. That a word is a key shows only when its colon is met, so the key's token is put in front of it afterwards.
-/

namespace Recordsmith.Yaml

/-- A token that may turn out to be a key: how many tokens stand before it, where it starts, and whether it must be a
    key. -/
structure PossibleKey where
  tokenNumber : Nat
  required : Bool
  index : Nat
  line : Nat
  column : Nat
  deriving DecidableEq, Repr

/-- The state of scanning. Tokens are kept latest first, and possible keys by the depth of flow collections. -/
structure Scan where
  cursor : Cursor
  flow : Nat := 0
  indent : Int := -1
  outerIndents : List Int := []
  keyAllowed : Bool := true
  possibleKeys : List (Nat × PossibleKey) := []
  tokens : List Token := []

namespace Scan

def emit (s : Scan) (t : Token) : Scan := { s with tokens := t :: s.tokens }

/-- Puts a token in front of the one that `number` tokens stand before. -/
def insert (s : Scan) (number : Nat) (t : Token) : Scan :=
  let later := s.tokens.length - number
  { s with tokens := s.tokens.take later ++ t :: s.tokens.drop later }

/-- Drops the possible key of this depth. A key that is required must not be dropped. -/
def dropKey (s : Scan) : Option Scan :=
  match s.possibleKeys.find? (·.1 == s.flow) with
  | some (_, key) =>
    if key.required then none else some { s with possibleKeys := s.possibleKeys.filter (·.1 != s.flow) }
  | none => some s

/-- Keys stand on one line and are not long. -/
def dropStale (s : Scan) : Option Scan :=
  let isStale (key : PossibleKey) := key.line != s.cursor.line || s.cursor.index - key.index > 1024
  if s.possibleKeys.any fun entry => isStale entry.2 && entry.2.required then none
  else some { s with possibleKeys := s.possibleKeys.filter fun entry => !isStale entry.2 }

/-- Notes that the next token may be a key. -/
def saveKey (s : Scan) : Option Scan :=
  if s.keyAllowed then do
    let key : PossibleKey := ⟨s.tokens.length, s.flow == 0 && s.indent == s.cursor.column, s.cursor.index, s.cursor.line,
      s.cursor.column⟩
    let s ← s.dropKey
    some { s with possibleKeys := (s.flow, key) :: s.possibleKeys }
  else some s

/-- Closes the block collections that are indented deeper than a column. -/
def closeBlocks (column : Int) : List Int → Int → List Token → List Int × Int × List Token
  | [], indent, tokens => ([], indent, tokens)
  | outer :: more, indent, tokens =>
    if column < indent then closeBlocks column more outer (.blockEnd :: tokens) else (outer :: more, indent, tokens)

/-- Indentation means nothing inside flow collections. -/
def unwind (s : Scan) (column : Int) : Scan :=
  if s.flow > 0 then s
  else
    let (outerIndents, indent, tokens) := closeBlocks column s.outerIndents s.indent s.tokens
    { s with outerIndents, indent, tokens }

/-- Opens a level of indentation, if the column is deeper than the present one. -/
def deepen (s : Scan) (column : Int) : Bool × Scan :=
  if s.indent < column then (true, { s with outerIndents := s.indent :: s.outerIndents, indent := column }) else (false, s)

/-- Skips blanks, comments and line breaks. A new line may start with a key. -/
def skipBlanks (s : Scan) : Scan :=
  let k := s.cursor.skipComment
  if isBreak k.peek then skipBlanks { s with cursor := k.step, keyAllowed := s.keyAllowed || s.flow == 0 }
  else { s with cursor := k }
termination_by s.cursor.chars.length
decreasing_by
  rename_i hbreak
  exact Nat.lt_of_lt_of_le (Cursor.length_chars_step_lt (Cursor.ne_endMark_of_isBreak hbreak))
    s.cursor.length_chars_skipComment

/-- A token of one or more characters after which the text goes on. -/
def advance (s : Scan) (count : Nat) (t : Token) : Scan := { s.emit t with cursor := s.cursor.skip count }

/-- An entry of a sequence or an explicit key in a block opens the collection if it stands deeper. -/
def openBlock (s : Scan) (start : Token) : Option Scan :=
  if s.flow > 0 then some s
  else if s.keyAllowed then
    let (opened, s) := s.deepen s.cursor.column
    some (if opened then s.emit start else s)
  else none

/-- A sign after which a key may stand. -/
def sign (s : Scan) (t : Token) (keyAllowed : Bool) : Option Scan := do
  let s ← { s with keyAllowed }.dropKey
  some (s.advance 1 t)

/-- A sign that opens a block collection if it stands deeper. -/
def blockSign (s : Scan) (start t : Token) (keyAllowed : Bool) : Option Scan := do
  let s ← s.openBlock start
  s.sign t keyAllowed

/-- Makes a key of a possible key, which opens a mapping if it stands deeper. -/
def turnKey (s : Scan) (key : PossibleKey) : Scan :=
  let s := { s with possibleKeys := s.possibleKeys.filter (·.1 != s.flow), keyAllowed := false }
  let s := s.insert key.tokenNumber .key
  let (opened, s) := if s.flow = 0 then s.deepen key.column else (false, s)
  if opened then s.insert key.tokenNumber .blockMappingStart else s

/-- The colon before a value. It makes a key of the possible key before it, if there is one. -/
def valueSign (s : Scan) : Option Scan :=
  match s.possibleKeys.find? (·.1 == s.flow) with
  | some (_, key) => some ((s.turnKey key).advance 1 .value)
  | none => s.blockSign .blockMappingStart .value (s.flow == 0)

/-- A line that divides documents, or a directive, ends all blocks. -/
def endBlocks (s : Scan) : Option Scan := do
  let s ← (s.unwind (-1)).dropKey
  some { s with keyAllowed := false }

/-- A token that may be a key, scanned from the cursor. -/
def simple (s : Scan) (scan : Cursor → Except YamlError (Token × Cursor)) : Except YamlError Scan := do
  let s ← orMalformed s.saveKey
  let (token, cursor) ← scan s.cursor
  return { s.emit token with cursor, keyAllowed := false }

/-- Whether a plain scalar starts here. -/
def opensPlain (s : Scan) : Bool :=
  let c := s.cursor.peek
  (!endsWord c && !"-?:,[]\x7b\x7d#&*!|>'\"%@".toList.contains c && c != '\x60') ||
    (!endsWord (s.cursor.ahead 1) && (c == '-' || (s.flow == 0 && (c == '?' || c == ':'))))

def plain (s : Scan) : Option Scan := do
  let s ← s.saveKey
  let (text, keyAllowed, cursor) :=
    plainScalar (s.flow > 0) (s.indent + 1) [] s.cursor
  some { s.emit (.scalar text true) with cursor, keyAllowed }

/-- A line with a directive. -/
def directiveLine (s : Scan) : Option Scan := do
  let s ← s.endBlocks
  let (token, cursor) ← directive s.cursor.step
  some { s.emit token with cursor }

/-- A line that divides documents. -/
def documentLine (s : Scan) (t : Token) : Option Scan := do
  let s ← s.endBlocks
  some (s.advance 3 t)

/-- The opening bracket of a flow collection, which may be a key. -/
def openFlow (s : Scan) (t : Token) : Option Scan := do
  let s ← s.saveKey
  some { s.advance 1 t with flow := s.flow + 1, keyAllowed := true }

def closeFlow (s : Scan) (t : Token) : Option Scan := do
  let s ← s.dropKey
  some { s.advance 1 t with flow := s.flow - 1, keyAllowed := false }

/-- An anchor or an alias. -/
def name (s : Scan) (make : List Char → Token) : Except YamlError Scan :=
  s.simple fun k => orMalformed ((anchorName k.step).map fun (name, k) => (make name, k))

def quoted (s : Scan) (quote : Char) : Except YamlError Scan :=
  s.simple fun k => (quotedScalar quote k.step).map fun (points, k) => (.ofQuoted points, k)

/-- A scalar in lines of its own. -/
def block (s : Scan) (isFolded : Bool) : Option Scan := do
  let s ← { s with keyAllowed := true }.dropKey
  let (text, cursor) ← blockScalar isFolded s.indent s.cursor.step
  some { s.emit (.scalar text false) with cursor }

/-- Scans the next token, which does not lie at the end of the text. -/
def next (s : Scan) : Except YamlError Scan :=
  let c := s.cursor.peek
  let spaced := endsWord (s.cursor.ahead 1)
  if c = '%' ∧ s.cursor.column = 0 then orMalformed s.directiveLine
  else if s.cursor.column = 0 ∧ s.cursor.atDocumentMark then
    orMalformed (s.documentLine (if c = '-' then .documentStart else .documentEnd))
  else if c = '[' then orMalformed (s.openFlow .flowSequenceStart)
  else if c = '\x7b' then orMalformed (s.openFlow .flowMappingStart)
  else if c = ']' then orMalformed (s.closeFlow .flowSequenceEnd)
  else if c = '\x7d' then orMalformed (s.closeFlow .flowMappingEnd)
  else if c = ',' then orMalformed (s.sign .flowEntry true)
  else if c = '-' ∧ spaced then orMalformed (s.blockSign .blockSequenceStart .blockEntry true)
  else if c = '?' ∧ (s.flow > 0 ∨ spaced) then orMalformed (s.blockSign .blockMappingStart .key (s.flow == 0))
  else if c = ':' ∧ (s.flow > 0 ∨ spaced) then orMalformed s.valueSign
  else if c = '*' then s.name .alias
  else if c = '&' then s.name .anchor
  else if c = '!' then s.simple fun k => orMalformed (tagToken k)
  else if (c = '|' ∨ c = '>') ∧ s.flow = 0 then orMalformed (s.block (c = '>'))
  else if c = '\'' ∨ c = '"' then s.quoted c
  else if s.opensPlain then orMalformed s.plain
  else .error .malformed

/-! ### Progress -/

variable {s t : Scan}

theorem dropKey_eq_some (h : s.dropKey = some t) : ∃ keys, t = { s with possibleKeys := keys } := by
  unfold dropKey at h
  split at h
  · split at h
    · cases h
    · exact ⟨_, (Option.some.inj h).symm⟩
  · exact ⟨_, (Option.some.inj h).symm⟩

theorem saveKey_eq_some (h : s.saveKey = some t) : ∃ keys, t = { s with possibleKeys := keys } := by
  unfold saveKey at h
  split at h
  · obtain ⟨dropped, hdrop, h⟩ := Option.bind_eq_some_iff.mp h
    obtain ⟨keys, rfl⟩ := dropKey_eq_some hdrop
    exact ⟨_, (Option.some.inj h).symm⟩
  · exact ⟨_, (Option.some.inj h).symm⟩

theorem cursor_dropKey (h : s.dropKey = some t) : t.cursor = s.cursor := by
  obtain ⟨keys, rfl⟩ := dropKey_eq_some h
  rfl

theorem cursor_saveKey (h : s.saveKey = some t) : t.cursor = s.cursor := by
  obtain ⟨keys, rfl⟩ := saveKey_eq_some h
  rfl

theorem cursor_unwind (s : Scan) (column : Int) : (s.unwind column).cursor = s.cursor := by
  unfold unwind
  split <;> rfl

theorem cursor_deepen (s : Scan) (column : Int) : (s.deepen column).2.cursor = s.cursor := by
  unfold deepen
  split <;> rfl

theorem cursor_openBlock {start : Token} (h : s.openBlock start = some t) : t.cursor = s.cursor := by
  unfold openBlock at h
  split at h
  · cases h
    rfl
  split at h
  · dsimp only at h
    have hdeepen := s.cursor_deepen s.cursor.column
    split at h <;> cases h <;> exact hdeepen
  · cases h

theorem cursor_endBlocks (h : s.endBlocks = some t) : t.cursor = s.cursor := by
  obtain ⟨dropped, hdrop, h⟩ := Option.bind_eq_some_iff.mp h
  cases h
  exact (cursor_dropKey hdrop).trans (s.cursor_unwind _)

theorem cursor_turnKey (s : Scan) (key : PossibleKey) : (s.turnKey key).cursor = s.cursor := by
  unfold turnKey
  dsimp only
  split
  · split <;> exact cursor_deepen ..
  · split <;> rfl

theorem chars_advance (s : Scan) (count : Nat) (token : Token) :
    (s.advance count token).cursor.chars = s.cursor.chars.drop count := s.cursor.chars_skip count

/-- The next token takes characters. -/
def Passes (s t : Scan) : Prop := t.cursor.chars.length < s.cursor.chars.length

theorem passes_advance {count : Nat} (token : Token) (hs : s.cursor.chars ≠ []) (hcount : 0 < count) :
    s.Passes (s.advance count token) := by
  have hpos := List.length_pos_iff.mpr hs
  unfold Passes
  rw [chars_advance, List.length_drop]
  omega

theorem passes_step {rest : Cursor} (hs : s.cursor.chars ≠ []) (h : rest.chars.length ≤ s.cursor.step.chars.length) :
    rest.chars.length < s.cursor.chars.length := by
  have hpos := List.length_pos_iff.mpr hs
  rw [Cursor.length_chars_step] at h
  omega

theorem passes_directiveLine (hs : s.cursor.chars ≠ []) (h : s.directiveLine = some t) : s.Passes t := by
  obtain ⟨ended, hend, h⟩ := Option.bind_eq_some_iff.mp h
  obtain ⟨⟨token, rest⟩, hfound, h⟩ := Option.bind_eq_some_iff.mp h
  cases h
  rw [cursor_endBlocks hend] at hfound
  exact passes_step hs (length_chars_directive hfound)

theorem passes_documentLine {token : Token} (hs : s.cursor.chars ≠ []) (h : s.documentLine token = some t) : s.Passes t := by
  obtain ⟨ended, hend, h⟩ := Option.bind_eq_some_iff.mp h
  cases h
  unfold Passes
  rw [← cursor_endBlocks hend] at hs ⊢
  exact passes_advance _ hs (by omega)

theorem passes_openFlow {token : Token} (hs : s.cursor.chars ≠ []) (h : s.openFlow token = some t) : s.Passes t := by
  obtain ⟨saved, hsave, h⟩ := Option.bind_eq_some_iff.mp h
  cases h
  unfold Passes
  rw [← cursor_saveKey hsave] at hs ⊢
  exact passes_advance token hs Nat.one_pos

theorem passes_closeFlow {token : Token} (hs : s.cursor.chars ≠ []) (h : s.closeFlow token = some t) : s.Passes t := by
  obtain ⟨dropped, hdrop, h⟩ := Option.bind_eq_some_iff.mp h
  cases h
  unfold Passes
  rw [← cursor_dropKey hdrop] at hs ⊢
  exact passes_advance token hs Nat.one_pos

theorem passes_sign {token : Token} {keyAllowed : Bool} (hs : s.cursor.chars ≠ []) (h : s.sign token keyAllowed = some t) :
    s.Passes t := by
  obtain ⟨dropped, hdrop, h⟩ := Option.bind_eq_some_iff.mp h
  cases h
  have hcursor : dropped.cursor = s.cursor := (cursor_dropKey hdrop :)
  unfold Passes
  rw [← hcursor] at hs ⊢
  exact passes_advance _ hs Nat.one_pos

theorem passes_blockSign {start token : Token} {keyAllowed : Bool} (hs : s.cursor.chars ≠ [])
    (h : s.blockSign start token keyAllowed = some t) : s.Passes t := by
  obtain ⟨opened, hopen, h⟩ := Option.bind_eq_some_iff.mp h
  unfold Passes
  rw [← cursor_openBlock hopen] at hs ⊢
  exact passes_sign hs h

theorem passes_valueSign (hs : s.cursor.chars ≠ []) (h : s.valueSign = some t) : s.Passes t := by
  unfold valueSign at h
  split at h
  · rename_i found key hfound
    cases h
    unfold Passes
    rw [← s.cursor_turnKey key] at hs ⊢
    exact passes_advance _ hs Nat.one_pos
  · exact passes_blockSign hs h

theorem passes_simple {scan : Cursor → Except YamlError (Token × Cursor)}
    (hscan : ∀ {token rest}, scan s.cursor = .ok (token, rest) → rest.chars.length < s.cursor.chars.length)
    (h : s.simple scan = .ok t) : s.Passes t := by
  obtain ⟨saved, hkey, h⟩ := bind_eq_ok h
  obtain ⟨⟨token, rest⟩, hfound, h⟩ := bind_eq_ok h
  cases h
  rw [cursor_saveKey (orMalformed_eq_ok hkey)] at hfound
  exact hscan hfound

theorem passes_name {make : List Char → Token} (hs : s.cursor.chars ≠ []) (h : s.name make = .ok t) : s.Passes t := by
  refine passes_simple (fun {token rest} hfound => ?_) h
  obtain ⟨⟨name, last⟩, hname, heq⟩ := Option.map_eq_some_iff.mp (orMalformed_eq_ok hfound)
  cases heq
  exact passes_step hs (length_chars_anchorName hname)

theorem passes_quoted {quote : Char} (hs : s.cursor.chars ≠ []) (h : s.quoted quote = .ok t) : s.Passes t := by
  refine passes_simple (fun {token rest} hfound => ?_) h
  obtain ⟨⟨points, last⟩, hquoted, heq⟩ := map_eq_ok hfound
  cases heq
  exact passes_step hs (length_chars_quotedScalar hquoted)

theorem passes_block {isFolded : Bool} (hs : s.cursor.chars ≠ []) (h : s.block isFolded = some t) : s.Passes t := by
  obtain ⟨dropped, hdrop, h⟩ := Option.bind_eq_some_iff.mp h
  obtain ⟨⟨text, rest⟩, hfound, h⟩ := Option.bind_eq_some_iff.mp h
  cases h
  have hcursor : dropped.cursor = s.cursor := (cursor_dropKey hdrop :)
  rw [hcursor] at hfound
  exact passes_step hs (length_chars_blockScalar hfound)

theorem plainLength_pos {inFlow : Bool} {c : Char} {rest : List Char} (hword : endsWord c = false)
    (hcolon : c = ':' → endsWord (rest.head?.getD endMark) = false ∧ inFlow = false)
    (hflow : inFlow = true → [',', '[', ']', '\x7b', '\x7d', '?'].contains c = false) :
    0 < plainLength inFlow (c :: rest) := by
  unfold plainLength
  grind

theorem opensPlain_spec {s : Scan} {c : Char} {rest : List Char} (h : s.opensPlain = true)
    (hchars : s.cursor.chars = c :: rest) : c ≠ '#' ∧ 0 < plainLength (s.flow > 0) (c :: rest) := by
  have hpeek : s.cursor.peek = c := by simp [Cursor.peek, hchars]
  have hahead : s.cursor.ahead 1 = rest.head?.getD endMark := by simp [Cursor.ahead, hchars]
  have hlisted : ['#', ':', '?', ',', '[', ']', '\x7b', '\x7d'].all
    ("-?:,[]\x7b\x7d#&*!|>'\"%@".toList.contains ·) = true := by decide
  unfold opensPlain at h
  dsimp only at h
  rw [hpeek, hahead] at h
  rcases (Bool.or_eq_true ..).mp h with hplain | hsign
  · simp only [Bool.and_eq_true, Bool.not_eq_true'] at hplain
    obtain ⟨⟨hword, hnot⟩, -⟩ := hplain
    have hne : ∀ d ∈ ['#', ':', '?', ',', '[', ']', '\x7b', '\x7d'], c ≠ d := by
      rintro d hd rfl
      exact Bool.false_ne_true (hnot.symm.trans (List.all_eq_true.mp hlisted c hd))
    refine ⟨hne _ (by decide), plainLength_pos hword (fun hcolon => absurd hcolon (hne _ (by decide))) fun _ => ?_⟩
    grind
  · simp only [Bool.and_eq_true, Bool.not_eq_true', Bool.or_eq_true, beq_iff_eq] at hsign
    obtain ⟨hnext, rfl | ⟨hflow, rfl | rfl⟩⟩ := hsign
    · exact ⟨by decide, plainLength_pos (by decide) (fun h => absurd h (by decide)) fun _ => by decide⟩
    · exact ⟨by decide, plainLength_pos (by decide) (fun h => absurd h (by decide)) fun h => by simp [hflow] at h⟩
    · exact ⟨by decide, plainLength_pos (by decide) (fun _ => ⟨hnext, by simp [hflow]⟩) fun h => by simp [hflow] at h⟩

theorem passes_plain (hplain : s.opensPlain = true) (hs : s.cursor.chars ≠ []) (h : s.plain = some t) : s.Passes t := by
  obtain ⟨saved, hkey, h⟩ := Option.bind_eq_some_iff.mp h
  obtain ⟨keys, rfl⟩ := saveKey_eq_some hkey
  cases h
  obtain ⟨c, rest, hc⟩ := List.exists_cons_of_ne_nil hs
  obtain ⟨hmark, hpos⟩ := opensPlain_spec hplain hc
  have hmark' : s.cursor.peek ≠ '#' := by simpa [Cursor.peek, hc] using hmark
  have hlast := length_chars_plainScalar (s.flow > 0) (s.indent + 1) [] hmark'
  unfold Passes
  rw [hc] at hlast ⊢
  exact Nat.lt_of_le_of_lt hlast (Nat.sub_lt (by simp) hpos)

theorem passes_next (hs : s.cursor.chars ≠ []) (h : s.next = .ok t) : s.Passes t := by
  revert h
  fun_cases next s with
  | case1 => exact fun h => passes_directiveLine hs (orMalformed_eq_ok h)
  | case2 => exact fun h => passes_documentLine hs (orMalformed_eq_ok h)
  | case3 => exact fun h => passes_openFlow hs (orMalformed_eq_ok h)
  | case4 => exact fun h => passes_openFlow hs (orMalformed_eq_ok h)
  | case5 => exact fun h => passes_closeFlow hs (orMalformed_eq_ok h)
  | case6 => exact fun h => passes_closeFlow hs (orMalformed_eq_ok h)
  | case7 => exact fun h => passes_sign hs (orMalformed_eq_ok h)
  | case8 => exact fun h => passes_blockSign hs (orMalformed_eq_ok h)
  | case9 => exact fun h => passes_blockSign hs (orMalformed_eq_ok h)
  | case10 => exact fun h => passes_valueSign hs (orMalformed_eq_ok h)
  | case11 => exact fun h => passes_name hs h
  | case12 => exact fun h => passes_name hs h
  | case13 => exact fun h => passes_simple (fun hfound => length_chars_tagToken hs (orMalformed_eq_ok hfound)) h
  | case14 => exact fun h => passes_block hs (orMalformed_eq_ok h)
  | case15 => exact fun h => passes_quoted hs h
  | case16 c spaced _ _ _ _ _ _ _ _ _ _ _ _ _ _ _ hplain => exact fun h => passes_plain hplain hs (orMalformed_eq_ok h)
  | case17 => exact nofun

/-- Skips to the next token and closes the blocks that end in front of it. -/
def reachToken (s : Scan) : Option Scan := s.skipBlanks.dropStale.map fun s => s.unwind s.cursor.column

/-- The tokens of a text that has been scanned. -/
def finish (s : Scan) : Option (List Token) := (s.unwind (-1)).dropKey.map (·.tokens.reverse)

theorem length_skipBlanks (s : Scan) : s.skipBlanks.cursor.chars.length ≤ s.cursor.chars.length := by
  fun_induction skipBlanks s with
  | case1 s k hbreak ih =>
    have hcomment := s.cursor.length_chars_skipComment
    dsimp only at ih
    rw [Cursor.length_chars_step] at ih
    exact Nat.le_trans ih (Nat.le_trans (Nat.sub_le ..) hcomment)
  | case2 s k hbreak => exact s.cursor.length_chars_skipComment

theorem cursor_dropStale (h : s.dropStale = some t) : t.cursor = s.cursor := by
  unfold dropStale at h
  dsimp only at h
  split at h
  · cases h
  · cases h
    rfl

theorem length_reachToken (h : s.reachToken = some t) : t.cursor.chars.length ≤ s.cursor.chars.length := by
  obtain ⟨kept, hstale, rfl⟩ := Option.map_eq_some_iff.mp h
  rw [cursor_unwind, cursor_dropStale hstale]
  exact s.length_skipBlanks

/-- The tokens from here to the end of the text. -/
def run (s : Scan) : Except YamlError (List Token) :=
  match _hreach : s.reachToken with
  | none => .error .malformed
  | some t =>
    if _hend : t.cursor.chars = [] then orMalformed t.finish
    else match _hnext : t.next with
      | .error e => .error e
      | .ok u => u.run
termination_by s.cursor.chars.length
decreasing_by exact Nat.lt_of_lt_of_le (passes_next _hend _hnext) (length_reachToken _hreach)

end Scan

/-- The tokens of a text, which must be YAML. A byte order mark may stand in front. -/
def Token.scan (text : List Char) : Except YamlError (List Token) :=
  if text.all isAllowed then
    let cursor : Cursor := ⟨text, 0, 0, 0⟩
    let cursor := if cursor.peek.toNat = 0xFEFF then cursor.step else cursor
    Scan.run { cursor }
  else .error .malformed

end Recordsmith.Yaml
