import Recordsmith.Text.Ranges
import Recordsmith.Text.CaseTable

/-! Lower case in every script. What a character becomes is its own affair, but for the sigma that closes a word. -/

namespace Recordsmith.Text

/-- Whether a character has a case and is not passed over. -/
def isCased (c : Char) : Bool := inRanges casedPoints c.toNat

def isCaseIgnorable (c : Char) : Bool := inRanges caseIgnorables c.toNat

/-- The lower case of a character that has one of a single character. -/
def lowerChar (c : Char) : Char :=
  if c.toNat < 128 then c.toLower
  else
    let holds : Nat × Nat × Nat × Int → Bool := fun (first, last, step, _) =>
      first ≤ c.toNat && c.toNat ≤ last && (c.toNat - first) % step == 0
    match lowerCases.find? holds with
    | some (_, _, _, shift) => Char.ofNat (c.toNat + shift).toNat
    | none => c

/-- A place closes a word if the nearest letter before it has a case and the nearest one after it has none. What stands
    before is given with its last character first. -/
def closesWord (before rest : List Char) : Bool :=
  (before.dropWhile isCaseIgnorable).head?.any isCased && !(rest.dropWhile isCaseIgnorable).head?.any isCased

/-- The lower case of a character between others. Only the capital I with a dot becomes two characters. -/
def lowerAt (before : List Char) (c : Char) (rest : List Char) : List Char :=
  if c == '\u03A3' then [if closesWord before rest then '\u03C2' else '\u03C3']
  else if c == '\u0130' then ['i', '\u0307']
  else [lowerChar c]

/-- The lower case of what follows `before`, which is given with its last character first. -/
def lowerAfter (before : List Char) : List Char → List Char
  | [] => []
  | c :: rest => lowerAt before c rest ++ lowerAfter (c :: before) rest

def lowerCase (text : String) : String := String.ofList (lowerAfter [] text.toList)

/-! ### ASCII -/

theorem lowerAt_of_ascii (before rest : List Char) {c : Char} (h : c.toNat < 128) :
    lowerAt before c rest = [c.toLower] := by
  have hne (d : Char) (hd : 128 ≤ d.toNat) : ¬(c == d) = true := by
    rw [beq_iff_eq]
    rintro rfl
    omega
  rw [lowerAt, if_neg (hne _ (by decide)), if_neg (hne _ (by decide)), lowerChar, if_pos h]

theorem lowerAfter_of_ascii (before : List Char) {text : List Char} (h : ∀ c ∈ text, c.toNat < 128) :
    lowerAfter before text = text.map Char.toLower := by
  induction text generalizing before with
  | nil => rfl
  | cons c rest ih =>
    rw [lowerAfter, lowerAt_of_ascii before rest (h c List.mem_cons_self),
      ih (c :: before) fun d hd => h d (List.mem_cons_of_mem c hd)]
    rfl

theorem toNat_lt_of_toLower {c : Char} (h : c.toLower.toNat < 128) : c.toNat < 128 := by
  delta Char.toLower at h
  split at h
  · rename_i hletter
    exact Nat.lt_of_le_of_lt (UInt32.le_iff_toNat_le.mp hletter.2) (by decide)
  · exact h

/-- A text whose lower case in ASCII has ASCII characters only has no other lower case. -/
theorem lowerCase_eq_toLower {text : String} (h : text.toLower.toList.all (·.toNat < 128) = true) :
    lowerCase text = text.toLower := by
  have hlower : text.toLower.toList = text.toList.map Char.toLower := String.toList_map
  have hascii : ∀ c ∈ text.toList, c.toNat < 128 := fun c hc =>
    toNat_lt_of_toLower (by simpa using List.all_eq_true.mp h c.toLower (hlower ▸ List.mem_map_of_mem hc))
  rw [lowerCase, lowerAfter_of_ascii [] hascii, ← hlower, String.ofList_toList]

end Recordsmith.Text
