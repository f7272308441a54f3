import Mathlib.Data.List.Basic
import Recordsmith.Text.Blank

/-!
Brackets, read as plain characters. A text is balanced when every opening bracket is followed by its own closing one, and
no other bracket closes in between. A reader keeps the closing brackets that it is owed; over a balanced text it gives
back those that it was owed before.
-/

namespace Recordsmith.Text

/-- The bracket that closes an opening one. -/
def closer? : Char → Option Char
  | '(' => some ')'
  | '[' => some ']'
  | '\x7b' => some '\x7d'
  | _ => none

def isCloser (c : Char) : Bool := c == ')' || c == ']' || c == '\x7d'

def isBracket (c : Char) : Bool := (closer? c).isSome || isCloser c

/-- Reads one character, given the closing brackets that are owed, the next one first. A closing bracket that is not the
    next one owed cannot be read. -/
def readBracket (owed : List Char) (c : Char) : Option (List Char) :=
  match closer? c with
  | some closing => some (closing :: owed)
  | none => if isCloser c then if owed.head? = some c then some owed.tail else none else some owed

/-- A text that owes no closing bracket at its end and never has one too many. -/
def Balanced (text : List Char) : Prop := text.foldlM readBracket [] = some []

instance : DecidablePred Balanced := fun _ => inferInstanceAs (Decidable (_ = _))

/-- A text without brackets. -/
def IsPlain (text : List Char) : Prop := ∀ c ∈ text, isBracket c = false

instance : DecidablePred IsPlain := fun text => List.decidableBAll _ text

/-- The opening bracket at one position is closed by the bracket at another. -/
def Closes (text : List Char) (first last : Nat) : Prop :=
  ∃ before opening inner closing after, text = before ++ (opening :: (inner ++ closing :: after)) ∧
    before.length = first ∧ first + inner.length + 1 = last ∧ closer? opening = some closing ∧ Balanced inner

/-! ### Reading -/

variable {owed owed' text a b : List Char} {c opening closing : Char}

theorem isBlank_of_isBracket (h : isBracket c = true) : isBlank c = false := by
  rcases (Bool.or_eq_true _ _).mp h with h | h
  · obtain ⟨closing, h⟩ := Option.isSome_iff_exists.mp h
    unfold closer? at h
    split at h <;> cases h <;> rfl
  · simp only [isCloser, Bool.or_eq_true, beq_iff_eq] at h
    rcases h with (rfl | rfl) | rfl <;> rfl

theorem isBracket_of_isBlank (h : isBlank c = true) : isBracket c = false := by
  rw [← Bool.not_eq_true]
  intro hbracket
  rw [isBlank_of_isBracket hbracket] at h
  cases h

theorem isBracket_of_closer? (h : closer? opening = some closing) :
    isBracket opening = true ∧ isBracket closing = true := by
  unfold closer? at h
  split at h <;> cases h <;> exact ⟨rfl, rfl⟩

theorem readBracket_opening (h : closer? c = some closing) : readBracket owed c = some (closing :: owed) := by
  simp only [readBracket, h]

theorem readBracket_closing (h : closer? opening = some c) : readBracket (c :: owed) c = some owed := by
  unfold closer? at h
  split at h <;> cases h <;> rfl

theorem readBracket_of_not_bracket (h : isBracket c = false) : readBracket owed c = some owed := by
  obtain ⟨hopen, hclose⟩ := Bool.or_eq_false_iff.mp h
  have hnone : closer? c = none := Option.isNone_iff_eq_none.mp (by simpa using hopen)
  simp [readBracket, hnone, hclose]

/-- What is owed below the brackets that a character touches does not matter. -/
theorem readBracket_append (h : readBracket owed c = some owed') (below : List Char) :
    readBracket (owed ++ below) c = some (owed' ++ below) := by
  unfold readBracket at h ⊢
  split at h
  · obtain rfl := Option.some.inj h
    rfl
  · split at h
    · split at h
      · obtain ⟨rest, rfl⟩ := List.head?_eq_some_iff.mp ‹owed.head? = some c›
        obtain rfl := Option.some.inj h
        simp [*]
      · cases h
    · obtain rfl := Option.some.inj h
      simp [*]

theorem foldlM_readBracket_append (h : text.foldlM readBracket owed = some owed') (below : List Char) :
    text.foldlM readBracket (owed ++ below) = some (owed' ++ below) := by
  induction text generalizing owed with
  | nil =>
    obtain rfl := Option.some.inj h
    rfl
  | cons c rest ih =>
    rw [List.foldlM_cons] at h ⊢
    obtain ⟨next, hnext, hrest⟩ := Option.bind_eq_some_iff.mp h
    rw [readBracket_append hnext below]
    exact ih hrest

theorem foldlM_readBracket_filter (text owed : List Char) :
    (text.filter isBracket).foldlM readBracket owed = text.foldlM readBracket owed := by
  induction text generalizing owed with
  | nil => rfl
  | cons c rest ih =>
    rw [List.foldlM_cons]
    by_cases hc : isBracket c = true
    · rw [List.filter_cons_of_pos hc, List.foldlM_cons]
      exact bind_congr fun next => ih next
    · rw [List.filter_cons_of_neg hc, readBracket_of_not_bracket (Bool.not_eq_true _ ▸ hc), ih]
      rfl

/-! ### Balanced texts -/

theorem IsPlain.filter_eq_nil (h : IsPlain text) : text.filter isBracket = [] := by
  rw [List.filter_eq_nil_iff]
  intro c hc
  rw [h c hc]
  exact Bool.false_ne_true

theorem isPlain_of_blanks (h : ∀ c ∈ text, isBlank c = true) : IsPlain text := fun c hc => isBracket_of_isBlank (h c hc)

theorem balanced_filter_iff : Balanced (text.filter isBracket) ↔ Balanced text := by
  unfold Balanced
  rw [foldlM_readBracket_filter]

theorem Balanced.foldlM_readBracket (h : Balanced text) (owed : List Char) :
    text.foldlM readBracket owed = some owed :=
  foldlM_readBracket_append h owed

theorem balanced_nil : Balanced [] := rfl

theorem IsPlain.balanced (h : IsPlain text) : Balanced text := by
  rw [← balanced_filter_iff, h.filter_eq_nil]
  exact balanced_nil

theorem Balanced.append (ha : Balanced a) (hb : Balanced b) : Balanced (a ++ b) := by
  unfold Balanced at *
  rw [List.foldlM_append, ha]
  exact hb

theorem Balanced.of_append_plain (h : Balanced (a ++ b)) (hb : IsPlain b) : Balanced a := by
  rw [← balanced_filter_iff, List.filter_append, hb.filter_eq_nil, List.append_nil] at h
  exact balanced_filter_iff.mp h

theorem balanced_flatMap {α : Type} {f : α → List Char} {pieces : List α} (h : ∀ x ∈ pieces, Balanced (f x)) :
    Balanced (pieces.flatMap f) := by
  induction pieces with
  | nil => exact balanced_nil
  | cons x more ih =>
    rw [List.flatMap_cons]
    exact (h x (List.mem_cons_self ..)).append (ih fun y hy => h y (List.mem_cons_of_mem _ hy))

theorem Balanced.enclose (h : closer? opening = some closing) (hinner : Balanced text) :
    Balanced (opening :: (text ++ [closing])) := by
  unfold Balanced
  rw [List.foldlM_cons, readBracket_opening h]
  show (text ++ [closing]).foldlM readBracket [closing] = some []
  rw [List.foldlM_append, hinner.foldlM_readBracket]
  show ([closing].foldlM readBracket [closing]) = some []
  rw [List.foldlM_cons, readBracket_closing h]
  rfl

/-- The two brackets and what they enclose. -/
theorem Closes.slice {first last : Nat} (h : Closes text first last) :
    ∃ opening closing, text[first]? = some opening ∧ text[last]? = some closing ∧ first < last ∧
      closer? opening = some closing ∧ Balanced ((text.drop (first + 1)).take (last - (first + 1))) := by
  obtain ⟨before, opening, inner, closing, after, rfl, rfl, rfl, hcloser, hinner⟩ := h
  refine ⟨opening, closing, by simp, ?_, by omega, hcloser, ?_⟩
  · rw [Nat.add_assoc, List.getElem?_append_right (by omega), Nat.add_sub_cancel_left, List.getElem?_cons_succ]
    simp
  · rw [← List.drop_drop, List.drop_left, List.drop_succ_cons, List.drop_zero, List.take_left' (by omega)]
    exact hinner

/-- An opening bracket in a balanced text is closed in it: what follows it there is no part of what it encloses. -/
theorem Balanced.not_prefix_of_opening (h : Balanced (a ++ opening :: b)) (hopen : closer? opening = some closing)
    {inner : List Char} (hinner : Balanced inner) : ¬b <+: inner := by
  rintro ⟨rest, rfl⟩
  unfold Balanced at h hinner
  rw [List.foldlM_append] at hinner
  obtain ⟨owed, howed, -⟩ := Option.bind_eq_some_iff.mp hinner
  rw [List.foldlM_append] at h
  obtain ⟨before, -, h⟩ := Option.bind_eq_some_iff.mp h
  rw [List.foldlM_cons, readBracket_opening hopen] at h
  -- At the end of the part the closing bracket is still owed.
  have hend : b.foldlM readBracket (closing :: before) = some (owed ++ closing :: before) :=
    foldlM_readBracket_append howed (closing :: before)
  have hempty := Option.some.inj (hend.symm.trans h)
  simp at hempty

end Recordsmith.Text
