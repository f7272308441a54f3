import Mathlib.Data.List.TakeWhile
import Recordsmith.Text.Lines

/-!
Blanks at the end of a text, and gaps after a mark. Trimming takes away blanks only, and a gap is made of spaces, tabs and
at most one line break; so neither passes over a character that is not blank.
-/

namespace Recordsmith.Text

/-- A character that is not blank stands at the position. -/
def IsVisible (text : List Char) (i : Nat) : Prop := ∃ c, text[i]? = some c ∧ isBlank c = false

instance {text : List Char} {i : Nat} : Decidable (IsVisible text i) := Option.decidableExistsMem _

/-! ### Blanks at the end -/

section Trimming
variable {text : List Char} {i : Nat} {c : Char}

theorem trimEnd_append_blanks (text : List Char) : trimEnd text ++ (text.reverse.takeWhile isBlank).reverse = text := by
  unfold trimEnd
  rw [← List.reverse_append, List.takeWhile_append_dropWhile, List.reverse_reverse]

theorem length_trimEnd_le (text : List Char) : (trimEnd text).length ≤ text.length := by
  have h := congrArg List.length (trimEnd_append_blanks text)
  rw [List.length_append] at h
  omega

theorem isBlank_of_length_trimEnd_le (h : (trimEnd text).length ≤ i) (hc : text[i]? = some c) : isBlank c = true := by
  rw [← trimEnd_append_blanks text, List.getElem?_append_right h] at hc
  have hmem := List.mem_reverse.mp (List.mem_of_getElem? hc)
  exact List.mem_takeWhile_imp hmem

theorem lt_length_trimEnd (hc : text[i]? = some c) (hb : isBlank c = false) : i < (trimEnd text).length := by
  refine Nat.lt_of_not_le fun h => ?_
  rw [isBlank_of_length_trimEnd_le h hc] at hb
  cases hb

end Trimming

/-! ### Gaps -/

/-- What separates a mark from what it stands before: spaces and tabs, and at most one line break among them. -/
def IsGap (text : List Char) : Prop :=
  ∃ before after : List Char, (∀ c ∈ before, isIndent c = true) ∧ (∀ c ∈ after, isIndent c = true) ∧
    (text = before ∨ text = before ++ '\n' :: after ∨ text = before ++ '\r' :: '\n' :: after)

theorem isBlank_of_isIndent {c : Char} (h : isIndent c = true) : isBlank c = true := by
  simp only [isIndent, Bool.or_eq_true, beq_iff_eq] at h
  rcases h with rfl | rfl <;> decide

theorem IsGap.isBlank {text : List Char} (h : IsGap text) : ∀ c ∈ text, isBlank c = true := by
  obtain ⟨before, after, hbefore, hafter, rfl | rfl | rfl⟩ := h
  · exact fun c hc => isBlank_of_isIndent (hbefore c hc)
  · intro c hc
    rcases List.mem_append.mp hc with hc | hc
    · exact isBlank_of_isIndent (hbefore c hc)
    · rcases List.mem_cons.mp hc with rfl | hc
      · decide
      · exact isBlank_of_isIndent (hafter c hc)
  · intro c hc
    rcases List.mem_append.mp hc with hc | hc
    · exact isBlank_of_isIndent (hbefore c hc)
    · rcases List.mem_cons.mp hc with rfl | hc
      · decide
      · rcases List.mem_cons.mp hc with rfl | hc
        · decide
        · exact isBlank_of_isIndent (hafter c hc)

theorem takeWhile_indent {before : List Char} {c : Char} (rest : List Char) (hbefore : ∀ d ∈ before, isIndent d = true)
    (hc : isIndent c = false) : (before ++ c :: rest).takeWhile isIndent = before := by
  rw [List.takeWhile_append_of_pos hbefore, List.takeWhile_cons_of_neg (by simp [hc]), List.append_nil]

/-- A text opens with its gap, and `gapLength` counts exactly that. -/
theorem exists_gap_append (text : List Char) :
    ∃ gap rest, text = gap ++ rest ∧ gap.length = gapLength text ∧ IsGap gap := by
  have hrun : ∀ t : List Char, ∀ c ∈ t.takeWhile isIndent, isIndent c = true := fun t c hc => List.mem_takeWhile_imp hc
  have hsplit : ∀ t : List Char, t = t.takeWhile isIndent ++ t.dropWhile isIndent :=
    fun t => List.takeWhile_append_dropWhile.symm
  have hdrop : text.drop (text.takeWhile isIndent).length = text.dropWhile isIndent := by
    have h : (text.takeWhile isIndent ++ text.dropWhile isIndent).drop (text.takeWhile isIndent).length =
        text.dropWhile isIndent := List.drop_left
    rwa [← hsplit text] at h
  simp only [gapLength, hdrop]
  split
  · rename_i more hmore
    refine ⟨text.takeWhile isIndent ++ '\n' :: more.takeWhile isIndent, more.dropWhile isIndent, ?_, ?_,
      _, _, hrun text, hrun more, Or.inr (Or.inl rfl)⟩
    · rw [List.append_assoc, List.cons_append, ← hsplit more, ← hmore]
      exact hsplit text
    · rw [List.length_append, List.length_cons]
      omega
  · rename_i more hmore
    refine ⟨text.takeWhile isIndent ++ '\r' :: '\n' :: more.takeWhile isIndent, more.dropWhile isIndent, ?_, ?_,
      _, _, hrun text, hrun more, Or.inr (Or.inr rfl)⟩
    · rw [List.append_assoc, List.cons_append, List.cons_append, ← hsplit more, ← hmore]
      exact hsplit text
    · rw [List.length_append, List.length_cons, List.length_cons]
      omega
  · exact ⟨text.takeWhile isIndent, text.dropWhile isIndent, hsplit text, rfl, _, [], hrun text, by simp, Or.inl rfl⟩

section GapEnd
variable {text : List Char} {position q : Nat} {c : Char}

theorem le_gapEnd : position ≤ gapEnd text position := Nat.le_add_right ..

theorem isGap_gapEnd (text : List Char) (position : Nat) :
    IsGap ((text.drop position).take (gapEnd text position - position)) := by
  obtain ⟨gap, rest, heq, hlen, hgap⟩ := exists_gap_append (text.drop position)
  unfold gapEnd
  rw [Nat.add_sub_cancel_left, ← hlen, heq, List.take_left]
  exact hgap

/-- A gap ends before the next character that is not blank. -/
theorem gapEnd_le (hq : position ≤ q) (hc : text[q]? = some c) (hb : isBlank c = false) : gapEnd text position ≤ q := by
  refine Nat.le_of_not_lt fun hlt => ?_
  have hmem : c ∈ (text.drop position).take (gapEnd text position - position) := by
    refine List.mem_of_getElem? (i := q - position) ?_
    rw [List.getElem?_take_of_lt (by omega), List.getElem?_drop, Nat.add_sub_cancel' hq]
    exact hc
  rw [(isGap_gapEnd text position).isBlank c hmem] at hb
  cases hb

end GapEnd

end Recordsmith.Text
