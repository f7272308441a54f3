import Mathlib.Order.Bounds.Defs
import Recordsmith.Proofs.Text.LineBreaks

/-!
The gap after a mark is the longest match. Reading a gap leaves two things open, how far a run of spaces and tabs goes and
whether a line break follows it, and no other choice gets past the place where the gap that is read ends.
-/

namespace Recordsmith.Text
variable {gap text : List Char} {position q i : Nat}

/-! ### Line breaks of a gap -/

theorem not_mem_of_indents {c : Char} {run : List Char} (hrun : ∀ d ∈ run, isIndent d = true)
    (hc : isIndent c = false) : c ∉ run := by
  intro hmem
  rw [hrun c hmem] at hc
  cases hc

theorem IsGap.count_le_one (h : IsGap gap) : gap.count '\n' ≤ 1 := by
  obtain ⟨before, after, hbefore, hafter, hgap⟩ := h
  have hzero : before.count '\n' = 0 := List.count_eq_zero.mpr (not_mem_of_indents hbefore (by decide))
  have hzero' : after.count '\n' = 0 := List.count_eq_zero.mpr (not_mem_of_indents hafter (by decide))
  rcases hgap with rfl | rfl | rfl
  · omega
  · rw [List.count_append, List.count_cons_self]
    omega
  · rw [List.count_append, List.count_cons_of_ne (by decide), List.count_cons_self]
    omega

theorem IsGap.followed (h : IsGap gap) (hi : gap[i]? = some '\r') : gap[i + 1]? = some '\n' := by
  have hreturn : isIndent '\r' = false := by decide
  obtain ⟨before, after, hbefore, hafter, rfl | rfl | rfl⟩ := h
  · exact absurd (List.mem_of_getElem? hi) (not_mem_of_indents hbefore hreturn)
  · have hmem := List.mem_of_getElem? hi
    rw [List.mem_append, List.mem_cons] at hmem
    rcases hmem with hmem | hmem | hmem
    · exact absurd hmem (not_mem_of_indents hbefore hreturn)
    · cases hmem
    · exact absurd hmem (not_mem_of_indents hafter hreturn)
  · rcases Nat.lt_trichotomy i before.length with hlt | rfl | hgt
    · rw [List.getElem?_append_left hlt] at hi
      exact absurd (List.mem_of_getElem? hi) (not_mem_of_indents hbefore hreturn)
    · rw [List.getElem?_append_right (by omega), Nat.add_sub_cancel_left]
      rfl
    · obtain ⟨k, rfl⟩ := Nat.exists_eq_add_of_lt hgt
      rw [List.getElem?_append_right (by omega), Nat.add_assoc, Nat.add_sub_cancel_left, List.getElem?_cons_succ] at hi
      rcases List.mem_cons.mp (List.mem_of_getElem? hi) with hmem | hmem
      · cases hmem
      · exact absurd hmem (not_mem_of_indents hafter hreturn)

/-! ### The longest gap -/

theorem gapLength_le_length (text : List Char) : gapLength text ≤ text.length := by
  obtain ⟨gap, rest, heq, hlength, -⟩ := exists_gap_append text
  have := congrArg List.length heq
  rw [List.length_append] at this
  omega

theorem length_takeWhile_indent_le (text : List Char) : (text.takeWhile isIndent).length ≤ gapLength text := by
  simp only [gapLength]
  split <;> omega

/-- A gap that opens a text is no longer than the gap that is read from this text. -/
theorem IsGap.length_le_gapLength (h : IsGap gap) (rest : List Char) : gap.length ≤ gapLength (gap ++ rest) := by
  have hlonger : ∀ run : List Char, (∀ c ∈ run, isIndent c = true) →
      run.length ≤ ((run ++ rest).takeWhile isIndent).length := by
    intro run hrun
    rw [List.takeWhile_append_of_pos hrun, List.length_append]
    exact Nat.le_add_right ..
  obtain ⟨before, after, hbefore, hafter, rfl | rfl | rfl⟩ := h
  · exact Nat.le_trans (hlonger _ hbefore) (length_takeWhile_indent_le _)
  · have hrun := takeWhile_indent (after ++ rest) hbefore (show isIndent '\n' = false by decide)
    have hafter' := hlonger _ hafter
    simp only [List.append_assoc, List.cons_append, gapLength, hrun, List.drop_left, List.length_append,
      List.length_cons] at hafter' ⊢
    omega
  · have hrun := takeWhile_indent ('\n' :: (after ++ rest)) hbefore (show isIndent '\r' = false by decide)
    have hafter' := hlonger _ hafter
    simp only [List.append_assoc, List.cons_append, gapLength, hrun, List.drop_left, List.length_append,
      List.length_cons] at hafter' ⊢
    omega

theorem gapEnd_le_length (h : position ≤ text.length) : gapEnd text position ≤ text.length := by
  have := gapLength_le_length (text.drop position)
  rw [List.length_drop] at this
  rw [gapEnd]
  omega

theorem IsGap.le_gapEnd (h : IsGap (text.extract position q)) (hq : q ≤ text.length) : q ≤ gapEnd text position := by
  have hlength := h.length_le_gapLength ((text.drop position).drop (q - position))
  rw [List.take_append_drop, List.length_take, List.length_drop] at hlength
  rw [gapEnd]
  omega

/-- The gap after a position ends at the last place that a gap can end at. No line break is cut in two there, an `\r` is
    taken only together with its `\n`, and at most one line break is. -/
theorem gapEnd_is_longest_match (h : position ≤ text.length) :
    IsGreatest {q | position ≤ q ∧ q ≤ text.length ∧ IsGap (text.extract position q)} (gapEnd text position) ∧
    (∀ i, i + 1 = gapEnd text position → text[i]? = some '\r' → text[i + 1]? ≠ some '\n') ∧
    (∀ i, position ≤ i → i < gapEnd text position → text[i]? = some '\r' →
      i + 1 < gapEnd text position ∧ text[i + 1]? = some '\n') ∧
    (text.extract position (gapEnd text position)).count '\n' ≤ 1 := by
  have hgap : IsGap (text.extract position (gapEnd text position)) := isGap_gapEnd text position
  refine ⟨⟨⟨le_gapEnd, gapEnd_le_length h, hgap⟩, fun q hq => hq.2.2.le_gapEnd hq.2.1⟩, ?_, ?_, hgap.count_le_one⟩
  · intro i hi hreturn hfeed
    exact not_return_before_gapEnd hi hfeed hreturn
  · intro i hle hlt hreturn
    have hinside (j : Nat) (hj : position + j < gapEnd text position) :
        (text.extract position (gapEnd text position))[j]? = text[position + j]? := by
      rw [List.getElem?_take_of_lt (by omega), List.getElem?_drop]
    obtain ⟨k, rfl⟩ := Nat.exists_eq_add_of_le hle
    have hnext := hgap.followed ((hinside k hlt).trans hreturn)
    have hbefore : position + (k + 1) < gapEnd text position := by
      obtain ⟨hk, -⟩ := List.getElem?_eq_some_iff.mp hnext
      have hk := Nat.lt_of_lt_of_le hk (List.length_take_le ..)
      omega
    exact ⟨hbefore, (hinside (k + 1) hbefore).symm.trans hnext⟩

/-- A marker on a line of its own, with blanks around the line break, before an empty line. -/
def markerLine : List Char := "@Buildable \t\r\n  \r\nclass".toList

theorem gapEnd_is_longest_match_line :
    10 ≤ markerLine.length ∧ gapEnd markerLine 10 = 16 ∧
    IsGreatest {q | 10 ≤ q ∧ q ≤ markerLine.length ∧ IsGap (markerLine.extract 10 q)} 16 := by
  have hinside : 10 ≤ markerLine.length := by decide
  have hend : gapEnd markerLine 10 = 16 := by decide
  exact ⟨hinside, hend, hend ▸ (gapEnd_is_longest_match hinside).1⟩

end Recordsmith.Text
