import Mathlib.Data.List.Basic
import Recordsmith.Path
import Recordsmith.Proofs.Text.Blocks

/-!
The normal form of paths. A path that is read from a text is in normal form, and a path in normal form is read again from
the text it is written as; so reading a path settles it, however it was written at first.
-/

namespace Recordsmith.Path
variable {p : Path} {steps : List String} {c : Char}

/-- A step that is not empty, leads to another place and holds no separator. -/
def IsStep (step : String) : Prop := step ≠ "" ∧ step ≠ "." ∧ '/' ∉ step.toList

def IsNormal (p : Path) : Prop := ∀ step ∈ p.steps, IsStep step

/-- The steps of a text, without those that are empty or lead to the same place. -/
def stepsOf (chars : List Char) : List String :=
  ((Text.splitAt (· == '/') chars).filter fun step => step ≠ [] ∧ step ≠ ['.']).map String.ofList

theorem ofText_eq (text : String) : ofText text = ⟨anchorOf text.toList, stepsOf text.toList⟩ := rfl

theorem isNormal_ofText (text : String) : (ofText text).IsNormal := by
  intro step hstep
  obtain ⟨chars, hchars, rfl⟩ := List.mem_map.mp hstep
  obtain ⟨hpiece, hcounts⟩ := List.mem_filter.mp hchars
  obtain ⟨hempty, hsame⟩ : chars ≠ [] ∧ chars ≠ ['.'] := by simpa using hcounts
  refine ⟨fun h => hempty ?_, fun h => hsame ?_, fun hslash => ?_⟩
  · simpa using congrArg String.toList h
  · simpa using congrArg String.toList h
  · rw [String.toList_ofList] at hslash
    cases (Text.mem_splitAt hpiece hslash).2

/-! ### Steps -/

theorem stepsOf_cons_separator (chars : List Char) : stepsOf ('/' :: chars) = stepsOf chars := by
  rw [stepsOf, Text.splitAt, if_pos (beq_self_eq_true '/'), List.filter_cons_of_neg (by simp)]
  rfl

/-- The steps of a path in normal form, as they are written. -/
def joined (steps : List String) : List Char := Text.joinWith ['/'] (steps.map String.toList)

theorem stepsOf_joined (hne : steps ≠ []) (h : ∀ step ∈ steps, IsStep step) :
    stepsOf (joined steps) = steps := by
  have hsplit : Text.splitAt (· == '/') (joined steps) = steps.map String.toList := by
    refine Text.splitAt_joinWith (by simpa using hne) fun piece hpiece => ?_
    obtain ⟨step, hstep, rfl⟩ := List.mem_map.mp hpiece
    exact (h step hstep).2.2
  have hcount : ∀ piece ∈ steps.map String.toList, decide (piece ≠ [] ∧ piece ≠ ['.']) = true := by
    intro piece hpiece
    obtain ⟨step, hstep, rfl⟩ := List.mem_map.mp hpiece
    obtain ⟨hempty, hsame, -⟩ := h step hstep
    refine decide_eq_true ⟨fun heq => hempty (String.toList_inj.mp heq), fun heq => hsame (String.toList_inj.mp heq)⟩
  rw [stepsOf, hsplit, List.filter_eq_self.mpr hcount, List.map_map]
  simp [Function.comp_def]

/-! ### Anchors -/

theorem exists_joined_eq_cons (hne : steps ≠ []) (h : ∀ step ∈ steps, IsStep step) :
    ∃ c rest, joined steps = c :: rest ∧ c ≠ '/' := by
  obtain ⟨first, more, rfl⟩ := List.exists_cons_of_ne_nil hne
  obtain ⟨hempty, -, hslash⟩ := h first List.mem_cons_self
  obtain ⟨c, rest, hfirst⟩ := List.exists_cons_of_ne_nil (l := first.toList) (fun heq => hempty (String.toList_inj.mp heq))
  have hc : c ≠ '/' := by
    rintro rfl
    exact hslash (hfirst ▸ List.mem_cons_self)
  cases more with
  | nil => exact ⟨c, rest, hfirst, hc⟩
  | cons next others =>
    refine ⟨c, rest ++ ['/'] ++ joined (next :: others), ?_, hc⟩
    rw [joined, List.map_cons, Text.joinWith_cons_of_ne_nil (by simp), hfirst]
    rfl

theorem anchorOf_append (anchor : Anchor) (hc : c ≠ '/') (rest : List Char) :
    anchorOf (anchor.text.toList ++ c :: rest) = anchor := by
  cases anchor with
  | here =>
    show anchorOf (c :: rest) = .here
    simp [anchorOf, hc]
  | root =>
    show anchorOf ('/' :: c :: rest) = .root
    simp [anchorOf, hc]
  | doubleRoot =>
    show anchorOf ('/' :: '/' :: c :: rest) = .doubleRoot
    simp [anchorOf, hc]

theorem stepsOf_append (anchor : Anchor) (chars : List Char) : stepsOf (anchor.text.toList ++ chars) = stepsOf chars := by
  cases anchor with
  | here => rfl
  | root => exact stepsOf_cons_separator chars
  | doubleRoot => exact (stepsOf_cons_separator _).trans (stepsOf_cons_separator chars)

/-! ### Reading what is written -/

theorem toList_text_of_ne_nil (hne : p.steps ≠ []) : p.text.toList = p.anchor.text.toList ++ joined p.steps := by
  rw [text, if_neg fun h => hne h.2, String.toList_append, Text.toList_join]
  rfl

theorem ofText_text (h : p.IsNormal) : ofText p.text = p := by
  obtain ⟨anchor, steps⟩ := p
  by_cases hne : steps = []
  · subst hne
    cases anchor <;> decide
  · obtain ⟨c, rest, hjoined, hc⟩ := exists_joined_eq_cons hne h
    rw [ofText_eq, toList_text_of_ne_nil hne, stepsOf_append, stepsOf_joined hne h, hjoined, anchorOf_append anchor hc]

example : (ofText "///a//./../b/").text = "/a/../b" := by decide

end Recordsmith.Path
