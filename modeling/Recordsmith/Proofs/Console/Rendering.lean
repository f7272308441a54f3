import Recordsmith.Console.Markup

/-!
Which messages can be printed. Characters in front of a message, other than brackets and backslashes, and a style that
ends where it began do not change whether it can be.
-/

namespace Recordsmith.Console

variable {text rest : List Char} {styles : List Style}

/-! ### Segments -/

theorem untagged_eq {c : Char} (hplain : c ≠ '\\' ∨ rest.head? ≠ some '[') : untagged c rest = (c, rest) := by
  unfold untagged
  split
  · simp at hplain
  · rfl

theorem segments_cons_of_none {c : Char} (h : escapedTag? (c :: rest) = none) (hplain : c ≠ '\\' ∨ rest.head? ≠ some '[') :
    segments (c :: rest) = .char c :: segments rest := by
  rw [segments]
  split
  · rename_i hsome
    cases h.symm.trans hsome
  · rw [untagged_eq hplain]

theorem segments_tag {body : List Char} (h : tag? (body ++ ']' :: rest) = some (body, rest)) :
    segments ('[' :: body ++ ']' :: rest) = .tag body :: segments rest := by
  have htag : escapedTag? ('[' :: (body ++ ']' :: rest)) = some (0, body, rest) := by simp [escapedTag?, h]
  rw [List.cons_append, segments]
  split
  · rename_i slashes body' more hsome
    obtain ⟨rfl, rfl, rfl⟩ : 0 = slashes ∧ body = body' ∧ rest = more := by simpa using htag.symm.trans hsome
    rfl
  · rename_i hnone
    cases htag.symm.trans hnone

/-- Characters that neither open nor escape a tag. -/
def IsPlain (text : List Char) : Prop := ∀ c ∈ text, c ≠ '[' ∧ c ≠ '\\'

instance : Decidable (IsPlain text) := List.decidableBAll _ text

theorem IsPlain.append (h : IsPlain text) (hrest : IsPlain rest) : IsPlain (text ++ rest) :=
  List.forall_mem_append.mpr ⟨h, hrest⟩

theorem segments_append (h : IsPlain text) : segments (text ++ rest) = text.map .char ++ segments rest := by
  induction text with
  | nil => rfl
  | cons c more ih =>
    obtain ⟨⟨hbracket, hslash⟩, hmore⟩ := List.forall_mem_cons.mp h
    have hnone : escapedTag? (c :: (more ++ rest)) = none := by
      simp [escapedTag?, hslash, hbracket]
    rw [List.cons_append, segments_cons_of_none hnone (Or.inl hslash), ih hmore]
    rfl

theorem segments_of_no_bracket (h : '[' ∉ text) : segments text = text.map .char := by
  induction text with
  | nil => simp [segments]
  | cons c rest ih =>
    rw [List.mem_cons, not_or] at h
    have hnone : escapedTag? (c :: rest) = none := by
      simp only [escapedTag?]
      split
      · rename_i more hdrop
        have hmem : '[' ∈ (c :: rest).drop ((c :: rest).takeWhile (· == '\\')).length := by rw [hdrop]; exact List.mem_cons_self ..
        exact absurd (List.mem_of_mem_drop hmem) (List.not_mem_cons_of_ne_of_not_mem h.1 h.2)
      · rfl
    have hhead : rest.head? ≠ some '[' := fun hhead => h.2 (List.mem_of_head? hhead)
    rw [segments_cons_of_none hnone (Or.inr hhead), ih h.2]
    rfl

/-! ### Printing -/

theorem printed_append (text : List Char) (more : List Segment) :
    (printed styles (text.map .char ++ more)).isOk = (printed styles more).isOk := by
  induction text with
  | nil => rfl
  | cons c rest ih =>
    rw [← ih]
    show (printed styles (.char c :: (rest.map .char ++ more))).isOk = _
    rw [printed]
    cases printed styles (rest.map .char ++ more) <;> rfl

theorem printed_opening {body : List Char} {more : List Segment} (h : (tagName body).head? ≠ some '/') :
    printed styles (.tag body :: more) = printed (.ofTag body :: styles) more := by
  simp only [printed]
  split
  · rename_i name hname
    rw [hname] at h
    exact absurd rfl h
  · rfl

theorem printed_closing {body name : List Char} {more : List Segment} {outer : List Style}
    (h : tagName body = '/' :: name)
    (hend : endStyle (fun s => styleName name == "" || s.name == styleName name) styles = some outer) :
    printed styles (.tag body :: more) = printed outer more := by
  simp only [printed, h, hend]

/-- A text can be printed exactly if its segments can; a text without brackets always can. -/
theorem isOk_render (text : List Char) : (render text).isOk = (printed [] (segments text)).isOk := by
  unfold render
  split
  · cases printed [] (segments text) <;> rfl
  · rename_i hbracket
    have hno : '[' ∉ text := fun hmem => hbracket (List.contains_iff_mem.mpr hmem)
    have hall : (printed [] (text.map .char ++ [])).isOk = true := printed_append text []
    rw [segments_of_no_bracket hno, ← List.append_nil (text.map _), hall]
    rfl

/-- The mark in front of messages about success. -/
def successMark : List Char := "[green]✓[/green]".toList

theorem segments_successMark (rest : List Char) :
    segments (successMark ++ rest) =
      .tag "green".toList :: .char '✓' :: .tag "/green".toList :: segments rest := by
  have hclose : tag? ("/green".toList ++ ']' :: rest) = some ("/green".toList, rest) := rfl
  have hopen : tag? ("green".toList ++ ']' :: ('✓' :: ('[' :: "/green".toList ++ ']' :: rest))) =
      some ("green".toList, '✓' :: ('[' :: "/green".toList ++ ']' :: rest)) := rfl
  have hplain : IsPlain ['✓'] := by simp [IsPlain]
  calc segments (successMark ++ rest)
    _ = .tag "green".toList :: segments (['✓'] ++ ('[' :: "/green".toList ++ ']' :: rest)) := segments_tag hopen
    _ = .tag "green".toList :: .char '✓' :: segments ('[' :: "/green".toList ++ ']' :: rest) := by
      rw [segments_append hplain]
      rfl
    _ = .tag "green".toList :: .char '✓' :: .tag "/green".toList :: segments rest := by rw [segments_tag hclose]

/-- A style that is set and ended leaves no trace. -/
theorem isOk_printed_successMark (rest : List Char) :
    (printed [] (segments (successMark ++ rest))).isOk = (printed [] (segments rest)).isOk := by
  have hopen : (tagName "green".toList).head? ≠ some '/' := by decide +kernel
  have hclose : tagName "/green".toList = '/' :: "green".toList := by decide +kernel
  have hended : endStyle (fun s => styleName "green".toList == "" || s.name == styleName "green".toList)
      [.ofTag "green".toList] = some [] := by decide +kernel
  rw [segments_successMark, printed_opening hopen]
  exact (printed_append ['✓'] _).trans (congrArg Except.isOk (printed_closing hclose hended))

theorem isOk_render_successMark {plain : List Char} (h : IsPlain plain) (text : List Char) :
    (render (successMark ++ (plain ++ text))).isOk = (render text).isOk := by
  rw [isOk_render, isOk_printed_successMark, segments_append h, printed_append, isOk_render]

end Recordsmith.Console
