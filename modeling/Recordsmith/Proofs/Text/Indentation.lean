import Mathlib.Data.List.Forall2
import Recordsmith.Proofs.Text.Blocks

/-!
Texts that differ in indentation only. Two texts are related when one comes from the other by exchanging, after some line
breaks, the spaces and tabs in front of a character that is not blank. The relation goes through all that is done to a
text before it is inserted: joining, indenting as a block and writing the line breaks of the source.
-/

namespace Recordsmith.Text

/-- A run of spaces and tabs. -/
def IsIndentation (text : List Char) : Prop := ∀ c ∈ text, isIndent c = true

instance : DecidablePred IsIndentation := fun text => List.decidableBAll _ text

/-- A line without the spaces and tabs that open it. -/
def withoutIndent (line : List Char) : List Char := line.dropWhile isIndent

/-- Two lines that are equal, or else differ in the indentation of a character that is not blank. -/
inductive SameLine : List Char → List Char → Prop
  | refl (line : List Char) : SameLine line line
  | indented {indent indent' : List Char} (h : IsIndentation indent) (h' : IsIndentation indent') {c : Char}
      (hc : isBlank c = false) (rest : List Char) : SameLine (indent ++ c :: rest) (indent' ++ c :: rest)

/-- Two texts that differ only in what stands between some line breaks and the first character after them that is not
    blank; on both sides these are spaces and tabs. -/
inductive Reindents : List Char → List Char → Prop
  | nil : Reindents [] []
  | cons (c : Char) {a b : List Char} (h : Reindents a b) : Reindents (c :: a) (c :: b)
  | indent {indent indent' : List Char} (hindent : IsIndentation indent) (hindent' : IsIndentation indent') {c : Char}
      (hc : isBlank c = false) {a b : List Char} (h : Reindents a b) :
      Reindents ('\n' :: (indent ++ c :: a)) ('\n' :: (indent' ++ c :: b))

variable {a b a' b' indent line line' first : List Char} {more more' : List (List Char)}

theorem IsIndentation.append (ha : IsIndentation a) (hb : IsIndentation b) : IsIndentation (a ++ b) :=
  List.forall_mem_append.mpr ⟨ha, hb⟩

theorem IsIndentation.not_mem (h : IsIndentation indent) : '\n' ∉ indent := fun hmem => by cases h _ hmem

theorem isIndent_eq_false {c : Char} (h : isBlank c = false) : isIndent c = false := by
  by_contra hc
  rw [isBlank_of_isIndent (by simpa using hc)] at h
  cases h

theorem not_mem_of_solid {c : Char} (h : isBlank c = false) : '\n' ∉ [c] := by
  rintro (_ | ⟨_, hmem⟩)
  · cases h
  · cases hmem

/-! ### Lines -/

namespace SameLine

theorem withoutIndent_eq (h : SameLine line line') : withoutIndent line = withoutIndent line' := by
  cases h with
  | refl => rfl
  | @indented _ _ h h' c hc rest =>
    have hsolid : ¬isIndent c = true := by rw [isIndent_eq_false hc]; exact Bool.false_ne_true
    rw [withoutIndent, withoutIndent, List.dropWhile_append_of_pos h, List.dropWhile_append_of_pos h',
      List.dropWhile_cons_of_neg hsolid]

/-- Lines of a block are blank together, so both are indented or none. -/
theorem pad (h : SameLine line line') (hindent : IsIndentation indent) :
    SameLine (indentLine indent line) (indentLine indent line') := by
  cases h with
  | refl => exact .refl _
  | @indented _ _ h h' c hc rest =>
    have hvisible (own : List Char) : (own ++ c :: rest).all isBlank = false := by simp [hc]
    rw [indentLine_of_visible indent (hvisible _), indentLine_of_visible indent (hvisible _), ← List.append_assoc,
      ← List.append_assoc]
    exact .indented (hindent.append h) (hindent.append h') hc rest

end SameLine

/-- What stands before the first line break belongs to the first line. -/
theorem lines_append (ha : '\n' ∉ a) (hb : lines b = first :: more) : lines (a ++ b) = (a ++ first) :: more := by
  induction a with
  | nil => exact hb
  | cons c rest ih =>
    obtain ⟨hc, hrest⟩ := not_or.mp (mt List.mem_cons.mpr ha)
    have hne : ¬(c == '\n') = true := by simpa using Ne.symm hc
    rw [List.cons_append, lines, splitAt, if_neg hne, ← lines, ih hrest]
    rfl

theorem unlines_append_head (front line : List Char) (more : List (List Char)) :
    unlines ((front ++ line) :: more) = front ++ unlines (line :: more) := by
  cases more with
  | nil => rfl
  | cons next rest =>
    have hne : next :: rest ≠ [] := List.cons_ne_nil next rest
    rw [unlines, unlines, joinWith_cons_of_ne_nil hne, joinWith_cons_of_ne_nil hne]
    simp only [List.append_assoc]

theorem withBreaks_append_of_not_mem (mark : LineBreak) (ha : '\n' ∉ a) (b : List Char) :
    withBreaks mark (a ++ b) = a ++ withBreaks mark b := by
  induction a with
  | nil => rfl
  | cons c rest ih =>
    obtain ⟨hc, hrest⟩ := not_or.mp (mt List.mem_cons.mpr ha)
    have hne : ¬(c == '\n') = true := by simpa using Ne.symm hc
    rw [List.cons_append, withBreaks_cons, if_neg hne, ih hrest]
    rfl

/-! ### Related texts -/

namespace Reindents

theorem refl (text : List Char) : Reindents text text := by
  induction text with
  | nil => exact .nil
  | cons c rest ih => exact .cons c ih

theorem append (h : Reindents a b) (h' : Reindents a' b') : Reindents (a ++ a') (b ++ b') := by
  induction h with
  | nil => exact h'
  | cons c _ ih => exact .cons c ih
  | indent hindent hindent' hc _ ih =>
    rw [List.cons_append, List.cons_append, List.append_assoc, List.append_assoc]
    exact .indent hindent hindent' hc ih

theorem flatMap {α : Type} {f g : α → List Char} (h : ∀ x, Reindents (f x) (g x)) (xs : List α) :
    Reindents (xs.flatMap f) (xs.flatMap g) := by
  induction xs with
  | nil => exact .nil
  | cons x rest ih =>
    rw [List.flatMap_cons, List.flatMap_cons]
    exact (h x).append ih

theorem joinWith (separator : List Char) {pieces pieces' : List (List Char)}
    (h : List.Forall₂ Reindents pieces pieces') :
    Reindents (joinWith separator pieces) (joinWith separator pieces') := by
  induction h with
  | nil => exact .nil
  | @cons piece piece' _ _ hpiece hrest ih =>
    cases hrest with
    | nil => exact hpiece
    | cons => exact (hpiece.append (refl separator)).append ih

/-- Line by line, related texts are the same but for the indentation of lines other than the first. -/
theorem exists_lines (h : Reindents a b) :
    ∃ first more more', lines a = first :: more ∧ lines b = first :: more' ∧ List.Forall₂ SameLine more more' := by
  induction h with
  | nil => exact ⟨[], [], [], rfl, rfl, .nil⟩
  | cons c _ ih =>
    obtain ⟨first, more, more', ha, hb, hmore⟩ := ih
    by_cases hc : c = '\n'
    · subst hc
      exact ⟨[], first :: more, first :: more', congrArg ([] :: ·) ha, congrArg ([] :: ·) hb, .cons (.refl _) hmore⟩
    · have hbreak : '\n' ∉ [c] := by simpa using Ne.symm hc
      exact ⟨c :: first, more, more', lines_append hbreak ha, lines_append hbreak hb, hmore⟩
  | @indent indent indent' hindent hindent' c hc a b _ ih =>
    obtain ⟨first, more, more', ha, hb, hmore⟩ := ih
    have hsolid := not_mem_of_solid hc
    refine ⟨[], (indent ++ c :: first) :: more, (indent' ++ c :: first) :: more', ?_, ?_,
      .cons (.indented hindent hindent' hc first) hmore⟩
    · exact congrArg ([] :: ·) (lines_append hindent.not_mem (lines_append hsolid ha))
    · exact congrArg ([] :: ·) (lines_append hindent'.not_mem (lines_append hsolid hb))

/-- Pieces that are related line by line give related texts, also where a piece has more lines than one. -/
theorem unlines (h : List.Forall₂ SameLine more more') (first : List Char) :
    Reindents (unlines (first :: more)) (unlines (first :: more')) := by
  induction h generalizing first with
  | nil => exact refl _
  | @cons line line' more more' hline _ ih =>
    have hsplit (line : List Char) (more : List (List Char)) :
        Text.unlines (first :: line :: more) = first ++ '\n' :: Text.unlines (line :: more) :=
      unlines_append (List.cons_ne_nil first []) (List.cons_ne_nil line more)
    rw [hsplit, hsplit]
    refine (refl first).append ?_
    cases hline with
    | refl line => exact .cons '\n' (ih line)
    | @indented indent indent' hindent hindent' c hc rest =>
      have hsolid (more : List (List Char)) : Text.unlines ((c :: rest) :: more) = c :: Text.unlines (rest :: more) :=
        unlines_append_head [c] rest more
      rw [unlines_append_head, unlines_append_head, hsolid, hsolid]
      exact .indent hindent hindent' hc (ih rest)

theorem indentBlock (h : Reindents a b) (hindent : IsIndentation indent) :
    Reindents (indentBlock a indent) (indentBlock b indent) := by
  obtain ⟨first, more, more', ha, hb, hmore⟩ := h.exists_lines
  rw [indentBlock_eq, indentBlock_eq, ha, hb, List.map_cons, List.map_cons]
  refine unlines ?_ _
  rw [List.forall₂_map_left_iff, List.forall₂_map_right_iff]
  exact hmore.imp fun _ _ hline => hline.pad hindent

/-- However line breaks are written, the indentation follows an `\n`. -/
theorem withBreaks (h : Reindents a b) (mark : LineBreak) : Reindents (withBreaks mark a) (withBreaks mark b) := by
  induction h with
  | nil => exact .nil
  | cons c _ ih =>
    rw [withBreaks_cons, withBreaks_cons]
    exact (refl _).append ih
  | @indent indent indent' hindent hindent' c hc a b _ ih =>
    have hline {indent : List Char} (h : IsIndentation indent) (rest : List Char) :
        Text.withBreaks mark ('\n' :: (indent ++ c :: rest)) =
          mark.chars ++ (indent ++ c :: Text.withBreaks mark rest) := by
      have hfront := withBreaks_append_of_not_mem mark h.not_mem (c :: rest)
      have hsolid := withBreaks_append_of_not_mem mark (not_mem_of_solid hc) rest
      rw [withBreaks_cons, hfront]
      exact congrArg (fun text => mark.chars ++ (indent ++ text)) hsolid
    have hrest := Reindents.indent hindent hindent' hc ih
    rw [hline hindent, hline hindent']
    cases mark with
    | lf => exact hrest
    | crlf => exact .cons '\r' hrest

/-- Related texts have the same lines, each taken without its indentation. -/
theorem map_withoutIndent_eq (h : Reindents a b) : (lines a).map withoutIndent = (lines b).map withoutIndent := by
  obtain ⟨first, more, more', ha, hb, hmore⟩ := h.exists_lines
  rw [ha, hb, List.map_cons, List.map_cons]
  have heq : List.Forall₂ (· = ·) (more.map withoutIndent) (more'.map withoutIndent) := by
    rw [List.forall₂_map_left_iff, List.forall₂_map_right_iff]
    exact hmore.imp fun _ _ hline => hline.withoutIndent_eq
  rw [List.forall₂_eq_eq_eq] at heq
  rw [heq]

end Reindents

end Recordsmith.Text
