import Mathlib.Data.List.Basic
import Mathlib.Data.List.TakeWhile
import Recordsmith.Text.Lines

/-!
What joining, indenting and breaking lines brings into a text. A set of characters to which neither a separator nor the
indentation nor a line break belongs is met in the result exactly as in the pieces, in the same order.
-/

namespace Recordsmith.Text
variable {p : Char → Bool} {separator indent text : List Char}

/-! ### Joining -/

theorem joinWith_cons_of_ne_nil {piece : List Char} {more : List (List Char)} (h : more ≠ []) :
    joinWith separator (piece :: more) = piece ++ separator ++ joinWith separator more := by
  cases more with
  | nil => exact absurd rfl h
  | cons next rest => rfl

theorem filter_joinWith (h : separator.filter p = []) (pieces : List (List Char)) :
    (joinWith separator pieces).filter p = pieces.flatMap (List.filter p) := by
  induction pieces with
  | nil => rfl
  | cons piece more ih =>
    cases more with
    | nil => simp [joinWith]
    | cons next rest =>
      rw [joinWith_cons_of_ne_nil (List.cons_ne_nil next rest), List.filter_append, List.filter_append, h, ih,
        List.append_nil]
      rfl

theorem joinWith_eq_intercalate (separator : List Char) (pieces : List (List Char)) :
    joinWith separator pieces = separator.intercalate pieces := by
  induction pieces with
  | nil => rfl
  | cons piece more ih =>
    cases more with
    | nil => exact List.intercalate_singleton.symm
    | cons next rest => rw [joinWith_cons_of_ne_nil (by simp), ih, List.intercalate_cons_cons]

theorem mem_intercalate {α : Type} {separator : List α} {pieces : List (List α)} {x : α}
    (h : x ∈ separator.intercalate pieces) : x ∈ separator ∨ ∃ piece ∈ pieces, x ∈ piece := by
  induction pieces with
  | nil => cases h
  | cons piece more ih =>
    cases more with
    | nil =>
      rw [List.intercalate_singleton] at h
      exact Or.inr ⟨piece, List.mem_singleton_self _, h⟩
    | cons next rest =>
      rw [List.intercalate_cons_cons, List.append_assoc] at h
      rcases List.mem_append.mp h with h | h
      · exact Or.inr ⟨piece, List.mem_cons_self .., h⟩
      · rcases List.mem_append.mp h with h | h
        · exact Or.inl h
        · rcases ih h with h | ⟨piece', hmem, h⟩
          · exact Or.inl h
          · exact Or.inr ⟨piece', List.mem_cons_of_mem _ hmem, h⟩

theorem mem_joinWith {pieces : List (List Char)} {c : Char} (h : c ∈ joinWith separator pieces) :
    c ∈ separator ∨ ∃ piece ∈ pieces, c ∈ piece :=
  mem_intercalate (joinWith_eq_intercalate separator pieces ▸ h)

theorem toList_join (separator : String) (pieces : List String) :
    (join separator pieces).toList = joinWith separator.toList (pieces.map String.toList) := by
  induction pieces with
  | nil => rfl
  | cons piece more ih =>
    cases more with
    | nil => rfl
    | cons next rest =>
      have hjoin : join separator (piece :: next :: rest) = piece ++ separator ++ join separator (next :: rest) := rfl
      rw [List.map_cons, joinWith_cons_of_ne_nil (by simp), ← ih, hjoin, String.toList_append, String.toList_append]

/-! ### Lines -/

theorem splitAt_ne_nil (text : List Char) : splitAt p text ≠ [] := by
  cases text with
  | nil => simp [splitAt]
  | cons c rest =>
    rw [splitAt]
    split
    · simp
    · split <;> simp

theorem mem_splitAt {piece : List Char} (h : piece ∈ splitAt p text) {c : Char} (hc : c ∈ piece) :
    c ∈ text ∧ p c = false := by
  induction text generalizing piece with
  | nil =>
    obtain rfl := List.mem_singleton.mp h
    cases hc
  | cons first rest ih =>
    have hrest {piece : List Char} (h : piece ∈ splitAt p rest) (hc : c ∈ piece) : c ∈ first :: rest ∧ p c = false :=
      ⟨List.mem_cons_of_mem _ (ih h hc).1, (ih h hc).2⟩
    rw [splitAt] at h
    split at h
    · rcases List.mem_cons.mp h with rfl | h
      · cases hc
      · exact hrest h hc
    · rename_i hfirst
      have hself : first ∈ first :: rest ∧ p first = false := ⟨List.mem_cons_self .., by simpa using hfirst⟩
      split at h
      · obtain rfl := List.mem_singleton.mp h
        obtain rfl := List.mem_singleton.mp hc
        exact hself
      · rename_i hsplit
        rcases List.mem_cons.mp h with rfl | h
        · rcases List.mem_cons.mp hc with rfl | hc
          · exact hself
          · exact hrest (by rw [hsplit]; exact List.mem_cons_self ..) hc
        · exact hrest (by rw [hsplit]; exact List.mem_cons_of_mem _ h) hc

theorem joinWith_splitAt (mark : Char) (text : List Char) : joinWith [mark] (splitAt (· == mark) text) = text := by
  induction text with
  | nil => rfl
  | cons c rest ih =>
    rw [splitAt]
    obtain ⟨piece, more, hsplit⟩ := List.exists_cons_of_ne_nil (splitAt_ne_nil (p := (· == mark)) rest)
    split
    · rename_i hc
      rw [joinWith_cons_of_ne_nil (splitAt_ne_nil rest), ih, eq_of_beq hc]
      rfl
    · rw [hsplit] at ih ⊢
      cases more with
      | nil => exact congrArg (c :: ·) ih
      | cons next rest' => exact congrArg (c :: ·) ih

theorem unlines_lines (text : List Char) : unlines (lines text) = text := joinWith_splitAt '\n' text

theorem filter_indentBlock (hbreak : p '\n' = false) (hindent : indent.filter p = []) :
    (indentBlock text indent).filter p = text.filter p := by
  have hseparator : ['\n'].filter p = [] := by simp [hbreak]
  have hline : ∀ line : List Char, (if line.all isBlank then line else indent ++ line).filter p = line.filter p := by
    intro line
    split
    · rfl
    · rw [List.filter_append, hindent, List.nil_append]
  calc (indentBlock text indent).filter p
      = (lines text).flatMap (List.filter p) := by
        rw [indentBlock, unlines, filter_joinWith hseparator, List.flatMap_map]
        exact List.flatMap_congr fun line _ => hline line
    _ = (unlines (lines text)).filter p := (filter_joinWith hseparator _).symm
    _ = text.filter p := by rw [unlines_lines]

theorem filter_withBreaks (hn : p '\n' = false) (hr : p '\r' = false) (mark : LineBreak) (text : List Char) :
    (withBreaks mark text).filter p = text.filter p := by
  have hmark : mark.chars.filter p = [] := by cases mark <;> simp [LineBreak.chars, hn, hr]
  induction text with
  | nil => rfl
  | cons c rest ih =>
    have hcons : withBreaks mark (c :: rest) = (if c == '\n' then mark.chars else [c]) ++ withBreaks mark rest := rfl
    rw [hcons, List.filter_append, ih]
    split
    · rename_i hc
      rw [hmark, eq_of_beq hc, List.filter_cons_of_neg (by simp [hn]), List.nil_append]
    · rw [← List.filter_append, List.singleton_append]

theorem isIndent_of_mem_lineIndent {position : Nat} {c : Char} (h : c ∈ lineIndent text position) : isIndent c = true :=
  List.mem_takeWhile_imp h

end Recordsmith.Text
