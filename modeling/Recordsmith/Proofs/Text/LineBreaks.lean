import Mathlib.Data.List.Basic
import Recordsmith.Proofs.Text.Blanks
import Recordsmith.Text.Lines

/-!
Texts whose line breaks are all `\r\n`. A reader of such a text only has to know whether the last character was a `\r`.
Writing the line breaks of a text as `\r\n` gives such a text exactly when there was no `\r` in it before.
-/

namespace Recordsmith.Text

/-- A text in which every `\r` has an `\n` after it and every `\n` an `\r` in front of it. -/
structure OnlyCrlf (text : List Char) : Prop where
  followed : ∀ i, text[i]? = some '\r' → text[i + 1]? = some '\n'
  preceded : ∀ i, text[i]? = some '\n' → ∃ j, j + 1 = i ∧ text[j]? = some '\r'

/-- Reads one character, given whether an `\n` has to come next. -/
def readBreak (due : Bool) (c : Char) : Option Bool :=
  if due then if c = '\n' then some false else none
  else if c = '\n' then none else some (c == '\r')

/-! ### Reading -/

variable {text a b : List Char} {c : Char} {due due' : Bool}

theorem readBreak_eq_true (h : readBreak due c = some true) : c = '\r' := by
  unfold readBreak at h
  split at h
  · split at h <;> cases h
  · split at h
    · cases h
    · exact eq_of_beq (Option.some.inj h)

theorem readBreak_of_plain (hn : c ≠ '\n') (hr : c ≠ '\r') : readBreak false c = some false := by
  simp [readBreak, hn, hr]

theorem readBreak_true_of_ne (h : c ≠ '\n') : readBreak true c = none := by simp [readBreak, h]

/-- What a text is like that a reader gets through: where an `\n` has to come next, it comes first. -/
theorem foldlM_readBreak_iff : text.foldlM readBreak due = some false ↔
    (∀ i, text[i]? = some '\r' → text[i + 1]? = some '\n') ∧
    (∀ i, text[i + 1]? = some '\n' → text[i]? = some '\r') ∧ (text[0]? = some '\n' ↔ due = true) := by
  induction text generalizing due with
  | nil => simp
  | cons c rest ih =>
    -- The conditions on the pairs that start with the first character, and those on all others.
    have hfollowed : (∀ i, (c :: rest)[i]? = some '\r' → (c :: rest)[i + 1]? = some '\n') ↔
        (c = '\r' → rest[0]? = some '\n') ∧ ∀ i, rest[i]? = some '\r' → rest[i + 1]? = some '\n' := by
      rw [← Nat.and_forall_add_one]
      simp
    have hpreceded : (∀ i, (c :: rest)[i + 1]? = some '\n' → (c :: rest)[i]? = some '\r') ↔
        (rest[0]? = some '\n' → c = '\r') ∧ ∀ i, rest[i + 1]? = some '\n' → rest[i]? = some '\r' := by
      rw [← Nat.and_forall_add_one]
      simp
    rw [List.foldlM_cons, hfollowed, hpreceded]
    cases due with
    | true =>
      by_cases hn : c = '\n'
      · subst hn
        have hread : readBreak true '\n' = some false := rfl
        simp [hread, ih]
        tauto
      · simp [readBreak_true_of_ne hn, hn]
    | false =>
      by_cases hn : c = '\n'
      · simp [readBreak, hn]
      · have hread : readBreak false c = some (c == '\r') := by simp [readBreak, hn]
        simp [hread, ih, hn]
        tauto

theorem onlyCrlf_iff_foldlM : OnlyCrlf text ↔ text.foldlM readBreak false = some false := by
  rw [foldlM_readBreak_iff]
  constructor
  · rintro ⟨hfollowed, hpreceded⟩
    refine ⟨hfollowed, fun i hi => ?_, fun h => ?_, nofun⟩
    · obtain ⟨j, hj, hreturn⟩ := hpreceded (i + 1) hi
      obtain rfl : j = i := by omega
      exact hreturn
    · obtain ⟨j, hj, -⟩ := hpreceded 0 h
      omega
  · rintro ⟨hfollowed, hpreceded, hfirst⟩
    refine ⟨hfollowed, fun i hi => ?_⟩
    cases i with
    | zero => exact absurd (hfirst.mp hi) Bool.false_ne_true
    | succ i => exact ⟨i, rfl, hpreceded i hi⟩

instance : DecidablePred OnlyCrlf := fun _ => decidable_of_iff _ onlyCrlf_iff_foldlM.symm

/-! ### The line break of a text -/

theorem lineBreak_of_crlf (a b : List Char) : lineBreak (a ++ '\r' :: '\n' :: b) = .crlf := by
  induction a with
  | nil => rfl
  | cons c rest ih =>
    rw [List.cons_append]
    unfold lineBreak
    split
    · rfl
    · rename_i hcons
      obtain ⟨-, rfl⟩ := List.cons.inj hcons
      exact ih
    · contradiction

theorem lineBreak_of_no_return (h : '\r' ∉ text) : lineBreak text = .lf := by
  fun_induction lineBreak text with
  | case1 rest => simp at h
  | case2 c rest _ ih => exact ih fun hmem => h (List.mem_cons_of_mem _ hmem)
  | case3 => rfl

theorem OnlyCrlf.lineBreak_eq (h : OnlyCrlf text) (hbreak : '\n' ∈ text) : lineBreak text = .crlf := by
  obtain ⟨i, hi⟩ := List.getElem?_of_mem hbreak
  obtain ⟨j, rfl, hj⟩ := h.preceded i hi
  obtain ⟨hlen, hn⟩ := List.getElem?_eq_some_iff.mp hi
  obtain ⟨hlen', hreturn⟩ := List.getElem?_eq_some_iff.mp hj
  have hsplit : text = text.take j ++ '\r' :: '\n' :: text.drop (j + 2) := by
    rw [← hn, ← hreturn, ← List.drop_eq_getElem_cons, ← List.drop_eq_getElem_cons, List.take_append_drop]
  rw [hsplit]
  exact lineBreak_of_crlf ..

/-! ### Written line breaks -/

theorem withBreaks_cons (mark : LineBreak) (c : Char) (rest : List Char) :
    withBreaks mark (c :: rest) = (if c == '\n' then mark.chars else [c]) ++ withBreaks mark rest := rfl

theorem withBreaks_lf (text : List Char) : withBreaks .lf text = text := by
  induction text with
  | nil => rfl
  | cons c rest ih =>
    rw [withBreaks_cons, ih]
    split
    · rename_i hc
      rw [eq_of_beq hc]
      rfl
    · rfl

theorem foldlM_withBreaks_crlf (h : '\r' ∉ text) : (withBreaks .crlf text).foldlM readBreak false = some false := by
  induction text with
  | nil => rfl
  | cons c rest ih =>
    obtain ⟨hc, hrest⟩ := not_or.mp (mt List.mem_cons.mpr h)
    rw [withBreaks_cons, List.foldlM_append]
    split
    · exact ih hrest
    · rename_i hn
      rw [List.foldlM_cons, readBreak_of_plain (by simpa using hn) (Ne.symm hc)]
      exact ih hrest

theorem foldlM_due_withBreaks_crlf (hc : c ≠ '\n') (text : List Char) :
    (withBreaks .crlf text ++ [c]).foldlM readBreak true = none := by
  cases text with
  | nil => rw [withBreaks, List.flatMap_nil, List.nil_append, List.foldlM_cons, readBreak_true_of_ne hc]; rfl
  | cons first rest =>
    rw [withBreaks_cons]
    split
    · rfl
    · rename_i hn
      rw [List.append_assoc, List.singleton_append, List.foldlM_cons, readBreak_true_of_ne (by simpa using hn)]
      rfl

/-- A `\r` that is not part of a line break stays on its own. -/
theorem foldlM_withBreaks_crlf_of_mem (hc : c ≠ '\n') (h : '\r' ∈ text) :
    (withBreaks .crlf text ++ [c]).foldlM readBreak due = none := by
  induction text generalizing due with
  | nil => cases h
  | cons first rest ih =>
    cases due with
    | true => exact foldlM_due_withBreaks_crlf hc _
    | false =>
      rw [withBreaks_cons, List.append_assoc, List.foldlM_append]
      split
      · rename_i hn
        have hmem : '\r' ∈ rest := by
          rw [eq_of_beq hn] at h
          simpa using h
        exact ih hmem
      · rename_i hn
        rw [List.foldlM_cons]
        by_cases hr : first = '\r'
        · subst hr
          exact foldlM_due_withBreaks_crlf hc rest
        · rw [readBreak_of_plain (by simpa using hn) hr]
          exact ih ((List.mem_cons.mp h).resolve_left (Ne.symm hr))

/-! ### Around a gap and before blanks -/

/-- What is left when blanks are taken from the end does not end with a blank. -/
theorem isBlank_of_mem_getLast?_trimEnd (hc : c ∈ (trimEnd text).getLast?) : isBlank c = false := by
  have hhead := List.head?_dropWhile_not isBlank text.reverse
  rw [trimEnd, List.getLast?_reverse] at hc
  rw [Option.mem_def.mp hc] at hhead
  simpa using hhead

theorem isVisible_of_length_trimEnd {j : Nat} (hj : j + 1 = (trimEnd text).length) : IsVisible text j := by
  obtain ⟨c, hc⟩ : ∃ c, (trimEnd text)[j]? = some c := ⟨_, List.getElem?_eq_getElem (by omega)⟩
  have hlast : c ∈ (trimEnd text).getLast? := by
    rw [List.getLast?_eq_getElem?, ← hj, Nat.add_sub_cancel]
    exact hc
  refine ⟨c, ?_, isBlank_of_mem_getLast?_trimEnd hlast⟩
  rw [← trimEnd_append_blanks text, List.getElem?_append_left (by omega)]
  exact hc

theorem OnlyCrlf.not_return_before_visible (h : OnlyCrlf text) {j : Nat} (hv : IsVisible text (j + 1)) :
    text[j]? ≠ some '\r' := by
  intro hreturn
  obtain ⟨c, hc, hb⟩ := hv
  obtain rfl : '\n' = c := Option.some.inj ((h.followed j hreturn).symm.trans hc)
  cases hb

/-- A gap that ends before an `\n` is not empty and does not end with an `\r`. -/
theorem gapLength_not_return {rest : List Char} (hbreak : rest[gapLength rest]? = some '\n') :
    0 < gapLength rest ∧ rest[gapLength rest - 1]? ≠ some '\r' := by
  -- After the line break of a gap there are only spaces and tabs.
  have hline (more : List Char) : ('\n' :: more)[(more.takeWhile isIndent).length]? ≠ some '\r' := by
    intro h
    have hsplit : '\n' :: more = '\n' :: more.takeWhile isIndent ++ more.dropWhile isIndent := by simp
    rw [hsplit, List.getElem?_append_left (by simp)] at h
    rcases List.mem_cons.mp (List.mem_of_getElem? h) with hc | hc
    · cases hc
    · exact absurd (List.mem_takeWhile_imp hc) (by decide)
  have hdrop (i : Nat) : rest[(rest.takeWhile isIndent).length + i]? = (rest.drop (rest.takeWhile isIndent).length)[i]? :=
    List.getElem?_drop.symm
  simp only [gapLength] at hbreak ⊢
  split at hbreak
  · rename_i more hmore
    refine ⟨by omega, ?_⟩
    simp only [Nat.add_right_comm _ 1, Nat.add_sub_cancel]
    rw [hdrop, hmore]
    exact hline more
  · rename_i more hmore
    refine ⟨by omega, ?_⟩
    simp only [Nat.add_right_comm _ 2, ← Nat.add_assoc _ 1 1, Nat.add_sub_cancel]
    rw [Nat.add_assoc, hdrop, hmore, List.getElem?_cons_succ]
    exact hline more
  · rename_i hno _
    have hnext := hdrop 0
    rw [Nat.add_zero, hbreak] at hnext
    obtain ⟨more, hmore⟩ := List.head?_eq_some_iff.mp (List.head?_eq_getElem? ▸ hnext.symm)
    exact absurd hmore (hno more)

/-- Where a gap ends, no line break is cut in two. -/
theorem not_return_before_gapEnd {position j : Nat} (hj : j + 1 = gapEnd text position)
    (hbreak : text[j + 1]? = some '\n') : text[j]? ≠ some '\r' := by
  rw [hj, gapEnd, ← List.getElem?_drop] at hbreak
  obtain ⟨hpos, hlast⟩ := gapLength_not_return hbreak
  rwa [List.getElem?_drop, ← Nat.add_sub_assoc hpos, ← gapEnd, ← hj, Nat.add_sub_cancel] at hlast

theorem OnlyCrlf.not_return_before_gapEnd (h : OnlyCrlf text) (position : Nat) {j : Nat}
    (hj : j + 1 = gapEnd text position) : text[j]? ≠ some '\r' :=
  fun hreturn => Text.not_return_before_gapEnd hj (h.followed j hreturn) hreturn

end Recordsmith.Text
