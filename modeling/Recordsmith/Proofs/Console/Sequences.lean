import Mathlib.Data.List.Infix
import Mathlib.Data.List.TakeWhile
import Recordsmith.Console.Sequence

/-!
Which texts are printed as they are: exactly those that hold no escape sequence.
-/

namespace Recordsmith.Console

variable {text : List Char}

/-- An escape sequence: its opening, its parameters and a letter. -/
def IsSequence (sequence : List Char) : Prop :=
  ∃ parameters letter, sequence = '\x1b' :: '[' :: parameters ++ [letter] ∧ (∀ c ∈ parameters, isParameter c = true) ∧
    letter.isAlpha = true

/-- A text in which an escape sequence stands somewhere. -/
def HasSequence (text : List Char) : Prop := ∃ sequence, IsSequence sequence ∧ sequence <:+: text

theorem isParameter_of_isAlpha {c : Char} (h : c.isAlpha = true) : isParameter c = false := by
  have hranges : c.isAlpha = (decide ('A'.val ≤ c.val ∧ c.val ≤ 'Z'.val) ||
      decide ('a'.val ≤ c.val) && decide (c.val ≤ 'z'.val)) := rfl
  simp only [hranges, Bool.or_eq_true, Bool.and_eq_true, decide_eq_true_eq] at h
  simp only [isParameter, Char.isDigit, Bool.or_eq_false_iff, Bool.and_eq_false_iff, decide_eq_false_iff_not,
    beq_eq_false_iff_ne]
  refine ⟨⟨?_, ?_⟩, ?_⟩
  · rcases h with ⟨hlow, -⟩ | ⟨hlow, -⟩
    · exact Or.inr fun hdigit => absurd (UInt32.le_trans hlow hdigit) (by decide)
    · exact Or.inr fun hdigit => absurd (UInt32.le_trans hlow hdigit) (by decide)
  · rintro rfl
    revert h
    decide
  · rintro rfl
    revert h
    decide

theorem sequenceLength?_isSome_iff :
    (sequenceLength? text).isSome = true ↔ ∃ sequence, IsSequence sequence ∧ sequence <+: text := by
  constructor
  · intro h
    unfold sequenceLength? at h
    split at h
    · rename_i rest
      dsimp only at h
      split at h
      · rename_i c more hdrop
        split at h
        · rename_i hletter
          refine ⟨'\x1b' :: '[' :: rest.takeWhile isParameter ++ [c], ⟨_, c, rfl, ?_, hletter⟩, more, ?_⟩
          · exact fun d hd => List.mem_takeWhile_imp hd
          · have hsplit := List.take_append_drop (rest.takeWhile isParameter).length rest
            rw [hdrop, ← List.prefix_iff_eq_take.mp (List.takeWhile_prefix isParameter)] at hsplit
            simp [hsplit]
        · cases h
      · cases h
    · cases h
  · rintro ⟨_, ⟨parameters, letter, rfl, hparameters, hletter⟩, more, rfl⟩
    have htake : (parameters ++ letter :: more).takeWhile isParameter = parameters := by
      rw [List.takeWhile_append_of_pos hparameters, List.takeWhile_cons_of_neg]
      · exact List.append_nil _
      · rw [isParameter_of_isAlpha hletter]
        exact Bool.false_ne_true
    simp [sequenceLength?, htake, hletter]

theorem length_withoutSequencesAfter_le (skip : Nat) (text : List Char) :
    (withoutSequencesAfter skip text).length ≤ text.length := by
  fun_induction withoutSequencesAfter skip text with
  | case1 => exact Nat.le_refl 0
  | case2 skip c rest ih => exact Nat.le_succ_of_le ih
  | case3 c rest length hlength ih => exact Nat.le_succ_of_le ih
  | case4 c rest hnone ih => exact Nat.succ_le_succ ih

/-- A text is left as it is exactly if no escape sequence stands in it. -/
theorem withoutSequences_eq_self_iff : withoutSequences text = text ↔ ¬HasSequence text := by
  induction text with
  | nil =>
    refine ⟨fun _ => ?_, fun _ => rfl⟩
    rintro ⟨_, ⟨parameters, letter, rfl, -⟩, hinfix⟩
    cases List.eq_nil_of_infix_nil hinfix
  | cons c rest ih =>
    have hcons : HasSequence (c :: rest) ↔ (sequenceLength? (c :: rest)).isSome = true ∨ HasSequence rest := by
      rw [sequenceLength?_isSome_iff]
      constructor
      · rintro ⟨sequence, hsequence, hinfix⟩
        rcases List.infix_cons_iff.mp hinfix with hprefix | hinfix
        · exact Or.inl ⟨sequence, hsequence, hprefix⟩
        · exact Or.inr ⟨sequence, hsequence, hinfix⟩
      · rintro (⟨sequence, hsequence, hprefix⟩ | ⟨sequence, hsequence, hinfix⟩)
        · exact ⟨sequence, hsequence, hprefix.isInfix⟩
        · exact ⟨sequence, hsequence, List.infix_cons_iff.mpr (Or.inr hinfix)⟩
    rw [hcons, not_or, ← ih, withoutSequences, withoutSequencesAfter]
    cases hfound : sequenceLength? (c :: rest) with
    | some length =>
      -- A sequence that is left out makes the text shorter.
      have hshort := length_withoutSequencesAfter_le (length - 1) rest
      refine ⟨fun h => ?_, fun h => absurd rfl h.1⟩
      have hlength : (withoutSequencesAfter (length - 1) rest).length = rest.length + 1 := congrArg List.length h
      omega
    | none => simp [withoutSequences]

end Recordsmith.Console
