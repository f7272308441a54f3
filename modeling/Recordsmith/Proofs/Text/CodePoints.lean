import Mathlib.Data.List.TakeWhile
import Recordsmith.Text.CodePoint

/-!
Which code points have bytes: those of texts without surrogates, whose bytes are those of the text. A text that was made
twice has a surrogate only where the two differ and there is one to put there.
-/

namespace Recordsmith.Text.CodePoint

variable {all next : List Nat} {text twin : List Char} {points : List CodePoint} {bytes : List UInt8}

/-! ### Characters -/

@[simp] theorem surrogates_ofChars (text : List Char) : surrogates (ofChars text) = [] := by
  induction text with
  | nil => rfl
  | cons c rest ih => exact ih

@[simp] theorem withStandIn_ofChars (standIn : Char) (text : List Char) :
    withStandIn standIn (ofChars text) = String.ofList text := by
  simp [withStandIn, ofChars, Function.comp_def]

theorem mapBetween_ofChars (f : List Char → List Char) (since text : List Char) :
    mapBetween f since (ofChars text) = ofChars (f (since ++ text)) := by
  induction text generalizing since with
  | nil => simp [ofChars, mapBetween]
  | cons c rest ih =>
    have hrest : mapBetween f since (ofChars (c :: rest)) = mapBetween f (since ++ [c]) (ofChars rest) := rfl
    rw [hrest, ih, List.append_assoc]
    rfl

/-! ### Encoding -/

theorem encodeError?_char (hasByte : Nat → Bool) (c : Char) (rest : List CodePoint) :
    encodeError? hasByte (.char c :: rest) =
      (encodeError? hasByte rest).map fun e => { e with position := e.position + 1 } := by
  have hbefore : (CodePoint.char c :: rest).takeWhile (fun p => p.surrogate?.all hasByte) =
      .char c :: rest.takeWhile (fun p => p.surrogate?.all hasByte) := rfl
  simp only [encodeError?, hbefore, List.length_cons, List.drop_succ_cons]
  split <;> rfl

theorem encodeError?_eq_none_iff : encodeError? (fun _ => false) points = none ↔ surrogates points = [] := by
  induction points with
  | nil => exact iff_of_true rfl rfl
  | cons p rest ih =>
    cases p with
    | char c => rw [encodeError?_char, Option.map_eq_none_iff, ih, surrogates, surrogates, List.filterMap_cons_none rfl]
    | surrogate n =>
      refine iff_of_false ?_ (List.cons_ne_nil n (surrogates rest))
      simp [encodeError?, surrogate?, surrogates]

theorem encode_ofChars (text : List Char) : encode (ofChars text) = .ok (Utf8.encode text) := by
  simp [encode, encodeError?_eq_none_iff.mpr (surrogates_ofChars text)]

theorem surrogates_of_encode (h : encode points = .ok bytes) : surrogates points = [] := by
  unfold encode at h
  split at h
  · cases h
  · rename_i hnone
    exact encodeError?_eq_none_iff.mp hnone

/-! ### Twins -/

/-- Where no surrogate has come in, the code points are those of the text. -/
theorem ofTwins_of_surrogates_eq_nil (h : surrogates (ofTwins all next text twin) = []) :
    ofTwins all next text twin = ofChars text := by
  fun_induction ofTwins all next text twin with
  | case1 next text d twin ih => exact congrArg (CodePoint.char d :: ·) (ih h)
  | case2 next c text d twin hne n more hnext ih => cases h
  | case3 next c text d twin hne hnext ih => exact congrArg (CodePoint.char c :: ·) (ih h)
  | case4 => rfl

theorem ofTwins_self (all next : List Nat) (text : List Char) : ofTwins all next text text = ofChars text := by
  induction text with
  | nil => rfl
  | cons c rest ih => simp [ofTwins, ih, ofChars]

/-- Without any surrogate to put there, none comes in. -/
theorem ofTwins_nil (text twin : List Char) : ofTwins [] [] text twin = ofChars text := by
  induction text generalizing twin with
  | nil => cases twin <;> rfl
  | cons c rest ih =>
    cases twin with
    | nil => rfl
    | cons d twin =>
      have hstep : ofTwins [] [] (c :: rest) (d :: twin) = .char c :: ofTwins [] [] rest twin := by
        simp [ofTwins]
      rw [hstep, ih]
      rfl

end Recordsmith.Text.CodePoint
