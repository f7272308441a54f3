import Mathlib.Data.List.Basic
import Recordsmith.Proofs.Text.Decoding
import Recordsmith.Tree.Node

/-!
Byte offsets and character offsets. A byte offset stands for the number of characters that start before it, also when it
falls inside a character: the bytes of that character up to the offset are one faulty run and count once. A text of
single bytes needs no decoding for it, and is told by its length alone. Main statement: offsets are carried over in their
order, and the text of a node is the part of the source between the offsets of its ends.
-/

namespace Recordsmith.Text.Utf8

variable {text : List Char} {bytes : List UInt8} {i j k : Nat}

/-- How many characters of a text have their first byte before a byte offset. -/
def startedBefore (text : List Char) (i : Nat) : Nat := (List.range text.length).countP (byteOffset text · < i)

/-! ### Characters that have started -/

theorem byteOffset_cons_succ (c : Char) (rest : List Char) (k : Nat) :
    byteOffset (c :: rest) (k + 1) = (String.utf8EncodeChar c).length + byteOffset rest k := by
  rw [byteOffset, List.take_succ_cons, encode_cons, List.length_append]
  rfl

theorem startedBefore_cons (c : Char) (rest : List Char) (i : Nat) :
    startedBefore (c :: rest) i = startedBefore rest (i - (String.utf8EncodeChar c).length) + if 0 < i then 1 else 0 := by
  have hfirst : byteOffset (c :: rest) 0 = 0 := rfl
  have hrest : (byteOffset (c :: rest) · < i : Nat → Bool) ∘ Nat.succ =
      (byteOffset rest · < i - (String.utf8EncodeChar c).length) := by
    funext k
    simp only [Function.comp_apply, Nat.succ_eq_add_one, byteOffset_cons_succ, decide_eq_decide]
    omega
  rw [startedBefore, List.length_cons, List.range_succ_eq_map, List.countP_cons, List.countP_map, hrest, hfirst]
  simp only [decide_eq_true_eq, startedBefore]

theorem startedBefore_mono (h : i ≤ j) : startedBefore text i ≤ startedBefore text j := by
  refine List.countP_mono_left fun k _ hk => ?_
  rw [decide_eq_true_eq] at hk ⊢
  omega

/-- At its end all characters of a text have started. -/
theorem startedBefore_length (text : List Char) : startedBefore text (encode text).length = text.length := by
  have hall : ∀ k ∈ List.range text.length, decide (byteOffset text k < (encode text).length) = true := by
    intro k hk
    rw [decide_eq_true_eq]
    have hlt := byteOffset_lt (List.mem_range.mp hk) (Nat.le_refl text.length)
    rwa [byteOffset, byteOffset, List.take_length] at hlt
  rw [startedBefore, List.countP_eq_length.mpr hall, List.length_range]

/-! ### Cut characters -/

theorem pieces_some_ne_nil (p : Pending) (bytes : List UInt8) : pieces (some p) bytes ≠ [] := by
  induction bytes generalizing p with
  | nil => simp [pieces]
  | cons byte rest ih =>
    intro h
    have hnone : pieces (some p) (byte :: rest) = ([] : List Char).map .char := h
    obtain ⟨byte, rest, hbytes, -, -, hrest⟩ := pieces_some_eq_chars hnone
    obtain ⟨rfl, rfl⟩ := List.cons.inj hbytes
    split at hrest
    · obtain ⟨more, hmore, -⟩ := hrest
      cases hmore
    · exact ih _ hrest

theorem eq_nil_of_pieces_none (h : pieces none bytes = []) : bytes = [] := by
  cases bytes with
  | nil => rfl
  | cons byte rest =>
    cases ho : opening byte.toNat with
    | inl piece =>
      rw [pieces_none_inl rest ho] at h
      cases h
    | inr p =>
      rw [pieces_none_inr rest ho] at h
      exact absurd h (pieces_some_ne_nil p rest)

/-- A pending sequence that is cut off before it becomes a character is one faulty run. -/
theorem length_pieces_take_some {p : Pending} {c : Char} (h : pieces (some p) bytes = [.char c])
    (hi : i < bytes.length) : (pieces (some p) (bytes.take i)).length = 1 := by
  induction bytes generalizing p i with
  | nil => cases hi
  | cons byte rest ih =>
    cases i with
    | zero => rfl
    | succ i =>
      have hsingle : pieces (some p) (byte :: rest) = [c].map .char := h
      obtain ⟨byte, rest, hbytes, hlow, hhigh, hrest⟩ := pieces_some_eq_chars hsingle
      obtain ⟨rfl, rfl⟩ := List.cons.inj hbytes
      have hlt : i < rest.length := Nat.lt_of_succ_lt_succ hi
      split at hrest
      · -- The last byte that is owed ends the sequence, so nothing can be cut off behind it.
        obtain ⟨more, hmore, hnone⟩ := hrest
        rw [← (List.cons.inj hmore).2] at hnone
        rw [eq_nil_of_pieces_none hnone] at hlt
        cases hlt
      · rename_i howed
        rw [List.take_succ_cons, pieces_some_more _ (accepts_iff.mpr ⟨hlow, hhigh⟩) howed]
        exact ih hrest hlt

theorem length_pieces_take_utf8EncodeChar {c : Char} (hpos : 0 < i) (hi : i < (String.utf8EncodeChar c).length) :
    (pieces none ((String.utf8EncodeChar c).take i)).length = 1 := by
  have hread : pieces none (String.utf8EncodeChar c) = [.char c] := by
    have hchar := pieces_utf8EncodeChar_append c []
    rwa [List.append_nil] at hchar
  obtain ⟨i, rfl⟩ := Nat.exists_eq_succ_of_ne_zero (Nat.pos_iff_ne_zero.mp hpos)
  generalize String.utf8EncodeChar c = bytes at hread hi
  cases bytes with
  | nil => cases hi
  | cons byte rest =>
    have hlt : i < rest.length := Nat.lt_of_succ_lt_succ hi
    rw [List.take_succ_cons]
    cases ho : opening byte.toNat with
    | inl piece =>
      rw [pieces_none_inl rest ho] at hread
      rw [eq_nil_of_pieces_none (List.cons.inj hread).2] at hlt
      cases hlt
    | inr p =>
      rw [pieces_none_inr rest ho] at hread
      rw [pieces_none_inr _ ho]
      exact length_pieces_take_some hread hlt

/-- The first bytes of a text read as the characters that have started among them. -/
theorem lossyLength_take_encode (text : List Char) (i : Nat) :
    lossyLength ((encode text).take i) = startedBefore text i := by
  unfold lossyLength
  induction text generalizing i with
  | nil => rw [show encode [] = [] from rfl, List.take_nil]; rfl
  | cons c rest ih =>
    rw [encode_cons, startedBefore_cons]
    rcases Nat.eq_zero_or_pos i with rfl | hpos
    · have hrest := ih 0
      rw [List.take_zero] at hrest ⊢
      rw [Nat.zero_sub, ← hrest]
      rfl
    rw [if_pos hpos]
    rcases Nat.lt_or_ge i (String.utf8EncodeChar c).length with hcut | hwhole
    · have hrest := ih 0
      rw [List.take_zero] at hrest
      rw [List.take_append_of_le_length (Nat.le_of_lt hcut), length_pieces_take_utf8EncodeChar hpos hcut,
        Nat.sub_eq_zero_of_le (Nat.le_of_lt hcut), ← hrest]
      rfl
    · rw [List.take_append, List.take_of_length_le hwhole, pieces_utf8EncodeChar_append, List.length_cons, ih]

/-! ### Texts of single bytes -/

theorem byteOffset_of_single (h : (encode text).length = text.length) (hk : k ≤ text.length) : byteOffset text k = k := by
  have hoffset := charOffset_byteOffset hk
  rwa [charOffset, if_pos h] at hoffset

theorem startedBefore_of_single (h : (encode text).length = text.length) (hi : i ≤ text.length) :
    startedBefore text i = i := by
  have hsplit : List.range text.length = List.range i ++ (List.range (text.length - i)).map (i + ·) := by
    rw [← List.range_add, Nat.add_sub_cancel' hi]
  have hbefore : ∀ k ∈ List.range i, decide (byteOffset text k < i) = true := by
    intro k hk
    have hlt := List.mem_range.mp hk
    rw [byteOffset_of_single h (by omega), decide_eq_true hlt]
  have hafter : ∀ k ∈ (List.range (text.length - i)).map (i + ·), ¬decide (byteOffset text k < i) = true := by
    intro k hk
    obtain ⟨n, hn, rfl⟩ := List.mem_map.mp hk
    have hlt := List.mem_range.mp hn
    rw [byteOffset_of_single h (by omega), decide_eq_true_eq]
    omega
  rw [startedBefore, hsplit, List.countP_append, List.countP_eq_length.mpr hbefore, List.countP_eq_zero.mpr hafter,
    List.length_range, Nat.add_zero]

/-- Length tells the texts of single bytes: they are those in which every byte starts a character. -/
theorem single_iff_startedBefore :
    (encode text).length = text.length ↔ ∀ i ≤ (encode text).length, startedBefore text i = i := by
  refine ⟨fun h i hi => startedBefore_of_single h (h ▸ hi), fun h => ?_⟩
  rw [← h _ (Nat.le_refl _), startedBefore_length]

/-! ### Offsets -/

theorem charOffset_eq_startedBefore (hi : i ≤ (encode text).length) : charOffset text i = startedBefore text i := by
  simp only [charOffset]
  split
  · rename_i hsingle
    exact (startedBefore_of_single hsingle (hsingle ▸ hi)).symm
  · exact lossyLength_take_encode text i

theorem charOffset_mono (h : i ≤ j) : charOffset text i ≤ charOffset text j := by
  simp only [charOffset, lossyLength_take_encode]
  split
  · exact h
  · exact startedBefore_mono h

end Recordsmith.Text.Utf8

namespace Recordsmith

open Text.Utf8 (encode decode charOffset lossyLength startedBefore IsBoundary)
open Recordsmith.Tree (Node)

/-- A byte offset is carried to the number of characters that start before it, by decoding the bytes before it as well as
    by keeping it where every byte starts a character. So offsets keep their order, the offset behind a number of
    characters is carried to that number, and the text of a node is the part of the source between the offsets of its ends. -/
theorem offsets_count_characters (source : List Char) :
    (∀ i ≤ (encode source).length, charOffset source i = startedBefore source i) ∧
      (∀ i ≤ (encode source).length, lossyLength ((encode source).take i) = startedBefore source i) ∧
      ((encode source).length = source.length ↔ ∀ i ≤ (encode source).length, startedBefore source i = i) ∧
      (∀ i j, i ≤ j → charOffset source i ≤ charOffset source j) ∧
      (∀ k ≤ source.length, charOffset source (encode (source.take k)).length = k) ∧
      ∀ i j, IsBoundary source i → IsBoundary source j → i ≤ j →
        decode (((encode source).drop i).take (j - i)) =
          .ok ((source.drop (charOffset source i)).take (charOffset source j - charOffset source i)) ∧
        ∀ n : Node, n.start = i → n.stop = j → n.text (encode source) =
          .ok (String.ofList ((source.drop (charOffset source i)).take (charOffset source j - charOffset source i))) := by
  refine ⟨fun i hi => Text.Utf8.charOffset_eq_startedBefore hi, fun i _ => Text.Utf8.lossyLength_take_encode source i,
    Text.Utf8.single_iff_startedBefore, fun i j hij => Text.Utf8.charOffset_mono hij,
    fun k hk => Text.Utf8.charOffset_byteOffset hk, fun i j hi hj hij => ⟨hi.decode_between hj hij, ?_⟩⟩
  rintro n rfl rfl
  rw [Node.text, hi.decode_between hj hij]
  rfl

namespace Sample

/-- One character of each length. -/
def widths : List Char := "aé€😀".toList

end Sample

open Sample in
/-- The offset 8 lies inside the last of four characters, and a node over the two in the middle has them as its text. -/
theorem offsets_count_characters_widths :
    8 ≤ (encode widths).length ∧ charOffset widths 8 = 4 ∧ charOffset widths 3 = 2 ∧
      IsBoundary widths 1 ∧ IsBoundary widths 6 ∧
      (⟨"pattern", 1, 6, true, none, []⟩ : Node).text (encode widths) = .ok "é€" := by
  obtain ⟨hcount, -, -, -, hstart, htext⟩ := offsets_count_characters widths
  have hcut : 8 ≤ (encode widths).length := by decide
  have hfirst : IsBoundary widths 1 := by decide
  have hlast : IsBoundary widths 6 := by decide
  refine ⟨hcut, (hcount 8 hcut).trans (by decide), hstart 2 (by decide), hfirst, hlast, ?_⟩
  exact (htext 1 6 hfirst hlast (by decide)).2 _ rfl rfl

end Recordsmith
