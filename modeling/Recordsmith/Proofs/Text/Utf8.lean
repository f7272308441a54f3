import Mathlib.Data.List.Basic
import Recordsmith.Text.Utf8

/-!
UTF-8 read back: the bytes of a text are read as exactly its characters. Byte offsets that fall between characters
(`IsBoundary`) are therefore carried to character offsets in their order, and the bytes between two of them are the
characters between their offsets.
-/

namespace Recordsmith.Text.Utf8

/-! ### One byte -/

theorem pieces_none_inl {byte : UInt8} {piece : Piece} (rest : List UInt8) (h : opening byte.toNat = .inl piece) :
    pieces none (byte :: rest) = piece :: pieces none rest := by
  rw [pieces]
  simp [h]

theorem pieces_none_inr {byte : UInt8} {p : Pending} (rest : List UInt8) (h : opening byte.toNat = .inr p) :
    pieces none (byte :: rest) = pieces (some p) rest := by
  rw [pieces]
  simp [h]

theorem pieces_some_last {byte : UInt8} {p : Pending} (rest : List UInt8) (h : p.accepts byte.toNat = true)
    (ho : p.owed = 1) : pieces (some p) (byte :: rest) = .char (Char.ofNat (p.push byte.toNat).value) :: pieces none rest := by
  rw [pieces]
  simp [Option.filter, h, ho]

theorem pieces_some_more {byte : UInt8} {p : Pending} (rest : List UInt8) (h : p.accepts byte.toNat = true)
    (ho : p.owed ≠ 1) : pieces (some p) (byte :: rest) = pieces (some (p.push byte.toNat)) rest := by
  rw [pieces]
  simp [Option.filter, h, ho]

/-- A byte that continues a sequence when nothing more is known about it. -/
def IsTail (byte : UInt8) : Prop := 0x80 ≤ byte.toNat ∧ byte.toNat ≤ 0xBF

theorem accepts_iff {p : Pending} {n : Nat} : p.accepts n = true ↔ p.low ≤ n ∧ n ≤ p.high := by
  simp [Pending.accepts]

theorem IsTail.accepts {byte : UInt8} (h : IsTail byte) {p : Pending} (hlow : p.low = 0x80) (hhigh : p.high = 0xBF) :
    p.accepts byte.toNat = true :=
  accepts_iff.mpr ⟨hlow ▸ h.1, hhigh ▸ h.2⟩

theorem pieces_two {a b : UInt8} (rest : List UInt8) (ha : 0xC2 ≤ a.toNat ∧ a.toNat < 0xE0) (hb : IsTail b) :
    pieces none (a :: b :: rest) = .char (Char.ofNat ((a.toNat - 0xC0) * 64 + (b.toNat - 0x80))) :: pieces none rest := by
  have ho : opening a.toNat = .inr ⟨a.toNat - 0xC0, 1, 0x80, 0xBF, 1⟩ := by
    rw [opening, if_neg (by omega), if_neg (by omega), if_pos ha.2]
  rw [pieces_none_inr _ ho, pieces_some_last]
  · rfl
  · exact hb.accepts rfl rfl
  · rfl

theorem pieces_three {a b c : UInt8} (rest : List UInt8) (ha : 0xE0 ≤ a.toNat ∧ a.toNat < 0xF0) (hb : IsTail b)
    (hlow : a.toNat = 0xE0 → 0xA0 ≤ b.toNat) (hhigh : a.toNat = 0xED → b.toNat ≤ 0x9F) (hc : IsTail c) :
    pieces none (a :: b :: c :: rest) =
      .char (Char.ofNat (((a.toNat - 0xE0) * 64 + (b.toNat - 0x80)) * 64 + (c.toNat - 0x80))) :: pieces none rest := by
  have ho : opening a.toNat =
      .inr ⟨a.toNat - 0xE0, 2, if a.toNat == 0xE0 then 0xA0 else 0x80, if a.toNat == 0xED then 0x9F else 0xBF, 1⟩ := by
    rw [opening, if_neg (by omega), if_neg (by omega), if_neg (by omega), if_pos ha.2]
  have hacc : (if a.toNat == 0xE0 then 0xA0 else 0x80) ≤ b.toNat ∧
      b.toNat ≤ if a.toNat == 0xED then 0x9F else 0xBF := by
    obtain ⟨hb1, hb2⟩ := hb
    simp only [beq_iff_eq]
    constructor <;> split <;> omega
  rw [pieces_none_inr _ ho, pieces_some_more _ (accepts_iff.mpr hacc) (by simp), pieces_some_last]
  · rfl
  · exact hc.accepts rfl rfl
  · rfl

theorem pieces_four {a b c d : UInt8} (rest : List UInt8) (ha : 0xF0 ≤ a.toNat ∧ a.toNat < 0xF5) (hb : IsTail b)
    (hlow : a.toNat = 0xF0 → 0x90 ≤ b.toNat) (hhigh : a.toNat = 0xF4 → b.toNat ≤ 0x8F) (hc : IsTail c) (hd : IsTail d) :
    pieces none (a :: b :: c :: d :: rest) =
      .char (Char.ofNat ((((a.toNat - 0xF0) * 64 + (b.toNat - 0x80)) * 64 + (c.toNat - 0x80)) * 64 + (d.toNat - 0x80))) ::
        pieces none rest := by
  have ho : opening a.toNat =
      .inr ⟨a.toNat - 0xF0, 3, if a.toNat == 0xF0 then 0x90 else 0x80, if a.toNat == 0xF4 then 0x8F else 0xBF, 1⟩ := by
    rw [opening, if_neg (by omega), if_neg (by omega), if_neg (by omega), if_neg (by omega), if_pos ha.2]
  have hacc : (if a.toNat == 0xF0 then 0x90 else 0x80) ≤ b.toNat ∧
      b.toNat ≤ if a.toNat == 0xF4 then 0x8F else 0xBF := by
    obtain ⟨hb1, hb2⟩ := hb
    simp only [beq_iff_eq]
    constructor <;> split <;> omega
  rw [pieces_none_inr _ ho, pieces_some_more _ (accepts_iff.mpr hacc) (by simp), pieces_some_more, pieces_some_last]
  · rfl
  · exact hd.accepts rfl rfl
  · rfl
  · exact hc.accepts rfl rfl
  · show (2 : Nat) ≠ 1
    decide

/-! ### One character -/

theorem toNat_ofNat_of_lt {n : Nat} (h : n < 256) : (UInt8.ofNat n).toNat = n := by
  rw [UInt8.toNat_ofNat']
  exact Nat.mod_eq_of_lt h

theorem toNat_valid (c : Char) : c.val.toNat < 0xD800 ∨ 0xDFFF < c.val.toNat ∧ c.val.toNat < 0x110000 := c.valid

theorem isTail_ofNat (n : Nat) : IsTail (UInt8.ofNat (n % 64 + 128)) := by
  unfold IsTail
  rw [toNat_ofNat_of_lt (by omega)]
  omega

/-- The bytes of a character are read as this character, and reading goes on after them. -/
theorem pieces_utf8EncodeChar_append (c : Char) (rest : List UInt8) :
    pieces none (String.utf8EncodeChar c ++ rest) = .char c :: pieces none rest := by
  have hv := toNat_valid c
  have hc : Char.ofNat c.val.toNat = c := Char.ofNat_toNat c
  generalize hn : c.val.toNat = v at hv hc
  -- Each branch names its bytes as numbers; what is left is that they give back the code point.
  have hlast : (UInt8.ofNat (v % 64 + 128)).toNat = v % 64 + 128 := toNat_ofNat_of_lt (by omega)
  have hsecond : (UInt8.ofNat (v / 64 % 64 + 128)).toNat = v / 64 % 64 + 128 := toNat_ofNat_of_lt (by omega)
  have hthird : (UInt8.ofNat (v / 4096 % 64 + 128)).toNat = v / 4096 % 64 + 128 := toNat_ofNat_of_lt (by omega)
  unfold String.utf8EncodeChar
  simp only [hn]
  split
  · have ho : opening (UInt8.ofNat v).toNat = .inl (.char c) := by
      rw [toNat_ofNat_of_lt (by omega), opening, if_pos (by omega), hc]
    exact pieces_none_inl rest ho
  split
  · have ha : (UInt8.ofNat (v / 64 % 32 + 192)).toNat = v / 64 % 32 + 192 := toNat_ofNat_of_lt (by omega)
    have hvalue : (v / 64 % 32 + 192 - 0xC0) * 64 + (v % 64 + 128 - 0x80) = v := by omega
    rw [List.cons_append, List.cons_append, List.nil_append, pieces_two _ (by rw [ha]; omega) (isTail_ofNat v), ha, hlast,
      hvalue, hc]
  split
  · have ha : (UInt8.ofNat (v / 4096 % 16 + 224)).toNat = v / 4096 % 16 + 224 := toNat_ofNat_of_lt (by omega)
    have hvalue : ((v / 4096 % 16 + 224 - 0xE0) * 64 + (v / 64 % 64 + 128 - 0x80)) * 64 + (v % 64 + 128 - 0x80) = v := by
      omega
    rw [List.cons_append, List.cons_append, List.cons_append, List.nil_append,
      pieces_three _ (by rw [ha]; omega) (isTail_ofNat (v / 64)) (by rw [ha, hsecond]; omega)
        (by rw [ha, hsecond]; omega) (isTail_ofNat v), ha, hsecond, hlast, hvalue, hc]
  · have ha : (UInt8.ofNat (v / 262144 % 8 + 240)).toNat = v / 262144 % 8 + 240 := toNat_ofNat_of_lt (by omega)
    have hvalue : (((v / 262144 % 8 + 240 - 0xF0) * 64 + (v / 4096 % 64 + 128 - 0x80)) * 64 +
        (v / 64 % 64 + 128 - 0x80)) * 64 + (v % 64 + 128 - 0x80) = v := by omega
    rw [List.cons_append, List.cons_append, List.cons_append, List.cons_append, List.nil_append,
      pieces_four _ (by rw [ha]; omega) (isTail_ofNat (v / 4096)) (by rw [ha, hthird]; omega)
        (by rw [ha, hthird]; omega) (isTail_ofNat (v / 64)) (isTail_ofNat v), ha, hthird, hsecond, hlast, hvalue, hc]

/-! ### Texts -/

theorem encode_cons (c : Char) (text : List Char) : encode (c :: text) = String.utf8EncodeChar c ++ encode text := rfl

theorem encode_append (a b : List Char) : encode (a ++ b) = encode a ++ encode b := List.flatMap_append

theorem pieces_encode (text : List Char) : pieces none (encode text) = text.map .char := by
  induction text with
  | nil => rfl
  | cons c rest ih => rw [encode_cons, pieces_utf8EncodeChar_append, ih, List.map_cons]

theorem characters_chars (bytes : List UInt8) (position : Nat) (text : List Char) :
    characters bytes position (text.map .char) = .ok text := by
  induction text generalizing bytes position with
  | nil => rfl
  | cons c rest ih => simp only [List.map_cons, characters, ih]

theorem decode_encode (text : List Char) : decode (encode text) = .ok text := by
  unfold decode
  rw [pieces_encode]
  exact characters_chars ..

theorem length_le_length_encode (text : List Char) : text.length ≤ (encode text).length := by
  induction text with
  | nil => exact Nat.le_refl 0
  | cons c rest ih =>
    have hc : 0 < (String.utf8EncodeChar c).length := by
      rw [String.length_utf8EncodeChar]
      exact c.utf8Size_pos
    rw [encode_cons, List.length_append, List.length_cons]
    omega

/-! ### Boundaries -/

/-- Where the character at an offset starts among the bytes. -/
def byteOffset (text : List Char) (offset : Nat) : Nat := (encode (text.take offset)).length

/-- A byte offset at which a character of the text starts or the text ends. -/
def IsBoundary (text : List Char) (i : Nat) : Prop := ∃ k ≤ text.length, byteOffset text k = i

section Boundaries
variable {text : List Char} {i j k : Nat}

theorem byteOffset_add_length (h : j ≤ k) :
    byteOffset text k = byteOffset text j + (encode ((text.drop j).take (k - j))).length := by
  unfold byteOffset
  rw [← List.length_append, ← encode_append]
  obtain ⟨n, rfl⟩ := Nat.exists_eq_add_of_le h
  rw [Nat.add_sub_cancel_left, List.take_add]

theorem byteOffset_lt (h : j < k) (hk : k ≤ text.length) : byteOffset text j < byteOffset text k := by
  have hlen := length_le_length_encode ((text.drop j).take (k - j))
  rw [List.length_take, List.length_drop] at hlen
  rw [byteOffset_add_length (Nat.le_of_lt h)]
  omega

/-- The character offset of a boundary is the number of characters before it. -/
theorem charOffset_byteOffset (hk : k ≤ text.length) : charOffset text (byteOffset text k) = k := by
  have hsplit : encode text = encode (text.take k) ++ encode (text.drop k) := by
    rw [← encode_append, List.take_append_drop]
  simp only [charOffset]
  split
  · -- In a text of single bytes no part can take more bytes than it has characters.
    rename_i hsingle
    have h1 := length_le_length_encode (text.take k)
    have h2 := length_le_length_encode (text.drop k)
    rw [hsplit, List.length_append] at hsingle
    rw [List.length_take_of_le hk] at h1
    rw [List.length_drop] at h2
    unfold byteOffset
    omega
  · rw [hsplit, byteOffset, List.take_left, lossyLength, pieces_encode, List.length_map, List.length_take_of_le hk]

theorem IsBoundary.byteOffset_charOffset (h : IsBoundary text i) : byteOffset text (charOffset text i) = i := by
  obtain ⟨k, hk, rfl⟩ := h
  rw [charOffset_byteOffset hk]

theorem IsBoundary.charOffset_le_length (h : IsBoundary text i) : charOffset text i ≤ text.length := by
  obtain ⟨k, hk, rfl⟩ := h
  rwa [charOffset_byteOffset hk]

instance : Decidable (IsBoundary text i) :=
  decidable_of_iff (charOffset text i ≤ text.length ∧ byteOffset text (charOffset text i) = i)
    ⟨fun ⟨hle, heq⟩ => ⟨_, hle, heq⟩, fun h => ⟨h.charOffset_le_length, h.byteOffset_charOffset⟩⟩

theorem IsBoundary.charOffset_lt_iff (hi : IsBoundary text i) (hj : IsBoundary text j) :
    charOffset text i < charOffset text j ↔ i < j := by
  have hlt : ∀ {m n : Nat}, IsBoundary text m → IsBoundary text n → charOffset text m < charOffset text n → m < n := by
    intro m n hm hn h
    rw [← hm.byteOffset_charOffset, ← hn.byteOffset_charOffset]
    exact byteOffset_lt h hn.charOffset_le_length
  refine ⟨hlt hi hj, fun h => Nat.lt_of_not_le fun hle => ?_⟩
  rcases Nat.lt_or_eq_of_le hle with hgt | heq
  · exact Nat.lt_asymm h (hlt hj hi hgt)
  · rw [← hi.byteOffset_charOffset, ← hj.byteOffset_charOffset, heq] at h
    exact Nat.lt_irrefl _ h

theorem IsBoundary.charOffset_le_iff (hi : IsBoundary text i) (hj : IsBoundary text j) :
    charOffset text i ≤ charOffset text j ↔ i ≤ j := by
  rw [← Nat.not_lt, ← Nat.not_lt, hj.charOffset_lt_iff hi]

/-- The bytes between two boundaries read as the characters between their offsets. -/
theorem IsBoundary.decode_between (hi : IsBoundary text i) (hj : IsBoundary text j) (hij : i ≤ j) :
    decode (((encode text).drop i).take (j - i)) =
      .ok ((text.drop (charOffset text i)).take (charOffset text j - charOffset text i)) := by
  have hle := (hi.charOffset_le_iff hj).mpr hij
  have hsize : byteOffset text (charOffset text j) = byteOffset text (charOffset text i) +
      (encode ((text.drop (charOffset text i)).take (charOffset text j - charOffset text i))).length :=
    byteOffset_add_length hle
  rw [hi.byteOffset_charOffset, hj.byteOffset_charOffset] at hsize
  have hhead : encode text = encode (text.take (charOffset text i)) ++ encode (text.drop (charOffset text i)) := by
    rw [← encode_append, List.take_append_drop]
  have hdrop : (encode text).drop i = encode (text.drop (charOffset text i)) := by
    rw [hhead]
    exact List.drop_left' hi.byteOffset_charOffset
  have htail : encode (text.drop (charOffset text i)) =
      encode ((text.drop (charOffset text i)).take (charOffset text j - charOffset text i)) ++
        encode ((text.drop (charOffset text i)).drop (charOffset text j - charOffset text i)) := by
    rw [← encode_append, List.take_append_drop]
  rw [hdrop, htail, List.take_left' (by omega), decode_encode]

end Boundaries

end Recordsmith.Text.Utf8
