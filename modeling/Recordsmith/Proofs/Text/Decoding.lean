import Recordsmith.Proofs.Text.Utf8

/-!
Bytes that can be read are the bytes of the text that they are read as: UTF-8 has one form for each text, and nothing
else is accepted.
-/

namespace Recordsmith.Text.Utf8

variable {bytes rest : List UInt8} {text : List Char}

/-! ### Bytes of a character -/

theorem toNat_val_ofNat {v : Nat} (h : v < 0xD800 ∨ 0xDFFF < v ∧ v < 0x110000) : (Char.ofNat v).val.toNat = v := by
  have hvalid : v.isValidChar := h
  rw [Char.ofNat, dif_pos hvalid]
  rfl

theorem ofNat_eq_of_toNat (byte : UInt8) {n : Nat} (h : byte.toNat = n) : UInt8.ofNat n = byte := by
  rw [← h, UInt8.ofNat_toNat]

theorem utf8EncodeChar_one {a : UInt8} (ha : a.toNat < 0x80) : String.utf8EncodeChar (Char.ofNat a.toNat) = [a] := by
  unfold String.utf8EncodeChar
  simp only [toNat_val_ofNat (Or.inl (by omega : a.toNat < 0xD800))]
  rw [if_pos (by omega), ofNat_eq_of_toNat a rfl]

theorem utf8EncodeChar_two {a b : UInt8} (ha : 0xC2 ≤ a.toNat ∧ a.toNat < 0xE0) (hb : IsTail b) :
    String.utf8EncodeChar (Char.ofNat ((a.toNat - 0xC0) * 64 + (b.toNat - 0x80))) = [a, b] := by
  obtain ⟨hblow, hbhigh⟩ := hb
  generalize hv : (a.toNat - 0xC0) * 64 + (b.toNat - 0x80) = v
  unfold String.utf8EncodeChar
  simp only [toNat_val_ofNat (Or.inl (by omega : v < 0xD800))]
  rw [if_neg (by omega), if_pos (by omega), ofNat_eq_of_toNat a (by omega), ofNat_eq_of_toNat b (by omega)]

theorem utf8EncodeChar_three {a b c : UInt8} (ha : 0xE0 ≤ a.toNat ∧ a.toNat < 0xF0) (hb : IsTail b)
    (hlow : a.toNat = 0xE0 → 0xA0 ≤ b.toNat) (hhigh : a.toNat = 0xED → b.toNat ≤ 0x9F) (hc : IsTail c) :
    String.utf8EncodeChar (Char.ofNat (((a.toNat - 0xE0) * 64 + (b.toNat - 0x80)) * 64 + (c.toNat - 0x80))) =
      [a, b, c] := by
  obtain ⟨hblow, hbhigh⟩ := hb
  obtain ⟨hclow, hchigh⟩ := hc
  generalize hv : ((a.toNat - 0xE0) * 64 + (b.toNat - 0x80)) * 64 + (c.toNat - 0x80) = v
  have hvalid : v < 0xD800 ∨ 0xDFFF < v ∧ v < 0x110000 := by omega
  unfold String.utf8EncodeChar
  simp only [toNat_val_ofNat hvalid]
  rw [if_neg (by omega), if_neg (by omega), if_pos (by omega), ofNat_eq_of_toNat a (by omega),
    ofNat_eq_of_toNat b (by omega), ofNat_eq_of_toNat c (by omega)]

theorem utf8EncodeChar_four {a b c d : UInt8} (ha : 0xF0 ≤ a.toNat ∧ a.toNat < 0xF5) (hb : IsTail b)
    (hlow : a.toNat = 0xF0 → 0x90 ≤ b.toNat) (hhigh : a.toNat = 0xF4 → b.toNat ≤ 0x8F) (hc : IsTail c) (hd : IsTail d) :
    String.utf8EncodeChar (Char.ofNat
      ((((a.toNat - 0xF0) * 64 + (b.toNat - 0x80)) * 64 + (c.toNat - 0x80)) * 64 + (d.toNat - 0x80))) = [a, b, c, d] := by
  obtain ⟨hblow, hbhigh⟩ := hb
  obtain ⟨hclow, hchigh⟩ := hc
  obtain ⟨hdlow, hdhigh⟩ := hd
  generalize hv : (((a.toNat - 0xF0) * 64 + (b.toNat - 0x80)) * 64 + (c.toNat - 0x80)) * 64 + (d.toNat - 0x80) = v
  have hvalid : v < 0xD800 ∨ 0xDFFF < v ∧ v < 0x110000 := by omega
  unfold String.utf8EncodeChar
  simp only [toNat_val_ofNat hvalid]
  rw [if_neg (by omega), if_neg (by omega), if_neg (by omega), ofNat_eq_of_toNat a (by omega),
    ofNat_eq_of_toNat b (by omega), ofNat_eq_of_toNat c (by omega), ofNat_eq_of_toNat d (by omega)]

/-! ### Reading back -/

/-- A pending sequence that becomes a character goes on with a byte that it accepts. -/
theorem pieces_some_eq_chars {p : Pending} (h : pieces (some p) bytes = text.map .char) :
    ∃ byte rest, bytes = byte :: rest ∧ p.low ≤ byte.toNat ∧ byte.toNat ≤ p.high ∧
      if p.owed = 1 then ∃ more, text = Char.ofNat (p.push byte.toNat).value :: more ∧ pieces none rest = more.map .char
      else pieces (some (p.push byte.toNat)) rest = text.map .char := by
  cases bytes with
  | nil =>
    cases text with
    | nil => simp [pieces] at h
    | cons c more => simp [pieces] at h
  | cons byte rest =>
    by_cases haccepts : p.accepts byte.toNat = true
    · obtain ⟨hlow, hhigh⟩ := accepts_iff.mp haccepts
      refine ⟨byte, rest, rfl, hlow, hhigh, ?_⟩
      split
      · rename_i howed
        rw [pieces_some_last rest haccepts howed] at h
        cases text with
        | nil => cases h
        | cons c more =>
          obtain ⟨hfirst, hmore⟩ := List.cons.inj h
          exact ⟨more, by rw [Piece.char.inj hfirst], hmore⟩
      · rename_i howed
        rwa [pieces_some_more rest haccepts howed] at h
    · -- A byte that does not go on with the sequence shows that it is faulty.
      rw [pieces] at h
      cases text with
      | nil => simp [Option.filter, haccepts, Pending.interrupted] at h
      | cons c more => simp [Option.filter, haccepts, Pending.interrupted] at h

/-- Bytes that start with those of a text's first character, and go on with bytes that read as the rest. -/
def StartsWithChar (bytes : List UInt8) (text : List Char) : Prop :=
  ∃ c more tail, text = c :: more ∧ bytes = String.utf8EncodeChar c ++ tail ∧ pieces none tail = more.map .char

section FirstByte
variable {a : UInt8}

theorem startsWithChar_one (ha : a.toNat < 0x80) (h : pieces none (a :: rest) = text.map .char) :
    StartsWithChar (a :: rest) text := by
  have ho : opening a.toNat = .inl (.char (Char.ofNat a.toNat)) := by rw [opening, if_pos ha]
  rw [pieces_none_inl rest ho] at h
  cases text with
  | nil => cases h
  | cons c more =>
    obtain ⟨hfirst, hmore⟩ := List.cons.inj h
    obtain rfl := Piece.char.inj hfirst
    exact ⟨_, more, rest, rfl, by rw [utf8EncodeChar_one ha]; rfl, hmore⟩

theorem startsWithChar_two (ha : 0xC2 ≤ a.toNat ∧ a.toNat < 0xE0) (h : pieces none (a :: rest) = text.map .char) :
    StartsWithChar (a :: rest) text := by
  have ho : opening a.toNat = .inr ⟨a.toNat - 0xC0, 1, 0x80, 0xBF, 1⟩ := by
    rw [opening, if_neg (by omega), if_neg (by omega), if_pos ha.2]
  rw [pieces_none_inr rest ho] at h
  obtain ⟨b, tail, rfl, hblow, hbhigh, more, rfl, hmore⟩ := pieces_some_eq_chars h
  refine ⟨_, more, tail, rfl, ?_, hmore⟩
  show _ = String.utf8EncodeChar (Char.ofNat ((a.toNat - 0xC0) * 64 + (b.toNat - 0x80))) ++ tail
  rw [utf8EncodeChar_two ha ⟨hblow, hbhigh⟩]
  rfl

theorem startsWithChar_three (ha : 0xE0 ≤ a.toNat ∧ a.toNat < 0xF0) (h : pieces none (a :: rest) = text.map .char) :
    StartsWithChar (a :: rest) text := by
  have ho : opening a.toNat = .inr
      ⟨a.toNat - 0xE0, 2, if a.toNat == 0xE0 then 0xA0 else 0x80, if a.toNat == 0xED then 0x9F else 0xBF, 1⟩ := by
    rw [opening, if_neg (by omega), if_neg (by omega), if_neg (by omega), if_pos ha.2]
  rw [pieces_none_inr rest ho] at h
  obtain ⟨b, rest, rfl, hblow, hbhigh, h⟩ := pieces_some_eq_chars h
  obtain ⟨c, tail, rfl, hclow, hchigh, more, rfl, hmore⟩ := pieces_some_eq_chars h
  refine ⟨_, more, tail, rfl, ?_, hmore⟩
  show _ = String.utf8EncodeChar
    (Char.ofNat (((a.toNat - 0xE0) * 64 + (b.toNat - 0x80)) * 64 + (c.toNat - 0x80))) ++ tail
  simp only [beq_iff_eq] at hblow hbhigh
  rw [utf8EncodeChar_three ha ⟨by split at hblow <;> omega, by split at hbhigh <;> omega⟩
    (fun ha => by rwa [if_pos ha] at hblow) (fun ha => by rwa [if_pos ha] at hbhigh) ⟨hclow, hchigh⟩]
  rfl

theorem startsWithChar_four (ha : 0xF0 ≤ a.toNat ∧ a.toNat < 0xF5) (h : pieces none (a :: rest) = text.map .char) :
    StartsWithChar (a :: rest) text := by
  have ho : opening a.toNat = .inr
      ⟨a.toNat - 0xF0, 3, if a.toNat == 0xF0 then 0x90 else 0x80, if a.toNat == 0xF4 then 0x8F else 0xBF, 1⟩ := by
    rw [opening, if_neg (by omega), if_neg (by omega), if_neg (by omega), if_neg (by omega), if_pos ha.2]
  rw [pieces_none_inr rest ho] at h
  obtain ⟨b, rest, rfl, hblow, hbhigh, h⟩ := pieces_some_eq_chars h
  obtain ⟨c, rest, rfl, hclow, hchigh, h⟩ := pieces_some_eq_chars h
  obtain ⟨d, tail, rfl, hdlow, hdhigh, more, rfl, hmore⟩ := pieces_some_eq_chars h
  refine ⟨_, more, tail, rfl, ?_, hmore⟩
  show _ = String.utf8EncodeChar (Char.ofNat
    ((((a.toNat - 0xF0) * 64 + (b.toNat - 0x80)) * 64 + (c.toNat - 0x80)) * 64 + (d.toNat - 0x80))) ++ tail
  simp only [beq_iff_eq] at hblow hbhigh
  rw [utf8EncodeChar_four ha ⟨by split at hblow <;> omega, by split at hbhigh <;> omega⟩
    (fun ha => by rwa [if_pos ha] at hblow) (fun ha => by rwa [if_pos ha] at hbhigh) ⟨hclow, hchigh⟩ ⟨hdlow, hdhigh⟩]
  rfl

theorem startsWithChar_of_pieces (h : pieces none (a :: rest) = text.map .char) : StartsWithChar (a :: rest) text := by
  have hbad : opening a.toNat ≠ .inl (.bad 1 .start) := by
    intro ho
    rw [pieces_none_inl rest ho] at h
    cases text <;> cases h
  by_cases hone : a.toNat < 0x80
  · exact startsWithChar_one hone h
  by_cases htail : a.toNat < 0xC2
  · exact absurd (by rw [opening, if_neg hone, if_pos htail]) hbad
  by_cases htwo : a.toNat < 0xE0
  · exact startsWithChar_two ⟨by omega, htwo⟩ h
  by_cases hthree : a.toNat < 0xF0
  · exact startsWithChar_three ⟨by omega, hthree⟩ h
  by_cases hfour : a.toNat < 0xF5
  · exact startsWithChar_four ⟨by omega, hfour⟩ h
  · exact absurd (by rw [opening, if_neg hone, if_neg htail, if_neg htwo, if_neg hthree, if_neg hfour]) hbad

end FirstByte

theorem encode_of_pieces (h : pieces none bytes = text.map .char) : encode text = bytes := by
  induction text generalizing bytes with
  | nil =>
    cases bytes with
    | nil => rfl
    | cons byte rest =>
      obtain ⟨c, more, tail, heq, -⟩ := startsWithChar_of_pieces h
      cases heq
  | cons c more ih =>
    cases bytes with
    | nil => cases h
    | cons byte rest =>
      obtain ⟨c', more', tail, heq, hbytes, htail⟩ := startsWithChar_of_pieces h
      obtain ⟨rfl, rfl⟩ := List.cons.inj heq
      rw [encode_cons, ih htail, hbytes]

theorem pieces_of_characters {position : Nat} {found : List Piece} (h : characters bytes position found = .ok text) :
    found = text.map .char := by
  induction found generalizing bytes position text with
  | nil =>
    obtain rfl := Except.ok.inj h
    rfl
  | cons piece more ih =>
    cases piece with
    | bad size fault => cases h
    | char c =>
      simp only [characters] at h
      split at h
      · rename_i rest hrest
        obtain rfl := Except.ok.inj h
        rw [ih hrest, List.map_cons]
      · cases h

theorem encode_of_decode (h : decode bytes = .ok text) : encode text = bytes :=
  encode_of_pieces (pieces_of_characters h)

end Recordsmith.Text.Utf8
