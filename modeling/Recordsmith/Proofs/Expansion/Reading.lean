import Recordsmith.Proofs.Expansion.Edits

/-!
Reading an edited text. A reader goes through a text character by character, with a state, and may refuse to go on. Where
every replacement leads it from one state to another as the text that it replaces did, the edited text leads it through
as the text before.
-/

namespace Recordsmith

namespace Edit

/-- What the edits make of the text from one position up to another. -/
def between (text : List Char) (edits : List Edit) (i j : Nat) : List Char :=
  ((text.zipIdx.drop i).take (j - i)).flatMap (pieceAt edits)

/-- A position that no edit reaches over. -/
def IsClear (edits : List Edit) (i : Nat) : Prop := ∀ e ∈ edits, e.stop ≤ i ∨ (i : Int) ≤ e.start

section Between
variable {text : List Char} {edits : List Edit} {e : Edit} {i j k : Nat}

theorem between_self (text : List Char) (edits : List Edit) (i : Nat) : between text edits i i = [] := by
  simp [between]

theorem between_append (hij : i ≤ j) (hjk : j ≤ k) :
    between text edits i j ++ between text edits j k = between text edits i k := by
  have hsplit : ((text.zipIdx.drop i).take (j - i)) ++ ((text.zipIdx.drop j).take (k - j)) =
      (text.zipIdx.drop i).take (k - i) := by
    have hcount : k - i = (j - i) + (k - j) := by omega
    rw [hcount, List.take_add, List.drop_drop, Nat.add_sub_cancel' hij]
  rw [between, between, ← List.flatMap_append, hsplit]
  rfl

theorem between_zero_length (text : List Char) (edits : List Edit) :
    between text edits 0 text.length = atOnce text edits := by
  rw [between, List.drop_zero, Nat.sub_zero, List.take_of_length_le (Nat.le_of_eq List.length_zipIdx)]
  rfl

theorem between_succ {c : Char} (hc : text[i]? = some c) : between text edits i (i + 1) = pieceAt edits (c, i) := by
  obtain ⟨hlen, rfl⟩ := List.getElem?_eq_some_iff.mp hc
  rw [between, Nat.add_sub_cancel_left, List.drop_eq_getElem_cons (by rw [List.length_zipIdx]; exact hlen),
    List.take_succ_cons, List.take_zero, List.flatMap_singleton, List.getElem_zipIdx, Nat.zero_add]

theorem between_succ_of_outside {c : Char} (hw : ∀ e ∈ edits, e.IsWithin text) (hc : text[i]? = some c)
    (hout : ∀ e ∈ edits, e.stop ≤ i ∨ (i : Int) < e.start) : between text edits i (i + 1) = [c] := by
  rw [between_succ hc]
  exact pieceAt_of_outside fun e he => ⟨(hw e he).start_lt_stop, hout e he⟩

/-- Over the range of an edit stands its replacement. -/
theorem between_of_mem (hw : ∀ e ∈ edits, e.IsWithin text) (hapart : edits.Pairwise Apart) (he : e ∈ edits) :
    between text edits e.start.toNat e.stop.toNat = e.replacement := by
  obtain ⟨h1, h2, h3⟩ := hw e he
  have hperm := List.perm_cons_erase he
  have hothers : ∀ x ∈ edits.erase e, x.start < x.stop ∧ e.Apart x := fun x hx =>
    ⟨(hw x (List.mem_of_mem_erase hx)).start_lt_stop,
      (List.pairwise_cons.mp (hperm.pairwise hapart Apart.symm)).1 x hx⟩
  have hpiece : ∀ entry, pieceAt edits entry = pieceAt (e :: edits.erase e) entry :=
    pieceAt_perm hperm hapart fun x hx => (hw x hx).start_lt_stop
  -- The first position holds the replacement, and each of the others nothing.
  have hrest : ∀ n, e.start.toNat + 1 + n ≤ e.stop.toNat →
      between text edits (e.start.toNat + 1) (e.start.toNat + 1 + n) = [] := by
    intro n
    induction n with
    | zero => exact fun _ => between_self ..
    | succ n ih =>
      intro hn
      obtain ⟨c, hc⟩ : ∃ c, text[e.start.toNat + 1 + n]? = some c := ⟨_, List.getElem?_eq_getElem (by omega)⟩
      rw [← Nat.add_assoc, ← between_append (j := e.start.toNat + 1 + n) (by omega) (by omega), ih (by omega),
        between_succ hc, hpiece, pieceAt_cons_inside (by omega) (by omega) hothers]
      rfl
  obtain ⟨c, hc⟩ : ∃ c, text[e.start.toNat]? = some c := ⟨_, List.getElem?_eq_getElem (by omega)⟩
  have hempty := hrest (e.stop.toNat - (e.start.toNat + 1)) (by omega)
  rw [Nat.add_sub_cancel' (by omega)] at hempty
  rw [← between_append (j := e.start.toNat + 1) (by omega) (by omega), hempty, List.append_nil, between_succ hc, hpiece,
    pieceAt_cons_start h2 (by omega) hothers]

/-- No other edit reaches over the ends of an edit. -/
theorem isClear_ends (hw : ∀ e ∈ edits, e.IsWithin text) (hapart : edits.Pairwise Apart) (he : e ∈ edits) :
    IsClear edits e.start.toNat ∧ IsClear edits e.stop.toNat := by
  have hstart := (hw e he).start_nonneg
  have hlt := (hw e he).start_lt_stop
  have hcases : ∀ x ∈ edits, e = x ∨ e.stop ≤ x.start ∨ x.stop ≤ e.start := by
    intro x hx
    by_cases heq : e = x
    · exact Or.inl heq
    · exact Or.inr (hapart.forall he hx heq)
  constructor
  · intro x hx
    rcases hcases x hx with rfl | h
    · exact Or.inr (by omega)
    · omega
  · intro x hx
    rcases hcases x hx with rfl | h
    · exact Or.inl (by omega)
    · omega

theorem isClear_zero (hw : ∀ e ∈ edits, e.IsWithin text) : IsClear edits 0 := fun e he => Or.inr (hw e he).start_nonneg

theorem isClear_length (hw : ∀ e ∈ edits, e.IsWithin text) : IsClear edits text.length := fun e he =>
  Or.inl (hw e he).stop_le

/-- From a clear position an edit starts, or its character stays. -/
theorem IsClear.cases (h : IsClear edits i) :
    (∃ e ∈ edits, e.start = i ∧ (i : Int) < e.stop) ∨ ∀ e ∈ edits, e.stop ≤ i ∨ (i : Int) < e.start := by
  by_cases hin : ∃ e ∈ edits, e.start ≤ i ∧ (i : Int) < e.stop
  · obtain ⟨e, he, hlow, hhigh⟩ := hin
    have := h e he
    exact Or.inl ⟨e, he, by omega, hhigh⟩
  · refine Or.inr fun e he => ?_
    by_contra hnot
    exact hin ⟨e, he, by omega⟩

theorem isClear_succ (hout : ∀ e ∈ edits, e.stop ≤ i ∨ (i : Int) < e.start) : IsClear edits (i + 1) := by
  intro e he
  have := hout e he
  omega

end Between

/-! ### Readers -/

section Readers
variable {σ : Type} {f : σ → Char → Option σ} {I : Nat → σ → Prop} {text : List Char} {edits : List Edit} {i j : Nat}
  {s s' : σ}

theorem inv_foldlM (hstep : ∀ i s c s', I i s → text[i]? = some c → f s c = some s' → I (i + 1) s') {n : Nat}
    (hn : i + n ≤ text.length) (hs : I i s) (h : ((text.drop i).take n).foldlM f s = some s') : I (i + n) s' := by
  induction n generalizing i s with
  | zero =>
    obtain rfl := Option.some.inj (show some s = some s' by simpa using h)
    exact hs
  | succ n ih =>
    have hlen : i < text.length := by omega
    rw [List.drop_eq_getElem_cons hlen, List.take_succ_cons, List.foldlM_cons] at h
    obtain ⟨next, hnext, hrest⟩ := Option.bind_eq_some_iff.mp h
    have hinv := hstep i s _ next hs (List.getElem?_eq_getElem hlen) hnext
    have := ih (by omega) hinv hrest
    rwa [Nat.add_assoc, Nat.add_comm 1 n] at this

/-- Where every replacement leads a reader on as the text that it replaces, the edited text leads it on as the text. What
    can be told of the reader's state at a position may be used for it. -/
theorem foldlM_between (hw : ∀ e ∈ edits, e.IsWithin text) (hapart : edits.Pairwise Apart)
    (hstep : ∀ i s c s', I i s → text[i]? = some c → f s c = some s' → I (i + 1) s')
    (hedit : ∀ e ∈ edits, ∀ s s', I e.start.toNat s → (e.replaced text).foldlM f s = some s' →
      e.replacement.foldlM f s = some s')
    (hij : i ≤ j) (hj : j ≤ text.length) (hi : IsClear edits i) (hclear : IsClear edits j) (hs : I i s)
    (h : ((text.drop i).take (j - i)).foldlM f s = some s') : (between text edits i j).foldlM f s = some s' := by
  induction hn : j - i using Nat.strongRecOn generalizing i s with
  | ind n ih =>
  rcases Nat.eq_or_lt_of_le hij with rfl | hlt
  · rw [between_self]
    simpa using h
  -- Some characters are done with, and the rest is shorter.
  have hsplit (m : Nat) (hm : i ≤ m) (hmj : m ≤ j) : ((text.drop i).take (j - i)) =
      (text.drop i).take (m - i) ++ (text.drop m).take (j - m) := by
    rw [show j - i = (m - i) + (j - m) by omega, List.take_add, List.drop_drop, Nat.add_sub_cancel' hm]
  rcases hi.cases with ⟨e, he, hstart, hstop⟩ | hout
  · have hle : e.stop.toNat ≤ j := by
      have := hclear e he
      omega
    have hreplaced : (text.drop i).take (e.stop.toNat - i) = e.replaced text := by
      rw [Edit.replaced, hstart, Int.toNat_natCast]
    rw [hsplit e.stop.toNat (by omega) hle, List.foldlM_append] at h
    obtain ⟨next, hnext, hrest⟩ := Option.bind_eq_some_iff.mp h
    have hinv : I e.stop.toNat next := by
      have := inv_foldlM hstep (by omega) hs hnext
      rwa [Nat.add_sub_cancel' (by omega)] at this
    have hstart' : e.start.toNat = i := by omega
    have hreplacement : between text edits i e.stop.toNat = e.replacement := hstart' ▸ between_of_mem hw hapart he
    rw [← between_append (j := e.stop.toNat) (by omega) hle, List.foldlM_append, hreplacement,
      hedit e he s next (hstart' ▸ hs) (hreplaced ▸ hnext)]
    exact ih (j - e.stop.toNat) (by omega) hle (isClear_ends hw hapart he).2 hinv hrest rfl
  · obtain ⟨c, hc⟩ : ∃ c, text[i]? = some c := ⟨_, List.getElem?_eq_getElem (by omega)⟩
    have hsingle : (text.drop i).take (i + 1 - i) = [c] := by
      obtain ⟨hlen, rfl⟩ := List.getElem?_eq_some_iff.mp hc
      rw [Nat.add_sub_cancel_left, List.drop_eq_getElem_cons hlen, List.take_succ_cons, List.take_zero]
    rw [hsplit (i + 1) (by omega) hlt, hsingle, List.foldlM_append] at h
    obtain ⟨next, hnext, hrest⟩ := Option.bind_eq_some_iff.mp h
    have hread : f s c = some next := by simpa using hnext
    rw [← between_append (j := i + 1) (by omega) hlt, List.foldlM_append, between_succ_of_outside hw hc hout, hnext]
    exact ih (j - (i + 1)) (by omega) hlt (isClear_succ hout) (hstep i s c next hs hc hread) hrest rfl

end Readers

end Edit

end Recordsmith
