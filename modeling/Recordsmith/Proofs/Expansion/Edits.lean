import Mathlib.Data.List.Basic
import Mathlib.Data.List.Pairwise
import Recordsmith.Expansion.Edit

/-!
Edits of a text that do not touch each other. Made one after another, the last of the text first, they give the text in
which every range is replaced at once, and a character that no edit takes away stays, in its order.
-/

namespace Recordsmith

namespace Edit

/-! ### Edits at once -/

/-- An edit that replaces some characters of the text. -/
structure IsWithin (text : List Char) (e : Edit) : Prop where
  start_nonneg : 0 ≤ e.start
  start_lt_stop : e.start < e.stop
  stop_le : e.stop ≤ text.length

/-- One of the edits ends before the other starts. -/
def Apart (a b : Edit) : Prop := a.stop ≤ b.start ∨ b.stop ≤ a.start

theorem Apart.symm {a b : Edit} (h : a.Apart b) : b.Apart a := Or.symm h

instance : DecidableRel Apart := fun _ _ => inferInstanceAs (Decidable (_ ∨ _))

instance : Std.Symm Apart := ⟨fun _ _ => Apart.symm⟩

/-- Whether an edit replaces the character at a position. -/
def covers (e : Edit) (i : Nat) : Bool := e.start ≤ i && i < e.stop

/-- What a position holds after all edits: the replacements that start there, and then its character unless an edit
    replaces it. -/
def pieceAt (edits : List Edit) (entry : Char × Nat) : List Char :=
  (edits.filter (·.start == (entry.2 : Int))).flatMap (·.replacement) ++
    if edits.any (·.covers entry.2) then [] else [entry.1]

/-- The text with every range replaced by its own replacement, whatever the order of the edits. -/
def atOnce (text : List Char) (edits : List Edit) : List Char := text.zipIdx.flatMap (pieceAt edits)

/-! ### One position -/

section Piece
variable {e : Edit} {edits : List Edit} {c : Char} {i : Nat}

theorem covers_eq_true_iff : e.covers i = true ↔ e.start ≤ i ∧ (i : Int) < e.stop := by
  simp [covers]

theorem pieceAt_of_outside (h : ∀ e ∈ edits, e.start < e.stop ∧ (e.stop ≤ i ∨ (i : Int) < e.start)) :
    pieceAt edits (c, i) = [c] := by
  have hfilter : edits.filter (·.start == ((i : Nat) : Int)) = [] := by
    rw [List.filter_eq_nil_iff]
    intro e he heq
    have := h e he
    have := beq_iff_eq.mp heq
    omega
  have hany : edits.any (·.covers i) = false := by
    rw [List.any_eq_false]
    intro e he hcov
    have := h e he
    have := covers_eq_true_iff.mp hcov
    omega
  simp [pieceAt, hfilter, hany]

theorem pieceAt_cons_of_lt (h : (i : Int) < e.start) : pieceAt (e :: edits) (c, i) = pieceAt edits (c, i) := by
  have hstart : (e.start == ((i : Nat) : Int)) = false := by
    rw [beq_eq_false_iff_ne]
    omega
  have hcov : e.covers i = false := by
    rw [← Bool.not_eq_true, covers_eq_true_iff]
    omega
  simp [pieceAt, hstart, hcov]

theorem pieceAt_cons_start (hlt : e.start < e.stop) (hstart : e.start = i)
    (h : ∀ x ∈ edits, x.start < x.stop ∧ e.Apart x) : pieceAt (e :: edits) (c, i) = e.replacement := by
  have hfilter : edits.filter (·.start == ((i : Nat) : Int)) = [] := by
    rw [List.filter_eq_nil_iff]
    intro x hx heq
    have hapart := h x hx
    have := beq_iff_eq.mp heq
    unfold Apart at hapart
    omega
  have hcov : e.covers i = true := by
    rw [covers_eq_true_iff]
    omega
  simp [pieceAt, hstart, hfilter, hcov]

theorem pieceAt_cons_inside (hlt : e.start < i) (hin : (i : Int) < e.stop)
    (h : ∀ x ∈ edits, x.start < x.stop ∧ e.Apart x) : pieceAt (e :: edits) (c, i) = [] := by
  have hfilter : (e :: edits).filter (·.start == ((i : Nat) : Int)) = [] := by
    rw [List.filter_eq_nil_iff]
    intro x hx heq
    have := beq_iff_eq.mp heq
    rcases List.mem_cons.mp hx with rfl | hx
    · omega
    · have hapart := h x hx
      unfold Apart at hapart
      omega
  have hcov : e.covers i = true := by
    rw [covers_eq_true_iff]
    omega
  simp [pieceAt, hfilter, hcov]

/-- At most one of some edits that are apart starts at a position, so their order does not matter. -/
theorem pieceAt_perm {edits' : List Edit} (hperm : edits.Perm edits') (hapart : edits.Pairwise Apart)
    (hlt : ∀ e ∈ edits, e.start < e.stop) (entry : Char × Nat) : pieceAt edits entry = pieceAt edits' entry := by
  obtain ⟨c, i⟩ := entry
  have hfilter : edits.filter (·.start == ((i : Nat) : Int)) = edits'.filter (·.start == ((i : Nat) : Int)) := by
    have hp := hperm.filter (·.start == ((i : Nat) : Int))
    have hpairs := hapart.filter (·.start == ((i : Nat) : Int))
    have hstarts : ∀ e ∈ edits.filter (·.start == ((i : Nat) : Int)), e.start = i ∧ e.start < e.stop := fun e he =>
      ⟨beq_iff_eq.mp (List.mem_filter.mp he).2, hlt e (List.mem_filter.mp he).1⟩
    generalize edits.filter (·.start == ((i : Nat) : Int)) = found at hp hpairs hstarts
    match found with
    | [] => exact (List.nil_perm.mp hp).symm
    | [e] => exact (List.singleton_perm.mp hp)
    | a :: b :: rest =>
      have hab := (List.pairwise_cons.mp hpairs).1 b (List.mem_cons_self ..)
      have ha := hstarts a (List.mem_cons_self ..)
      have hb := hstarts b (List.mem_cons_of_mem _ (List.mem_cons_self ..))
      unfold Apart at hab
      omega
  have hany : edits.any (·.covers i) = edits'.any (·.covers i) := hperm.any_eq
  simp only [pieceAt, hfilter, hany]

end Piece

/-! ### One edit after another -/

section Apply
variable {x : List Char} {e a : Edit} {edits : List Edit}

theorem IsWithin.append (h : e.IsWithin x) (y : List Char) : e.IsWithin (x ++ y) := by
  obtain ⟨h1, h2, h3⟩ := h
  exact ⟨h1, h2, by rw [List.length_append]; omega⟩

theorem IsWithin.before (ha : a.IsWithin x) (he : e.IsWithin x) (h : a.stop ≤ e.start) :
    a.IsWithin (x.take e.start.toNat) := by
  obtain ⟨h1, h2, h3⟩ := ha
  obtain ⟨h4, h5, h6⟩ := he
  refine ⟨h1, h2, ?_⟩
  rw [List.length_take]
  omega

theorem apply_eq (h : e.IsWithin x) :
    apply x e = x.take e.start.toNat ++ (e.replacement ++ x.drop e.stop.toNat) := by
  obtain ⟨h1, h2, h3⟩ := h
  unfold apply Text.upTo Text.startingAt Text.resolve
  rw [if_neg (by omega), if_neg (by omega), List.append_assoc]

theorem apply_append (h : e.IsWithin x) (y : List Char) :
    apply (x ++ y) e = x.take e.start.toNat ++ (e.replacement ++ x.drop e.stop.toNat ++ y) := by
  obtain ⟨h1, h2, h3⟩ := h
  rw [apply_eq (IsWithin.append ⟨h1, h2, h3⟩ y), List.take_append_of_le_length (by omega),
    List.drop_append_of_le_length (by omega), List.append_assoc]

/-- Each edit ends before the one that is made before it starts. -/
def Descending (edits : List Edit) : Prop := edits.Pairwise fun a b => b.stop ≤ a.start

/-- Descending edits leave alone what follows them. -/
theorem foldl_apply_append (hw : ∀ e ∈ edits, e.IsWithin x) (hd : Descending edits) (y : List Char) :
    edits.foldl apply (x ++ y) = edits.foldl apply x ++ y := by
  induction edits generalizing x y with
  | nil => rfl
  | cons e rest ih =>
    obtain ⟨hfirst, hrest⟩ := List.pairwise_cons.mp hd
    have he := hw e (List.mem_cons_self ..)
    have hbefore : ∀ a ∈ rest, a.IsWithin (x.take e.start.toNat) := fun a ha =>
      (hw a (List.mem_cons_of_mem _ ha)).before he (hfirst a ha)
    rw [List.foldl_cons, List.foldl_cons, apply_append he, apply_eq he, ih hbefore hrest, ih hbefore hrest]
    simp only [List.append_assoc]

/-- The last of the text is edited first, and the other edits work on what stands before it. -/
theorem foldl_apply_cons (hw : ∀ a ∈ e :: edits, a.IsWithin x) (hd : Descending (e :: edits)) :
    (e :: edits).foldl apply x =
      edits.foldl apply (x.take e.start.toNat) ++ (e.replacement ++ x.drop e.stop.toNat) := by
  obtain ⟨hfirst, hrest⟩ := List.pairwise_cons.mp hd
  have he := hw e (List.mem_cons_self ..)
  rw [List.foldl_cons, apply_eq he, foldl_apply_append (fun a ha =>
    (hw a (List.mem_cons_of_mem _ ha)).before he (hfirst a ha)) hrest]

/-- What an edit replaces. -/
def replaced (x : List Char) (e : Edit) : List Char := (x.drop e.start.toNat).take (e.stop.toNat - e.start.toNat)

theorem IsWithin.length_take (h : e.IsWithin x) : (x.take e.start.toNat).length = e.start.toNat := by
  obtain ⟨h1, h2, h3⟩ := h
  rw [List.length_take]
  omega

theorem IsWithin.length_replaced (h : e.IsWithin x) : (e.replaced x).length = e.stop.toNat - e.start.toNat := by
  obtain ⟨h1, h2, h3⟩ := h
  rw [replaced, List.length_take, List.length_drop]
  omega

theorem IsWithin.parts (h : e.IsWithin x) : x = x.take e.start.toNat ++ (e.replaced x ++ x.drop e.stop.toNat) := by
  obtain ⟨h1, h2, h3⟩ := h
  unfold replaced
  have hrest : x.drop e.stop.toNat = (x.drop e.start.toNat).drop (e.stop.toNat - e.start.toNat) := by
    rw [List.drop_drop]
    congr 1
    omega
  rw [hrest, List.take_append_drop, List.take_append_drop]

end Apply

/-! ### All edits at once -/

section AtOnce
variable {x : List Char} {e : Edit} {edits : List Edit}

theorem flatMap_zipIdx_congr {f g : Char × Nat → List Char} {k : Nat}
    (h : ∀ c i, k ≤ i → i < k + x.length → f (c, i) = g (c, i)) : (x.zipIdx k).flatMap f = (x.zipIdx k).flatMap g := by
  refine List.flatMap_congr fun entry hentry => ?_
  obtain ⟨c, i⟩ := entry
  obtain ⟨hlow, hhigh, -⟩ := List.mem_zipIdx hentry
  exact h c i hlow (by omega)

theorem flatMap_zipIdx_single (x : List Char) (k : Nat) : (x.zipIdx k).flatMap (fun entry => [entry.1]) = x := by
  rw [← List.map_eq_flatMap, List.zipIdx_map_fst]

theorem atOnce_nil (x : List Char) : atOnce x [] = x := by
  unfold atOnce
  rw [flatMap_zipIdx_congr (g := fun entry => [entry.1]) fun c i _ _ => pieceAt_of_outside (by simp)]
  exact flatMap_zipIdx_single x 0

/-- The last of some edits takes out its own range only. -/
theorem atOnce_cons (hw : ∀ a ∈ e :: edits, a.IsWithin x) (hd : Descending (e :: edits)) :
    atOnce x (e :: edits) = atOnce (x.take e.start.toNat) edits ++ (e.replacement ++ x.drop e.stop.toNat) := by
  obtain ⟨hfirst, hrest⟩ := List.pairwise_cons.mp hd
  have he := hw e (List.mem_cons_self ..)
  have h1 := he.start_nonneg
  have h2 := he.start_lt_stop
  have hothers : ∀ a ∈ edits, a.start < a.stop ∧ a.stop ≤ e.start := fun a ha =>
    ⟨(hw a (List.mem_cons_of_mem _ ha)).start_lt_stop, hfirst a ha⟩
  have hapart : ∀ a ∈ edits, a.start < a.stop ∧ e.Apart a := fun a ha => ⟨(hothers a ha).1, Or.inr (hothers a ha).2⟩
  have hlen := he.length_take
  have hinner := he.length_replaced
  have hparts := he.parts
  generalize e.replaced x = inner at hinner hparts
  -- The range is not empty: its first position holds the replacement, the others nothing.
  obtain ⟨c, more, rfl⟩ : ∃ c more, inner = c :: more := List.exists_cons_of_length_pos (by omega)
  rw [List.length_cons] at hinner
  have hmore : (more.zipIdx (e.start.toNat + 1)).flatMap (pieceAt (e :: edits)) = [] := by
    rw [flatMap_zipIdx_congr (g := fun _ => []) fun c i hlow hhigh =>
      pieceAt_cons_inside (by omega) (by omega) hapart]
    simp
  have hafter : ((x.drop e.stop.toNat).zipIdx e.stop.toNat).flatMap (pieceAt (e :: edits)) = x.drop e.stop.toNat := by
    rw [flatMap_zipIdx_congr (g := fun entry => [entry.1]) fun c i hlow _ => pieceAt_of_outside fun a ha => by
      rcases List.mem_cons.mp ha with rfl | ha
      · omega
      · have := hothers a ha
        omega]
    exact flatMap_zipIdx_single ..
  have hbefore : (x.take e.start.toNat).zipIdx.flatMap (pieceAt (e :: edits)) =
      (x.take e.start.toNat).zipIdx.flatMap (pieceAt edits) :=
    flatMap_zipIdx_congr fun c i _ hhigh => pieceAt_cons_of_lt (by omega)
  unfold atOnce
  conv =>
    lhs
    rw [hparts]
  rw [List.zipIdx_append, List.flatMap_append, hbefore, hlen, Nat.zero_add, List.cons_append, List.zipIdx_cons,
    List.flatMap_cons, pieceAt_cons_start h2 (by omega) hapart, List.zipIdx_append, List.flatMap_append, hmore,
    List.nil_append, show e.start.toNat + 1 + more.length = e.stop.toNat by omega, hafter]

theorem foldl_apply_eq_atOnce (hw : ∀ e ∈ edits, e.IsWithin x) (hd : Descending edits) :
    edits.foldl apply x = atOnce x edits := by
  induction edits generalizing x with
  | nil => exact (atOnce_nil x).symm
  | cons e rest ih =>
    obtain ⟨hfirst, hrest⟩ := List.pairwise_cons.mp hd
    rw [foldl_apply_cons hw hd, atOnce_cons hw hd, ih (fun a ha =>
      (hw a (List.mem_cons_of_mem _ ha)).before (hw e (List.mem_cons_self ..)) (hfirst a ha)) hrest]

theorem descending_mergeSort (hapart : edits.Pairwise Apart) (hlt : ∀ e ∈ edits, e.start < e.stop) :
    Descending (edits.mergeSort fun a b => b.start ≤ a.start) := by
  have hperm := List.mergeSort_perm edits fun a b => decide (b.start ≤ a.start)
  have hsorted : (edits.mergeSort fun a b => decide (b.start ≤ a.start)).Pairwise fun a b =>
      decide (b.start ≤ a.start) = true :=
    List.pairwise_mergeSort (fun a b c hab hbc => by simp at *; omega) (fun a b => by simp; omega) edits
  have hboth := hsorted.and (hperm.symm.pairwise hapart Apart.symm)
  refine hboth.imp_of_mem fun {a b} ha _ hab => ?_
  have := hlt a (hperm.mem_iff.mp ha)
  have := of_decide_eq_true hab.1
  have := hab.2
  unfold Apart at this
  omega

/-- Edits that are apart may be made one after another, the last of the text first: every range of the text is replaced
    by its own replacement. -/
theorem applyAll_eq_atOnce (hw : ∀ e ∈ edits, e.IsWithin x) (hapart : edits.Pairwise Apart) :
    applyAll x edits = atOnce x edits := by
  have hlt : ∀ e ∈ edits, e.start < e.stop := fun e he => (hw e he).start_lt_stop
  have hperm := List.mergeSort_perm edits fun a b => decide (b.start ≤ a.start)
  unfold applyAll
  rw [foldl_apply_eq_atOnce (fun e he => hw e (hperm.mem_iff.mp he)) (descending_mergeSort hapart hlt)]
  unfold atOnce
  congr 1
  funext entry
  exact (pieceAt_perm hperm.symm hapart hlt entry).symm

end AtOnce

end Edit

/-! ### What edits leave -/

namespace Text
variable {keep : Nat → Bool} {k : Nat}

/-- The characters of a text at the positions to keep, in their order. The text starts at position `k`. -/
def pick (keep : Nat → Bool) (k : Nat) (text : List Char) : List Char :=
  ((text.zipIdx k).filter fun entry => keep entry.2).map (·.1)

theorem pick_append (a b : List Char) : pick keep k (a ++ b) = pick keep k a ++ pick keep (k + a.length) b := by
  simp only [pick, List.zipIdx_append, List.filter_append, List.map_append]

theorem pick_sublist (text : List Char) : (pick keep k text).Sublist text := by
  have h := (List.filter_sublist (l := text.zipIdx k) (p := fun entry => keep entry.2)).map Prod.fst
  rwa [List.zipIdx_map_fst] at h

theorem pick_eq_nil {text : List Char} (h : ∀ i, k ≤ i → i < k + text.length → keep i = false) :
    pick keep k text = [] := by
  unfold pick
  rw [List.map_eq_nil_iff, List.filter_eq_nil_iff]
  intro entry hentry hkeep
  obtain ⟨hlow, hhigh, -⟩ := List.mem_zipIdx hentry
  rw [h entry.2 hlow (by omega)] at hkeep
  cases hkeep

end Text

namespace Edit
variable {x : List Char} {edits : List Edit} {keep : Nat → Bool}

theorem replaced_take {a : Edit} {n : Nat} (h : a.stop.toNat ≤ n) : a.replaced (x.take n) = a.replaced x := by
  unfold replaced
  rw [List.drop_take, List.take_take]
  congr 1
  omega

theorem pick_sublist_foldl_apply (hw : ∀ e ∈ edits, e.IsWithin x) (hd : Descending edits)
    (hkeep : ∀ e ∈ edits, (Text.pick keep e.start.toNat (e.replaced x)).Sublist e.replacement) :
    (Text.pick keep 0 x).Sublist (edits.foldl apply x) := by
  induction edits generalizing x with
  | nil => exact Text.pick_sublist x
  | cons e rest ih =>
    obtain ⟨hfirst, hrest⟩ := List.pairwise_cons.mp hd
    have he := hw e (List.mem_cons_self ..)
    have hbefore : (Text.pick keep 0 (x.take e.start.toNat)).Sublist (rest.foldl apply (x.take e.start.toNat)) := by
      refine ih (fun a ha => (hw a (List.mem_cons_of_mem _ ha)).before he (hfirst a ha)) hrest fun a ha => ?_
      have := hfirst a ha
      rw [replaced_take (by omega)]
      exact hkeep a (List.mem_cons_of_mem _ ha)
    rw [foldl_apply_cons hw hd]
    conv =>
      lhs
      rw [he.parts]
    rw [Text.pick_append, Text.pick_append, he.length_take, Nat.zero_add]
    exact hbefore.append ((hkeep e (List.mem_cons_self ..)).append (Text.pick_sublist _))

/-- Characters at positions that no edit takes away, or that its replacement brings back in their order, are all there
    after the edits, in their order. -/
theorem pick_sublist_applyAll (hw : ∀ e ∈ edits, e.IsWithin x) (hapart : edits.Pairwise Apart)
    (hkeep : ∀ e ∈ edits, (Text.pick keep e.start.toNat (e.replaced x)).Sublist e.replacement) :
    (Text.pick keep 0 x).Sublist (applyAll x edits) := by
  have hperm := List.mergeSort_perm edits fun a b => decide (b.start ≤ a.start)
  exact pick_sublist_foldl_apply (fun e he => hw e (hperm.mem_iff.mp he))
    (descending_mergeSort hapart fun e he => (hw e he).start_lt_stop) fun e he => hkeep e (hperm.mem_iff.mp he)

end Edit

end Recordsmith
