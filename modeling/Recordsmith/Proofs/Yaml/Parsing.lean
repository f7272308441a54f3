import Recordsmith.Yaml.Parse

/-!
Parsing needs no more depth than there are tokens. Reading a node asks for nodes that start later only, so two readers
that agree on what is left by then read the same node.
-/

namespace Recordsmith.Yaml.Parse

variable {α : Type} {s t : Parse} {anchor tag : Option (List Char)} {n : Nat}

/-! ### Entries -/

namespace Entries
variable {e e' : Entries α} {first : Bool}

/-- All entries are the same if each is, up to the end of the text. -/
theorem many_congr (h : ∀ first t, t.size ≤ s.size → e.next first t = e'.next first t) :
    e.many first s = e'.many first s := by
  fun_induction Entries.many e first s with
  | case1 first s hnext =>
    rw [h first s (Nat.le_refl _)] at hnext
    rw [many_of_refused hnext]
  | case2 first s rest hnext =>
    rw [h first s (Nat.le_refl _)] at hnext
    rw [many_of_end hnext]
  | case3 first s found rest hnext ih =>
    have hrest : rest.size + 1 ≤ s.size := e.shrinks hnext
    rw [h first s (Nat.le_refl _)] at hnext
    rw [ih fun first t ht => h first t (by omega), many_of_entry hnext]

theorem collection_congr {build : List α → Node} (h : ∀ first t, t.size ≤ s.size → e.next first t = e'.next first t) :
    Reader.collection anchor e build s = Reader.collection anchor e' build s := by
  unfold Reader.collection
  rw [many_congr fun first t ht => h first t (by rwa [openCollection, size_bind] at ht)]

end Entries

/-! ### Readers that agree -/

/-- Two readers read the same where fewer than `n` tokens are left. -/
def Reader.AgreesBelow (n : Nat) (r r' : Reader) : Prop :=
  ∀ inBlock indentless s, s.size < n → r.read inBlock indentless s = r'.read inBlock indentless s

namespace Reader.AgreesBelow
variable {r r' : Reader} (h : r.AgreesBelow n r')
include h

theorem part_eq {inBlock indentless : Bool} {ends : List Token} (hs : s.size < n) :
    r.part inBlock indentless ends s = r'.part inBlock indentless ends s := by
  unfold part
  rw [h _ _ s hs]

theorem pair_eq {inBlock : Bool} {ends : List Token} (hs : s.size < n) :
    r.pair inBlock ends s = r'.pair inBlock ends s := by
  unfold pair
  rw [← h.part_eq hs]
  refine Option.bind_congr fun (key, after) hkey => ?_
  have hafter := r.size_part hkey
  have hvalue : r.value inBlock ends after = r'.value inBlock ends after := by
    unfold value
    rw [h.part_eq (by rw [size_drop]; omega)]
  dsimp only
  rw [hvalue]

theorem blockItem_eq {ends : List Token} (hpos : 0 < s.size) (hs : s.size ≤ n) :
    r.blockItem ends s = r'.blockItem ends s := by
  unfold blockItem
  rw [h.part_eq (by rw [size_drop]; omega)]

theorem blockItems_eq (first : Bool) (hs : s.size ≤ n) : r.blockItems.next first s = r'.blockItems.next first s := by
  simp only [blockItems]
  split
  · rename_i htokens
    exact h.blockItem_eq (size_pos_of_tokens htokens) hs
  · rfl
  · rfl

theorem indentlessItems_eq (first : Bool) (hs : s.size ≤ n) :
    r.indentlessItems.next first s = r'.indentlessItems.next first s := by
  simp only [indentlessItems]
  split
  · rename_i htokens
    exact h.blockItem_eq (size_pos_of_tokens htokens) hs
  · rfl

theorem blockPairs_eq (first : Bool) (hs : s.size ≤ n) : r.blockPairs.next first s = r'.blockPairs.next first s := by
  simp only [blockPairs]
  split
  · rename_i htokens
    have hpos := size_pos_of_tokens htokens
    rw [h.pair_eq (by rw [size_drop]; omega)]
  · rfl
  · rfl

theorem flowPart_eq {closing : Token} {ofPair : Node × Node → α} {ofNode : Node → α} (hs : s.size < n) :
    r.flowPart closing ofPair ofNode s = r'.flowPart closing ofPair ofNode s := by
  unfold flowPart
  rw [h.pair_eq (by rw [size_drop]; omega), h _ _ s hs]

theorem flowEntries_eq {closing : Token} {ofPair : Node × Node → α} {ofNode : Node → α} (first : Bool) (hs : s.size < n) :
    (flowEntries closing (r.flowPart closing ofPair ofNode) r.size_flowPart).next first s =
      (flowEntries closing (r'.flowPart closing ofPair ofNode) r'.size_flowPart).next first s := by
  simp only [flowEntries]
  split
  · rfl
  · refine Option.bind_congr fun after hafter => ?_
    rw [h.flowPart_eq (Nat.lt_of_le_of_lt (size_afterComma hafter) hs)]

theorem content_eq {inBlock indentless : Bool} (hs : s.size ≤ n) :
    r.content inBlock indentless anchor tag s = r'.content inBlock indentless anchor tag s := by
  have hdrop : ∀ {first : Token} {rest : List Token}, s.tokens = first :: rest → s.drop.size < n := fun htokens => by
    have hpos := size_pos_of_tokens htokens
    rw [size_drop]
    omega
  unfold content
  dsimp only
  split
  case h_3 htokens | h_4 htokens =>
    exact Entries.collection_congr fun first t ht => h.flowEntries_eq first (Nat.lt_of_le_of_lt ht (hdrop htokens))
  case h_5 => rw [Entries.collection_congr fun first t ht => h.indentlessItems_eq first (Nat.le_trans ht hs)]
  case h_6 htokens =>
    rw [Entries.collection_congr fun first t ht => h.blockItems_eq first (Nat.le_trans ht (Nat.le_of_lt (hdrop htokens)))]
  case h_7 htokens =>
    rw [Entries.collection_congr fun first t ht => h.blockPairs_eq first (Nat.le_trans ht (Nat.le_of_lt (hdrop htokens)))]
  all_goals rfl

theorem nodeOf_eq {inBlock indentless : Bool} (hs : s.size ≤ n) :
    r.nodeOf inBlock indentless s = r'.nodeOf inBlock indentless s := by
  unfold nodeOf
  split
  · rfl
  · refine Option.bind_congr fun (anchor, tag, after) hproperties => ?_
    have hafter := size_properties hproperties
    dsimp only
    rw [h.content_eq (by omega)]

end Reader.AgreesBelow

/-! ### Depth -/

/-- Without tokens there is no node. -/
theorem Reader.read_eq_none (r : Reader) (inBlock indentless : Bool) (hs : s.size = 0) :
    r.read inBlock indentless s = none := by
  cases hread : r.read inBlock indentless s with
  | none => rfl
  | some found => exact absurd (r.shrinks hread) (by omega)

/-- With as much depth as there are tokens, it does not matter how much more there may be. -/
theorem within_eq {limit other : Nat} (hlimit : s.size ≤ limit) (hother : s.size ≤ other) (inBlock indentless : Bool) :
    (Reader.within limit).read inBlock indentless s = (Reader.within other).read inBlock indentless s := by
  induction limit generalizing other inBlock indentless s with
  | zero =>
    rw [Reader.read_eq_none _ _ _ (Nat.le_zero.mp hlimit), Reader.read_eq_none _ _ _ (Nat.le_zero.mp hlimit)]
  | succ limit ih =>
    cases other with
    | zero => rw [Reader.read_eq_none _ _ _ (Nat.le_zero.mp hother), Reader.read_eq_none _ _ _ (Nat.le_zero.mp hother)]
    | succ other =>
      have hagrees : (Reader.within limit).AgreesBelow s.size (Reader.within other) := fun inBlock indentless t ht =>
        ih (by omega) (by omega) inBlock indentless
      exact hagrees.nodeOf_eq (Nat.le_refl _)

/-- The reader of nodes. -/
def nodes : Reader := ⟨node, fun h => (Reader.within _).shrinks h⟩

/-- A node is what one step reads where its parts are nodes. -/
theorem node_eq (inBlock indentless : Bool) (s : Parse) :
    node inBlock indentless s = nodes.nodeOf inBlock indentless s := by
  have hagrees : (Reader.within s.size).AgreesBelow s.size nodes := fun inBlock indentless t ht =>
    within_eq (Nat.le_of_lt ht) (Nat.le_refl _) inBlock indentless
  calc node inBlock indentless s
    _ = (Reader.within (s.size + 1)).read inBlock indentless s :=
      within_eq (Nat.le_refl _) (Nat.le_succ _) inBlock indentless
    _ = nodes.nodeOf inBlock indentless s := hagrees.nodeOf_eq (Nat.le_refl _)

end Recordsmith.Yaml.Parse
