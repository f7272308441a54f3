import Recordsmith.Proofs.Expansion.Reading
import Recordsmith.Proofs.Expansion.Splicing

/-!
Markers that an expansion leaves. A declaration is marked by the first of its attributes that is named like the marker,
and only this one is removed. Any other attribute of that name is touched by no edit, so its text is still in the new
source.
-/

namespace Recordsmith

open Text.Utf8 (encode charOffset)
open Recordsmith.Tree (Node Dialect SourceTree BodyPlace MarkPlace Placed)

/-! ### Text that no edit touches -/

namespace Edit
variable {text : List Char} {edits : List Edit} {i j : Nat}

theorem between_of_outside (hw : ∀ e ∈ edits, e.IsWithin text) (hij : i ≤ j) (hj : j ≤ text.length)
    (hout : ∀ e ∈ edits, e.stop ≤ i ∨ (j : Int) ≤ e.start) :
    between text edits i j = (text.drop i).take (j - i) := by
  induction hn : j - i generalizing i with
  | zero =>
    obtain rfl : i = j := by omega
    rw [between_self]
    simp
  | succ n ih =>
    have hlen : i < text.length := by omega
    have hfirst : between text edits i (i + 1) = [text[i]] :=
      between_succ_of_outside hw (List.getElem?_eq_getElem hlen) fun e he => by
        have := hout e he
        omega
    have hrest : between text edits (i + 1) j = (text.drop (i + 1)).take n :=
      ih (by omega) (fun e he => by have := hout e he; omega) (by omega)
    rw [← between_append (j := i + 1) (by omega) (by omega), hfirst, hrest, List.drop_eq_getElem_cons hlen,
      List.take_succ_cons]
    rfl

/-- What no edit touches is still there in one piece. -/
theorem infix_atOnce_of_outside (hw : ∀ e ∈ edits, e.IsWithin text) (hij : i ≤ j) (hj : j ≤ text.length)
    (hout : ∀ e ∈ edits, e.stop ≤ i ∨ (j : Int) ≤ e.start) : (text.drop i).take (j - i) <:+: atOnce text edits := by
  refine ⟨between text edits 0 i, between text edits j text.length, ?_⟩
  rw [← between_of_outside hw hij hj hout, between_append (Nat.zero_le i) hij,
    between_append (Nat.zero_le j) hj, between_zero_length]

end Edit

/-! ### The attributes of a declaration -/

namespace Tree.Dialect
variable {d : Dialect} {source : List Char} {bytes : List UInt8} {root n body mark a : Node} {marker : String}

/-- The attributes of a node that are named like the marker. -/
def markersOf (d : Dialect) (bytes : List UInt8) (marker : String) (n : Node) : List Node :=
  (d.attributes n).filter fun a => d.attributeName bytes a = .ok marker

/-- No declaration stands inside an attribute of another. -/
def AttributesPlain (d : Dialect) (root : Node) : Prop :=
  ∀ n ∈ root.preorder, ∀ body, d.Declares n body → ∀ a ∈ d.attributes n, ∀ inner ∈ a.preorder,
    ∀ innerBody, ¬d.Declares inner innerBody

instance : Decidable (d.AttributesPlain root) :=
  inferInstanceAs (Decidable (∀ n ∈ root.preorder, ∀ body, d.Declares n body → ∀ a ∈ d.attributes n, _))

theorem findAttribute_eq_head {marks : List Node} (h : d.findAttribute bytes marker marks = .ok (some mark)) :
    ∃ others, (marks.filter fun a => d.attributeName bytes a = .ok marker) = mark :: others := by
  induction marks with
  | nil => cases h
  | cons first rest ih =>
    obtain ⟨found, hfound, h⟩ := bind_eq_ok h
    by_cases heq : found = marker
    · rw [if_pos heq] at h
      obtain rfl : first = mark := Option.some.inj (Except.ok.inj h)
      exact ⟨_, List.filter_cons_of_pos (by simpa [heq] using hfound)⟩
    · rw [if_neg heq] at h
      rw [List.filter_cons_of_neg (by simpa [hfound] using heq)]
      exact ih h

/-- A declaration is marked by the first of its markers. -/
theorem Marked.markersOf_eq (h : d.Marked bytes marker n body mark) :
    ∃ others, d.markersOf bytes marker n = mark :: others := by
  have hmark := h.marks
  unfold markerOf at hmark
  split at hmark
  · cases hmark
  · exact findAttribute_eq_head hmark

theorem attributes_pairwise (hn : n.IsOrdered) (hlists : ∀ m ∈ n.children, m.IsOrdered) :
    (d.attributes n).Pairwise fun a b => a.stop ≤ b.start := by
  refine List.Pairwise.filter _ (List.pairwise_flatMap.mpr ⟨fun m hm => ?_, ?_⟩)
  · exact (hlists m (List.mem_filter.mp hm).1).siblings
  · refine (hn.siblings.filter _).imp_of_mem fun {m m'} hm hm' hlt a ha b hb => ?_
    have hlast := ((hlists m (List.mem_filter.mp hm).1).inside a ha).2
    have hfirst := ((hlists m' (List.mem_filter.mp hm').1).inside b hb).1
    omega

/-! ### Attributes and edits -/

/-- An edit that takes the whole text of a node out of the source. -/
def Removes (source : List Char) (a : Node) (e : Edit) : Prop :=
  e.replacement = [] ∧ e.start ≤ charOffset source a.start ∧ (charOffset source a.stop : Int) ≤ e.stop

instance {e : Edit} : Decidable (Removes source a e) := inferInstanceAs (Decidable (_ ∧ _))

/-- An edit that does not touch the text of a node. -/
def Spares (source : List Char) (a : Node) (e : Edit) : Prop :=
  e.stop ≤ charOffset source a.start ∨ (charOffset source a.stop : Int) ≤ e.start

variable {n' body' mark' : Node} {e : Edit}

/-- The gap after a marker ends before an attribute that comes later. -/
theorem removal_spares (place : MarkPlace source n body a) (h : charOffset source mark.stop ≤ charOffset source a.start) :
    Spares source a (removal source mark) := by
  obtain ⟨c, hc, hsolid⟩ := place.first
  have := Text.gapEnd_le h hc hsolid
  refine Or.inl ?_
  simp only [removal]
  omega

/-- The opening brace of a body is visible, so what ends before it is done before the end of the body. -/
theorem opening_lt_headLength (b : BodyPlace source n body) :
    charOffset source body.start < headLength source body :=
  lt_headLength b.opening_lt ⟨_, b.opening, by decide⟩

namespace WellFormed

/-- Of the attributes of a marked declaration, its edits touch none after the marker. -/
theorem spares_of_later (wf : d.WellFormed source root) (hn : n ∈ root.preorder)
    (hm : d.Marked (encode source) marker n body mark) (ha : a ∈ d.attributes n) (hlater : mark.stop ≤ a.start)
    (he : IsEditOf d source n body mark e) : Spares source a e := by
  have hmarkRoot := mem_preorder_of_mem_attributes hn (mem_attributes_of_markerOf hm.marks)
  have place := wf.markPlace hn hm.toDeclares ha
  rcases he with rfl | ⟨-, hstart, -, -⟩
  · exact removal_spares place (Placed.offset_le wf.placed hmarkRoot (mem_preorder_of_mem_attributes hn ha) hlater)
  · have := opening_lt_headLength (wf.bodyPlace hn hm.toDeclares)
    have := place.stop_le
    exact Or.inr (by omega)

/-- The edits of a declaration that comes after another one, or stands in it, do not touch the attributes of that
    one. -/
theorem spares_of_before (wf : d.WellFormed source root) (hplain : d.AttributesPlain root) (hd : d.SparesModifiers)
    (hn : n ∈ root.preorder) (hn' : n' ∈ root.preorder) (hdeclares : d.Declares n body) (ha : a ∈ d.attributes n)
    (hm' : d.Marked (encode source) marker n' body' mark') (hbefore : n.Before n')
    (he : IsEditOf d source n' body' mark' e) : Spares source a e := by
  have haRoot := mem_preorder_of_mem_attributes hn ha
  have hbody := Node.mem_preorder_of_child hn hdeclares.body_mem
  have hhead := wf.attribute_stop_le hn hdeclares ha
  have hbodyOrdered := (Placed.ordered wf.placed body hbody).start_le_stop
  have place' := (wf.recovered marker).editPlace hn' hm'
  obtain ⟨hlow, -, hhigh⟩ := he.bounds place'
  have hstart := place'.start_le
  have hstop := place'.bodyStop_le
  have hafter (h : a.stop ≤ n'.start) : Spares source a e := by
    have := Placed.offset_le wf.placed haRoot hn' h
    exact Or.inr (by omega)
  rcases Placed.before_cases wf.placed hn hdeclares hbefore with hback | hinside | ⟨c, hc, hnc, -⟩
  · exact hafter (by omega)
  · exact hafter (Nat.le_trans hhead (Placed.range wf.placed hbody hinside).1)
  · rcases Placed.attribute_cases wf.placed hn ha hc hnc (hd.kind_ne hm'.toDeclares) with hin | hfront | hback
    · exact absurd hm'.toDeclares (hplain n hn body hdeclares a ha n' hin body')
    · have := Placed.offset_le wf.placed hn' haRoot hfront
      exact Or.inl (by omega)
    · exact hafter hback

/-- The edits of a declaration that comes before another one, or holds it, do not touch the attributes of that one. -/
theorem spares_of_after (wf : d.WellFormed source root) (hplain : d.AttributesPlain root) (hd : d.SparesModifiers)
    (hn : n ∈ root.preorder) (hn' : n' ∈ root.preorder) (hdeclares : d.Declares n body) (ha : a ∈ d.attributes n)
    (hm' : d.Marked (encode source) marker n' body' mark') (hafter : n'.Before n)
    (he : IsEditOf d source n' body' mark' e) : Spares source a e := by
  have hattr' := mem_attributes_of_markerOf hm'.marks
  have hmarkRoot' := mem_preorder_of_mem_attributes hn' hattr'
  have hbody' := Node.mem_preorder_of_child hn' hm'.toDeclares.body_mem
  have place := wf.markPlace hn hdeclares ha
  have b := wf.bodyPlace hn hdeclares
  have b' := wf.bodyPlace hn' hm'.toDeclares
  obtain ⟨-, -, hhigh⟩ := he.bounds ((wf.recovered marker).editPlace hn' hm')
  have hstart := place.start_le
  have hstop := place.stop_le
  have hopening := b.opening_lt
  have hend := b.stop_le
  rcases Placed.before_cases wf.placed hn' hm'.toDeclares hafter with hback | hinside | ⟨c, hc, hnc, hfront⟩
  · have := Placed.offset_le wf.placed hbody' hn hback
    exact Or.inl (by omega)
  · rcases he with rfl | ⟨-, hhead, -, -⟩
    · have hlow := (Placed.range wf.placed hbody' hinside).1
      have := Placed.offset_le wf.placed hmarkRoot' hn (Nat.le_trans (wf.attribute_stop_le hn' hm'.toDeclares hattr') hlow)
      exact removal_spares place (by omega)
    · -- The body of the inner declaration opens, visibly, before the outer one ends.
      have := wf.stop_lt_of_mem_body hn' hm'.toDeclares hdeclares hinside
      have : charOffset source body.start < headLength source body' :=
        lt_headLength (by omega) ⟨_, b.opening, by decide⟩
      exact Or.inr (by omega)
  · rcases he with rfl | ⟨-, hhead, -, -⟩
    · rcases Placed.attribute_cases wf.placed hn' hattr' hc hnc (hd.kind_ne hdeclares) with hin | hbefore | hbehind
      · exact absurd hdeclares (hplain n' hn' body' hm'.toDeclares mark' hattr' n hin body)
      · have := Placed.offset_le wf.placed hn hmarkRoot' hbefore
        refine Or.inr ?_
        simp only [removal]
        omega
      · have := Placed.offset_le wf.placed hmarkRoot' hn hbehind
        exact removal_spares place (by omega)
    · have := Placed.offset_le wf.placed hn hbody'
        (Nat.le_trans (Placed.range wf.placed (Node.mem_preorder_of_child hn' hc) hnc).2 hfront)
      have := opening_lt_headLength b'
      exact Or.inr (by omega)

end WellFormed

end Tree.Dialect

namespace Tree

theorem Placed.trichotomy {source : List Char} {root n m : Node} (hp : Placed source root) (hn : n ∈ root.preorder)
    (hm : m ∈ root.preorder) : n = m ∨ n.Before m ∨ m.Before n := by
  let R (a b : Node) : Prop := a = b ∨ a.Before b ∨ b.Before a
  have : Std.Symm R := ⟨fun a b h => h.imp Eq.symm Or.symm⟩
  have hpairs : root.preorder.Pairwise R :=
    (Node.preorder_pairwise_before hp.ordered).imp fun h => Or.inr (Or.inl h)
  have hself : ∀ x ∈ root.preorder, R x x := fun _ _ => Or.inl rfl
  exact hpairs.forall_of_forall hself hn hm

end Tree

/-! ### A whole expansion -/

namespace LanguageKit
variable {k : LanguageKit} {source : List Char} {config : Config} {root n body mark a : Node}
  {pairs : List (Node × Treatment)}

/-- The names that an expansion lists are those of the marked declarations. -/
theorem TreatsAll.mem_names_iff (h : k.TreatsAll source config root.preorder pairs) {name : String} :
    (name ∈ (Expansion.ofTreatments source (pairs.map (·.2))).expanded ∨
        name ∈ (Expansion.ofTreatments source (pairs.map (·.2))).skipped) ↔
      ∃ n ∈ root.preorder, ∃ body mark r, k.dialect.Marked (encode source) config.synthesis.marker n body mark ∧
        k.dialect.declaration? source (encode source) config.synthesis.marker n = .ok (some r) ∧ r.name = name := by
  have hlisted : (name ∈ (Expansion.ofTreatments source (pairs.map (·.2))).expanded ∨
      name ∈ (Expansion.ofTreatments source (pairs.map (·.2))).skipped) ↔ ∃ p ∈ pairs, p.2.name = name := by
    constructor
    · rintro (hname | hname) <;> obtain ⟨t, ht, rfl⟩ := List.mem_map.mp hname <;>
        obtain ⟨p, hp, rfl⟩ := List.mem_map.mp (List.mem_filter.mp ht).1 <;> exact ⟨p, hp, rfl⟩
    · rintro ⟨p, hp, rfl⟩
      have ht : p.2 ∈ pairs.map (·.2) := List.mem_map_of_mem hp
      by_cases hskipped : p.2.isSkipped = true
      · exact Or.inr (List.mem_map_of_mem (List.mem_filter.mpr ⟨ht, hskipped⟩))
      · exact Or.inl (List.mem_map_of_mem (List.mem_filter.mpr ⟨ht, by simpa using hskipped⟩))
  rw [hlisted]
  constructor
  · rintro ⟨p, hp, rfl⟩
    obtain ⟨body, mark, r, members, htreats⟩ := h.treats p hp
    exact ⟨p.1, h.sublist.subset (List.mem_map_of_mem hp), body, mark, r, htreats.marked, htreats.read,
      htreats.name.symm⟩
  · rintro ⟨n, hn, body, mark, r, hm, hread, rfl⟩
    obtain ⟨p, hp, rfl⟩ := List.mem_map.mp (h.complete n hn body mark hm)
    obtain ⟨body', mark', r', members, htreats⟩ := h.treats p hp
    obtain rfl : r' = r := Option.some.inj (Except.ok.inj (htreats.read.symm.trans hread))
    exact ⟨p, hp, htreats.name⟩

/-- No edit touches an attribute of a marked declaration that comes after its marker. -/
theorem TreatsAll.spares (h : k.TreatsAll source config root.preorder pairs) (hk : k = .swift ∨ k = .java)
    (wf : k.dialect.WellFormed source root) (hplain : k.dialect.AttributesPlain root) (hn : n ∈ root.preorder)
    (hm : k.dialect.Marked (encode source) config.synthesis.marker n body mark) (ha : a ∈ k.dialect.attributes n)
    (hlater : mark.stop ≤ a.start) {x : Edit} (hx : x ∈ pairs.flatMap (·.2.edits)) : Dialect.Spares source a x := by
  obtain ⟨n', hn', body', mark', hm', -, hedit⟩ := h.exists_editPlace (wf.recovered _) hx
  rcases Tree.Placed.trichotomy wf.placed hn hn' with rfl | hbefore | hafter
  · obtain rfl := hm.toDeclares.body_unique hm'.toDeclares
    obtain rfl : mark = mark' := Option.some.inj (Except.ok.inj (hm.marks.symm.trans hm'.marks))
    exact wf.spares_of_later hn hm ha hlater hedit
  · exact wf.spares_of_before hplain (sparesModifiers hk) hn hn' hm.toDeclares ha hm' hbefore hedit
  · exact wf.spares_of_after hplain (sparesModifiers hk) hn hn' hm.toDeclares ha hm' hafter hedit

end LanguageKit

/-- An expansion over a well-formed tree in which no declaration stands inside an attribute lists the marked declarations.
    Of the attributes of such a declaration that are named like the marker it removes the first. The text of every other
    one is still in the new source, so all of them are removed exactly when there is only one. -/
theorem only_first_marker_is_removed {k : LanguageKit} (hk : k = .swift ∨ k = .java) {source : List Char}
    {tree : SourceTree} {config : Config} {e : Expansion} (wf : k.dialect.WellFormed source tree.root)
    (hplain : k.dialect.AttributesPlain tree.root) (h : k.expandTree source tree config = .ok e) :
    ∃ edits, k.edits? source tree config = some edits ∧ e.source = Edit.atOnce source edits ∧
      (∀ name, name ∈ e.expanded ∨ name ∈ e.skipped ↔ ∃ n ∈ tree.root.preorder, ∃ body mark r,
        k.dialect.Marked (encode source) config.synthesis.marker n body mark ∧
        k.dialect.declaration? source (encode source) config.synthesis.marker n = .ok (some r) ∧ r.name = name) ∧
      ∀ n ∈ tree.root.preorder, ∀ body mark,
        k.dialect.Marked (encode source) config.synthesis.marker n body mark →
          ∃ others, k.dialect.markersOf (encode source) config.synthesis.marker n = mark :: others ∧
            (∃ x ∈ edits, Dialect.Removes source mark x) ∧
            ((∀ a ∈ k.dialect.markersOf (encode source) config.synthesis.marker n,
              ∃ x ∈ edits, Dialect.Removes source a x) ↔ others = []) ∧
            ∀ a ∈ others, ∃ text, a.text (encode source) = .ok text ∧ text.toList <:+: e.source := by
  have hmarkers : k.dialect.MarkersApart source tree.root config.synthesis.marker :=
    fun n hn body mark hm inner hinner innerBody innerMark hmarked =>
      hplain n hn body hm.toDeclares mark (Dialect.mem_attributes_of_markerOf hm.marks) inner hinner innerBody
        hmarked.toDeclares
  obtain ⟨pairs, hedits, hs⟩ := LanguageKit.exists_splices hk (wf.recovered _) hmarkers h
  obtain ⟨-, pairs', -, -, he, hall⟩ := LanguageKit.expandTree_eq_ok h
  refine ⟨_, hedits, hs.result_eq_atOnce, fun name => he ▸ hall.mem_names_iff, fun n hn body mark hm => ?_⟩
  obtain ⟨others, hothers⟩ := hm.markersOf_eq
  have hremoved : Dialect.Removes source mark (Dialect.removal source mark) :=
    ⟨rfl, Int.le_refl _, Int.ofNat_le.mpr Text.le_gapEnd⟩
  -- Every other marker comes after the first, and no edit touches it.
  have hattr : ∀ a ∈ mark :: others, a ∈ k.dialect.attributes n := fun a ha =>
    (List.mem_filter.mp (hothers ▸ ha : a ∈ k.dialect.markersOf _ _ n)).1
  have hordered : (mark :: others).Pairwise fun a b => a.stop ≤ b.start := by
    rw [← hothers]
    refine (Dialect.attributes_pairwise (Placed.ordered wf.placed n hn) fun m hchild => ?_).filter _
    exact Placed.ordered wf.placed m (Node.mem_preorder_of_child hn hchild)
  have hspares : ∀ a ∈ others, ∀ x ∈ pairs.flatMap (·.2.edits), Dialect.Spares source a x := fun a ha x hx =>
    hs.toTreatsAll.spares hk wf hplain hn hm (hattr a (List.mem_cons_of_mem _ ha))
      ((List.pairwise_cons.mp hordered).1 a ha) hx
  refine ⟨others, hothers, ⟨_, hs.toTreatsAll.removal_mem hn hm, hremoved⟩, ⟨fun hremoves => ?_, ?_⟩, fun a ha => ?_⟩
  · cases others with
    | nil => rfl
    | cons a rest =>
      have ha : a ∈ mark :: a :: rest := List.mem_cons_of_mem _ (List.mem_cons_self ..)
      obtain ⟨x, hx, -, hlow, hhigh⟩ := hremoves a (hothers ▸ ha)
      have hlt := (wf.markPlace hn hm.toDeclares (hattr a ha)).start_lt
      have := hspares a (List.mem_cons_self ..) x hx
      unfold Dialect.Spares at this
      omega
  · rintro rfl a ha
    obtain rfl : a = mark := List.mem_singleton.mp (hothers ▸ ha)
    exact ⟨_, hs.toTreatsAll.removal_mem hn hm, hremoved⟩
  · have hplaced := wf.placed a (Dialect.mem_preorder_of_mem_attributes hn (hattr a (List.mem_cons_of_mem _ ha)))
    refine ⟨_, hplaced.text_eq, ?_⟩
    rw [String.toList_ofList, hs.result_eq_atOnce]
    exact Edit.infix_atOnce_of_outside hs.within hplaced.offset_le hplaced.stop_boundary.charOffset_le_length
      (hspares a ha)

/-! ### Two markers -/

namespace Sample

def twinMarkSource : List Char := "@Buildable @lib.Buildable class A \x7b\x7d".toList

def twinMark (start stop : Nat) : Node :=
  ⟨"marker_annotation", start, stop, true, none, [
    ⟨"@", start, start + 1, false, none, []⟩, ⟨"identifier", start + 1, stop, true, some "name", []⟩]⟩

def twinMarkBody : Node :=
  ⟨"class_body", 34, 36, true, some "body", [⟨"\x7b", 34, 35, false, none, []⟩, ⟨"\x7d", 35, 36, false, none, []⟩]⟩

def twinMarkNode : Node :=
  ⟨"class_declaration", 0, 36, true, none, [⟨"modifiers", 0, 25, true, none, [twinMark 0 10, twinMark 11 25]⟩,
    ⟨"class", 26, 31, false, none, []⟩, ⟨"identifier", 32, 33, true, some "name", []⟩, twinMarkBody]⟩

def twinMarkTree : SourceTree := ⟨⟨"program", 0, 36, true, none, [twinMarkNode]⟩, false⟩

end Sample

open Sample in
theorem only_first_marker_is_removed_twin :
    LanguageKit.java.dialect.WellFormed twinMarkSource twinMarkTree.root ∧
      LanguageKit.java.dialect.AttributesPlain twinMarkTree.root ∧
      ∃ e, LanguageKit.java.expandTree twinMarkSource twinMarkTree {} = .ok e ∧
        "@lib.Buildable".toList <:+: e.source := by
  have wf : LanguageKit.java.dialect.WellFormed twinMarkSource twinMarkTree.root := by decide +kernel
  have hplain : LanguageKit.java.dialect.AttributesPlain twinMarkTree.root := by decide +kernel
  obtain ⟨e, he⟩ : ∃ e, LanguageKit.java.expandTree twinMarkSource twinMarkTree {} = .ok e :=
    exists_eq_ok (by decide +kernel)
  have hmarked : LanguageKit.java.dialect.Marked (encode twinMarkSource) "Buildable" twinMarkNode twinMarkBody
      (twinMark 0 10) :=
    { aggregate := by decide +kernel, name := rfl, body := rfl, marks := rfl }
  obtain ⟨edits, -, -, -, hall⟩ := only_first_marker_is_removed (Or.inr rfl) wf hplain he
  obtain ⟨others, hothers, -, -, hleft⟩ := hall twinMarkNode (by simp [twinMarkTree]) twinMarkBody _ hmarked
  obtain rfl : [twinMark 11 25] = others := (List.cons.inj hothers).2
  obtain ⟨text, htext, hinfix⟩ := hleft _ (List.mem_singleton_self _)
  have hname : (twinMark 11 25).text (encode twinMarkSource) = .ok "@lib.Buildable" := by decide +kernel
  obtain rfl := Except.ok.inj (hname.symm.trans htext)
  exact ⟨wf, hplain, e, he, hinfix⟩

namespace Sample

def twinAttributeSource : List Char := "@Buildable @Lib.Buildable struct A \x7b\x7d".toList

def twinAttribute (start stop : Nat) : Node :=
  ⟨"attribute", start, stop, true, none, [
    ⟨"@", start, start + 1, false, none, []⟩, ⟨"user_type", start + 1, stop, true, none, []⟩]⟩

def twinAttributeNode : Node :=
  ⟨"class_declaration", 0, 37, true, none, [
    ⟨"modifiers", 0, 25, true, none, [twinAttribute 0 10, twinAttribute 11 25]⟩,
    ⟨"struct", 26, 32, false, some "declaration_kind", []⟩, ⟨"type_identifier", 33, 34, true, some "name", []⟩,
    ⟨"class_body", 35, 37, true, some "body", [
      ⟨"\x7b", 35, 36, false, none, []⟩, ⟨"\x7d", 36, 37, false, none, []⟩]⟩]⟩

def twinAttributeTree : SourceTree := ⟨⟨"source_file", 0, 37, true, none, [twinAttributeNode]⟩, false⟩

end Sample

open Sample in
/-- A second marker of an expanded declaration is in no removed range and stays in front of it. -/
theorem second_marker_stays :
    LanguageKit.swift.dialect.WellFormed twinAttributeSource twinAttributeTree.root ∧
      LanguageKit.swift.dialect.AttributesPlain twinAttributeTree.root ∧
      twinAttribute 11 25 ∈ LanguageKit.swift.dialect.markersOf (encode twinAttributeSource) "Buildable"
        twinAttributeNode ∧
      ∃ e edits, LanguageKit.swift.expandTree twinAttributeSource twinAttributeTree {} = .ok e ∧
        LanguageKit.swift.edits? twinAttributeSource twinAttributeTree {} = some edits ∧ e.expanded = ["A"] ∧
        (∀ x ∈ edits, ¬Dialect.Removes twinAttributeSource (twinAttribute 11 25) x) ∧
        e.source = "@Lib.Buildable struct A \x7b\n    init() \x7b\n    \x7d\n\x7d".toList := by
  have wf : LanguageKit.swift.dialect.WellFormed twinAttributeSource twinAttributeTree.root := by decide +kernel
  have hmarkers : LanguageKit.swift.dialect.MarkersApart twinAttributeSource twinAttributeTree.root "Buildable" :=
    Dialect.markersApart_of_plain (by decide +kernel)
  have hsecond : twinAttribute 11 25 ∈ LanguageKit.swift.dialect.markersOf (encode twinAttributeSource) "Buildable"
      twinAttributeNode :=
    List.mem_filter.mpr ⟨by simp [Tree.Heading.attributes, Tree.Heading.modifierParts, Node.childrenOf,
      twinAttributeNode, twinAttribute, LanguageKit.swift, Tree.SwiftTree.dialect, Tree.SwiftTree.heading],
      by decide +kernel⟩
  refine ⟨wf, by decide +kernel, hsecond, ?_⟩
  have hexpanded : (LanguageKit.swift.expandTree twinAttributeSource twinAttributeTree {}).toOption.any
      (·.expanded = ["A"]) = true := by decide +kernel
  obtain ⟨e, he, hname⟩ := (Option.any_eq_true _ _).mp hexpanded
  obtain ⟨pairs, hedits, hs⟩ :=
    LanguageKit.exists_splices (Or.inl rfl) (wf.recovered _) hmarkers (Tree.eq_ok_of_toOption he)
  have hrun : (LanguageKit.swift.edits? twinAttributeSource twinAttributeTree {}).any (fun edits =>
      (∀ x ∈ edits, ¬Dialect.Removes twinAttributeSource (twinAttribute 11 25) x) ∧
        Edit.atOnce twinAttributeSource edits =
          "@Lib.Buildable struct A \x7b\n    init() \x7b\n    \x7d\n\x7d".toList) = true := by decide +kernel
  rw [hedits, Option.any_some, decide_eq_true_eq, ← hs.result_eq_atOnce] at hrun
  exact ⟨e, _, Tree.eq_ok_of_toOption he, hedits, of_decide_eq_true hname, hrun⟩

end Recordsmith
