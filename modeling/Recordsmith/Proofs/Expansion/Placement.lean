import Recordsmith.Proofs.Expansion.Edits
import Recordsmith.Proofs.Expansion.Treatment
import Recordsmith.Proofs.Text.Blanks
import Recordsmith.Registry

/-!
Where the edits of an expansion stand. Each of them belongs to a marked declaration: it removes the marker, or it
replaces the end of the body. For their places it does not matter that a source is free of errors. In a recovered tree
the edits lie in the source, and those of two declarations are apart unless one stands inside the marker of the other.
-/

namespace Recordsmith

open Text.Utf8 (encode charOffset)
open Recordsmith.Tree (Node Dialect SourceTree BodyPlace MarkPlace Placed)

namespace Tree.Dialect

/-- A node that declares a type for which members are generated. -/
def DeclaresRecord (d : Dialect) (n : Node) : Prop := d.aggregate? n = some .value ∨ d.aggregate? n = some .reference

/-- No marked declaration stands inside the marker of another. -/
def MarkersApart (d : Dialect) (source : List Char) (root : Node) (marker : String) : Prop :=
  ∀ n ∈ root.preorder, ∀ body mark, d.Marked (encode source) marker n body mark →
    ∀ inner ∈ mark.preorder, ∀ innerBody innerMark, ¬d.Marked (encode source) marker inner innerBody innerMark

/-- A position inside the marker of a declaration. -/
def InMarker (d : Dialect) (source : List Char) (root : Node) (marker : String) (i : Nat) : Prop :=
  ∃ n ∈ root.preorder, ∃ body mark, d.Marked (encode source) marker n body mark ∧
    charOffset source mark.start ≤ i ∧ i < charOffset source mark.stop

/-- A marked record below a node that does not reach over a body ends before that body does, with a visible
    character. -/
def EndsBefore (d : Dialect) (source : List Char) (marker : String) (top body : Node) : Prop :=
  ∀ n ∈ top.preorder, ∀ inner mark, d.Marked (encode source) marker n inner mark → d.DeclaresRecord n →
    inner.stop ≤ body.stop → charOffset source inner.stop < charOffset source body.stop ∧
      Text.IsVisible source (charOffset source inner.stop - 1)

/-- What is left of a well-formed tree when a source breaks its grammar. Nodes are nested and ordered and end between
    characters. The marker of a declaration does not start with a blank and comes before the body, and something visible
    stands between it and the last character of the body. Of two marked records, the inner one ends before the body of
    the outer one. Whether a body ends with a brace is left open. Two marked records that both lack their brace, one
    inside the other, are left out: their bodies end at the same place, where the members of both would go. -/
structure Recovered (d : Dialect) (source : List Char) (root : Node) (marker : String) : Prop where
  placed : Placed source root
  solid : ∀ n ∈ root.preorder, ∀ body mark, d.Marked (encode source) marker n body mark → mark.StartsSolid source
  headFirst : ∀ n ∈ root.preorder, ∀ body mark, d.Marked (encode source) marker n body mark → mark.stop ≤ body.start
  visible : ∀ n ∈ root.preorder, ∀ body mark, d.Marked (encode source) marker n body mark →
    ∃ i < charOffset source body.stop - 1, charOffset source mark.stop ≤ i ∧ Text.IsVisible source i
  inner : ∀ n ∈ root.preorder, ∀ body mark, d.Marked (encode source) marker n body mark → d.DeclaresRecord n →
    ∀ c ∈ n.children, d.EndsBefore source marker c body

section Decidable
variable {d : Dialect} {source : List Char} {bytes : List UInt8} {root n : Node} {marker : String} {i : Nat}

instance : Decidable (d.DeclaresRecord n) := inferInstanceAs (Decidable (_ ∨ _))

/-- At most one body and one marker are there, so they can be looked at. -/
instance {P : Node → Node → Prop} [∀ body mark, Decidable (P body mark)] :
    Decidable (∀ body mark, d.Marked bytes marker n body mark → P body mark) :=
  decidable_of_iff (∀ body ∈ n.child? "body", ∀ mark ∈ (d.markerOf bytes marker n).toOption.join,
      (d.aggregate? n).isSome = true → (n.child? "name").isSome = true → P body mark)
    ⟨fun h body mark hm => h body hm.body mark (by rw [hm.marks]; rfl) hm.aggregate hm.name,
      fun h body hb mark hm ha hn => h body mark
        ⟨⟨ha, hn, hb⟩, Tree.eq_ok_of_toOption (Option.join_eq_some_iff.mp hm)⟩⟩

instance : Decidable (d.InMarker source root marker i) :=
  decidable_of_iff (¬∀ n ∈ root.preorder, ∀ body mark, d.Marked (encode source) marker n body mark →
      ¬(charOffset source mark.start ≤ i ∧ i < charOffset source mark.stop))
    (by simp only [InMarker]; push Not; rfl)

instance {body : Node} : Decidable (d.EndsBefore source marker n body) :=
  inferInstanceAs (Decidable (∀ m ∈ n.preorder, ∀ inner mark, d.Marked (encode source) marker m inner mark → _))

instance : Decidable (d.Recovered source root marker) :=
  decidable_of_iff ((∀ n ∈ root.preorder, n.IsPlaced source) ∧
      (∀ n ∈ root.preorder, ∀ body mark, d.Marked (encode source) marker n body mark → mark.StartsSolid source) ∧
      (∀ n ∈ root.preorder, ∀ body mark, d.Marked (encode source) marker n body mark → mark.stop ≤ body.start) ∧
      (∀ n ∈ root.preorder, ∀ body mark, d.Marked (encode source) marker n body mark →
        ∃ i < charOffset source body.stop - 1, charOffset source mark.stop ≤ i ∧ Text.IsVisible source i) ∧
      ∀ n ∈ root.preorder, ∀ body mark, d.Marked (encode source) marker n body mark → d.DeclaresRecord n →
        ∀ c ∈ n.children, d.EndsBefore source marker c body)
    ⟨fun ⟨h1, h2, h3, h4, h5⟩ => ⟨h1, h2, h3, h4, h5⟩, fun ⟨h1, h2, h3, h4, h5⟩ => ⟨h1, h2, h3, h4, h5⟩⟩

end Decidable

/-! ### The edits of one declaration -/

variable {d : Dialect} {source : List Char} {root n body mark : Node} {marker : String}

/-- Where the marker and the body of a declaration stand, in characters, so that both can be edited. -/
structure EditPlace (source : List Char) (n body mark : Node) : Prop extends MarkPlace source n body mark where
  visible : ∃ i, charOffset source mark.stop ≤ i ∧ i + 1 < charOffset source body.stop ∧ Text.IsVisible source i
  bodyStop_le : charOffset source body.stop ≤ charOffset source n.stop
  inSource : charOffset source body.stop ≤ source.length

theorem Recovered.editPlace (hr : d.Recovered source root marker) (hn : n ∈ root.preorder)
    (hm : d.Marked (encode source) marker n body mark) : EditPlace source n body mark := by
  have hbody := Node.mem_preorder_of_child hn hm.toDeclares.body_mem
  obtain ⟨i, hi, hlow, hvisible⟩ := hr.visible n hn body mark hm
  exact {
    toMarkPlace := hr.placed.markPlace hn hm.toDeclares (mem_attributes_of_markerOf hm.marks)
      (hr.headFirst n hn body mark hm) (hr.solid n hn body mark hm)
    visible := ⟨i, hlow, by omega, hvisible⟩
    bodyStop_le := (hr.placed.offset_range hn
      (Node.mem_preorder_child hm.toDeclares.body_mem body.self_mem_preorder)).2
    inSource := (hr.placed body hbody).stop_boundary.charOffset_le_length }

theorem EditPlace.stop_pos (p : EditPlace source n body mark) : 0 < charOffset source body.stop := by
  obtain ⟨i, -, hi, -⟩ := p.visible
  omega

/-- How many characters stand before the last character of a body and the blanks in front of it. -/
def headLength (source : List Char) (body : Node) : Nat :=
  (Text.trimEnd (source.take (charOffset source body.stop - 1))).length

/-- An edit that removes the marker, or one that replaces the last character of a record's body with the blanks in front
    of it by a text that ends with a closing brace. -/
def IsEditOf (d : Dialect) (source : List Char) (n body mark : Node) (e : Edit) : Prop :=
  e = removal source mark ∨
    d.DeclaresRecord n ∧ e.start = headLength source body ∧ e.stop = charOffset source body.stop ∧
      ['\x7d'].Sublist e.replacement

/-- A visible character in front of the last one of a body is before the edit of that end. -/
theorem lt_headLength {i : Nat} (hi : i + 1 < charOffset source body.stop) (hv : Text.IsVisible source i) :
    i < headLength source body := by
  obtain ⟨c, hc, hb⟩ := hv
  refine Text.lt_length_trimEnd ?_ hb
  rw [List.getElem?_take_of_lt (by omega)]
  exact hc

theorem headLength_lt (h : 0 < charOffset source body.stop) : headLength source body < charOffset source body.stop := by
  have hle := Text.length_trimEnd_le (source.take (charOffset source body.stop - 1))
  rw [List.length_take] at hle
  unfold headLength
  omega

theorem isBlank_of_headLength_le {i : Nat} (hlow : headLength source body ≤ i)
    (hhigh : i + 1 < charOffset source body.stop) (hlen : i < source.length) :
    ∃ c, source[i]? = some c ∧ Text.isBlank c = true := by
  obtain ⟨c, hc⟩ : ∃ c, source[i]? = some c := ⟨_, List.getElem?_eq_getElem hlen⟩
  refine ⟨c, hc, Text.isBlank_of_length_trimEnd_le hlow ?_⟩
  rw [List.getElem?_take_of_lt (by omega)]
  exact hc

/-- The gap after a marker ends at a visible character in front of the last one of the body. -/
theorem EditPlace.exists_gapEnd_le (p : EditPlace source n body mark) :
    ∃ i, Text.gapEnd source (charOffset source mark.stop) ≤ i ∧ i + 1 < charOffset source body.stop ∧
      Text.IsVisible source i := by
  obtain ⟨i, hlow, hhigh, c, hc, hb⟩ := p.visible
  exact ⟨i, Text.gapEnd_le hlow hc hb, hhigh, c, hc, hb⟩

theorem EditPlace.gapEnd_lt_headLength (p : EditPlace source n body mark) :
    Text.gapEnd source (charOffset source mark.stop) < headLength source body := by
  obtain ⟨i, hgap, hi, hv⟩ := p.exists_gapEnd_le
  exact Nat.lt_of_le_of_lt hgap (lt_headLength hi hv)

/-- The edits of a declaration lie between the start of its marker and the end of its body. -/
theorem IsEditOf.bounds {e : Edit} (h : IsEditOf d source n body mark e) (p : EditPlace source n body mark) :
    (charOffset source mark.start : Int) ≤ e.start ∧ e.start < e.stop ∧ e.stop ≤ charOffset source body.stop := by
  have hmark := p.start_lt
  have hgap : charOffset source mark.stop ≤ Text.gapEnd source (charOffset source mark.stop) := Text.le_gapEnd
  have hhead := p.gapEnd_lt_headLength
  have hlt := headLength_lt p.stop_pos
  rcases h with rfl | ⟨-, hstart, hstop, -⟩
  · simp only [removal]
    omega
  · omega

theorem EditPlace.isWithin (p : EditPlace source n body mark) {e : Edit} (h : IsEditOf d source n body mark e) :
    e.IsWithin source := by
  obtain ⟨h1, h2, h3⟩ := h.bounds p
  have := p.inSource
  exact ⟨by omega, h2, by omega⟩

theorem EditPlace.removal_apart (p : EditPlace source n body mark) {e : Edit}
    (hstart : e.start = headLength source body) : (removal source mark).Apart e := by
  have hhead := p.gapEnd_lt_headLength
  refine Or.inl ?_
  simp only [removal]
  omega

theorem insertion_start (h : 0 < charOffset source body.stop) (mark? : Option Node) (rendered : List String) :
    ((d.spanOf source n body mark?).insertion source rendered).start = headLength source body := by
  have hresolve : Text.resolve source ((charOffset source body.stop : Int) - 1) = charOffset source body.stop - 1 := by
    unfold Text.resolve
    rw [if_neg (by omega)]
    omega
  simp only [Span.insertion, spanOf, Text.upTo, hresolve, headLength]

theorem insertion_stop (mark? : Option Node) (rendered : List String) :
    ((d.spanOf source n body mark?).insertion source rendered).stop = charOffset source body.stop := by
  simp only [Span.insertion, spanOf]
  omega

theorem insertion_isEditOf (hrecord : d.DeclaresRecord n) (h : 0 < charOffset source body.stop) (mark? : Option Node)
    (rendered : List String) :
    IsEditOf d source n body mark ((d.spanOf source n body mark?).insertion source rendered) := by
  refine Or.inr ⟨hrecord, insertion_start h mark? rendered, insertion_stop mark? rendered, ?_⟩
  simp only [Span.insertion, Text.withBreaks, List.flatMap_append]
  exact List.sublist_append_right ..

/-! ### What the edits of one declaration replace -/

theorem replaced_removal (hle : charOffset source mark.start ≤ charOffset source mark.stop) :
    (removal source mark).replaced source =
      (source.drop (charOffset source mark.start)).take (charOffset source mark.stop - charOffset source mark.start) ++
      (source.drop (charOffset source mark.stop)).take
        (Text.gapEnd source (charOffset source mark.stop) - charOffset source mark.stop) := by
  have hgap : charOffset source mark.stop ≤ Text.gapEnd source (charOffset source mark.stop) := Text.le_gapEnd
  have hcount : Text.gapEnd source (charOffset source mark.stop) - charOffset source mark.start =
      (charOffset source mark.stop - charOffset source mark.start) +
        (Text.gapEnd source (charOffset source mark.stop) - charOffset source mark.stop) := by omega
  simp only [Edit.replaced, removal, Int.toNat_natCast]
  rw [hcount, List.take_add, List.drop_drop, Nat.add_sub_cancel' hle]

/-- The end of a body is made of blanks and its last character. -/
theorem EditPlace.replaced_ending (p : EditPlace source n body mark) {e : Edit}
    (hstart : e.start = headLength source body) (hstop : e.stop = charOffset source body.stop) :
    ∃ blanks c, e.replaced source = blanks ++ [c] ∧ (∀ b ∈ blanks, Text.isBlank b = true) ∧
      headLength source body + blanks.length + 1 = charOffset source body.stop ∧
      source[charOffset source body.stop - 1]? = some c := by
  have hlt := headLength_lt p.stop_pos
  have hlen := p.inSource
  obtain ⟨c, hc⟩ : ∃ c, source[charOffset source body.stop - 1]? = some c :=
    ⟨_, List.getElem?_eq_getElem (by omega)⟩
  refine ⟨(source.drop (headLength source body)).take (charOffset source body.stop - 1 - headLength source body), c, ?_,
    ?_, ?_, hc⟩
  · have hcount : charOffset source body.stop - headLength source body =
        charOffset source body.stop - 1 - headLength source body + 1 := by omega
    have hend : (source.drop (headLength source body))[charOffset source body.stop - 1 - headLength source body]? =
        some c := by
      rw [List.getElem?_drop, Nat.add_sub_cancel' (by omega)]
      exact hc
    rw [Edit.replaced, hstart, hstop, Int.toNat_natCast, Int.toNat_natCast, hcount, List.take_add_one, hend]
    rfl
  · intro b hb
    obtain ⟨i, hi⟩ := List.getElem?_of_mem hb
    have hlow : i < charOffset source body.stop - 1 - headLength source body := by
      have := (List.getElem?_eq_some_iff.mp hi).1
      rw [List.length_take] at this
      omega
    rw [List.getElem?_take_of_lt hlow, List.getElem?_drop] at hi
    have hhead : headLength source body ≤ headLength source body + i := Nat.le_add_right ..
    obtain ⟨b', hb', hblank⟩ := isBlank_of_headLength_le hhead (by omega) (by omega)
    obtain rfl : b' = b := Option.some.inj (hb'.symm.trans hi)
    exact hblank
  · rw [List.length_take, List.length_drop]
    omega

/-! ### The edits of two declarations -/

/-- No modifier list declares a type. -/
def SparesModifiers (d : Dialect) : Prop := ∀ n : Node, n.kind = "modifiers" → d.aggregate? n = none

theorem swift_sparesModifiers : SwiftTree.dialect.SparesModifiers := by
  intro n hn
  simp [SwiftTree.dialect, SwiftTree.aggregate?, hn]

theorem java_sparesModifiers : JavaTree.dialect.SparesModifiers := by
  intro n hn
  simp [JavaTree.dialect, JavaTree.aggregate?, hn]

theorem SparesModifiers.kind_ne (hd : d.SparesModifiers) (h : d.Declares n body) : n.kind ≠ "modifiers" := by
  intro hkind
  have := h.aggregate
  rw [hd n hkind] at this
  cases this

variable {n' body' mark' : Node}

/-- Where the body of a record reaches over that of a declaration below it, the edits of the declaration are done before
    the end of the record. -/
theorem Recovered.stop_le_headLength (hr : d.Recovered source root marker) (hn : n ∈ root.preorder)
    (hm : d.Marked (encode source) marker n body mark) (hrecord : d.DeclaresRecord n) {c : Node} (hc : c ∈ n.children)
    (hn' : n' ∈ c.preorder) (hm' : d.Marked (encode source) marker n' body' mark') (hstop : body'.stop ≤ body.stop)
    {e' : Edit} (he' : IsEditOf d source n' body' mark' e') : e'.stop ≤ headLength source body := by
  have hnRoot' := Node.mem_preorder_trans hn' (Node.mem_preorder_of_child hn hc)
  have hoffset : charOffset source body'.stop ≤ charOffset source body.stop := by
    have hbody := hr.placed body (Node.mem_preorder_of_child hn hm.toDeclares.body_mem)
    have hbody' := hr.placed body' (Node.mem_preorder_of_child hnRoot' hm'.toDeclares.body_mem)
    exact (hbody'.stop_boundary.charOffset_le_iff hbody.stop_boundary).mpr hstop
  rcases he' with rfl | ⟨hrecord', -, hend, -⟩
  · obtain ⟨i, hgap, hi, hv⟩ := (hr.editPlace hnRoot' hm').exists_gapEnd_le
    have : i < headLength source body := lt_headLength (by omega) hv
    simp only [removal]
    omega
  · have hpos := (hr.editPlace hnRoot' hm').stop_pos
    obtain ⟨hlt, hv⟩ := hr.inner n hn body mark hm hrecord c hc n' hn' body' mark' hm' hrecord' hstop
    have : charOffset source body'.stop - 1 < headLength source body := lt_headLength (by omega) hv
    omega

/-- The edits of two declarations are apart unless the second stands inside the marker of the first. -/
theorem Recovered.apart_of_before (hr : d.Recovered source root marker) (hd : d.SparesModifiers)
    (hn : n ∈ root.preorder) (hn' : n' ∈ root.preorder) (hm : d.Marked (encode source) marker n body mark)
    (hm' : d.Marked (encode source) marker n' body' mark') (hbefore : n.Before n') (hout : n' ∉ mark.preorder)
    {e e' : Edit} (he : IsEditOf d source n body mark e) (he' : IsEditOf d source n' body' mark' e') : e.Apart e' := by
  have hattr := mem_attributes_of_markerOf hm.marks
  have hmark := mem_preorder_of_mem_attributes hn hattr
  have hbody := Node.mem_preorder_of_child hn hm.toDeclares.body_mem
  have p := hr.editPlace hn hm
  have p' := hr.editPlace hn' hm'
  obtain ⟨-, -, hstop⟩ := he.bounds p
  obtain ⟨hstart', -, hstop'⟩ := he'.bounds p'
  have hfirst' := p'.start_le
  have hlast' := p'.bodyStop_le
  -- The gap after the marker of the first ends where the marker of the second starts, if it comes after it.
  have hgap (h : mark.stop ≤ n'.start) :
      Text.gapEnd source (charOffset source mark.stop) ≤ charOffset source mark'.start := by
    obtain ⟨c, hc, hb⟩ := p'.first
    exact Text.gapEnd_le (Nat.le_trans (hr.placed.offset_le hmark hn' h) hfirst') hc hb
  rcases hr.placed.before_cases hn hm.toDeclares hbefore with hafter | hinside | ⟨c, hc, hnc, hfront⟩
  · -- The second declaration comes after the body of the first.
    have := hr.placed.offset_le hbody hn' hafter
    exact Or.inl (by omega)
  · -- It is a member of the first.
    rcases he with rfl | ⟨hrecord, hhead, -, -⟩
    · have hlow := (hr.placed.range hbody hinside).1
      have := hgap (Nat.le_trans (hr.headFirst n hn body mark hm) hlow)
      refine Or.inl ?_
      simp only [removal]
      omega
    · have hreach : body'.stop ≤ body.stop := Nat.le_trans
        (hr.placed.range hn' (Node.mem_preorder_child hm'.toDeclares.body_mem body'.self_mem_preorder)).2
        (hr.placed.range hbody hinside).2
      have := hr.stop_le_headLength hn hm hrecord hm.toDeclares.body_mem hinside hm' hreach he'
      exact Or.inr (by omega)
  · -- It stands in front of the body of the first, so the marker of the first decides.
    have hcRoot := Node.mem_preorder_of_child hn hc
    rcases he with rfl | ⟨hrecord, hhead, -, -⟩
    · rcases hr.placed.attribute_cases hn hattr hc hnc (hd.kind_ne hm'.toDeclares) with hin | hbefore | hafter
      · exact absurd hin hout
      · have := hr.placed.offset_le hn' hmark hbefore
        refine Or.inr ?_
        simp only [removal]
        omega
      · have := hgap hafter
        refine Or.inl ?_
        simp only [removal]
        omega
    · have hbodyOrdered := (hr.placed.ordered body hbody).start_le_stop
      have hreach : body'.stop ≤ body.stop := Nat.le_trans
        (hr.placed.range hn' (Node.mem_preorder_child hm'.toDeclares.body_mem body'.self_mem_preorder)).2
        (Nat.le_trans (hr.placed.range hcRoot hnc).2 (Nat.le_trans hfront hbodyOrdered))
      have := hr.stop_le_headLength hn hm hrecord hc hnc hm' hreach he'
      exact Or.inr (by omega)

end Tree.Dialect

/-! ### The edits of an expansion -/

namespace LanguageKit
variable {k : LanguageKit} {source : List Char} {config : Config} {root n body mark : Node} {r : Declaration}
  {members : List GeneratedMember} {t : Treatment}

theorem Treats.removal_mem (h : k.Treats source config n body mark r members t) :
    Dialect.removal source mark ∈ t.edits := by
  rcases h.edits with ⟨-, hedits⟩ | ⟨-, hedits⟩ <;> rw [hedits] <;> exact List.mem_cons_self ..

/-- Only records get members. -/
theorem Treats.isRecord (h : k.Treats source config n body mark r members t) (hmembers : members ≠ []) :
    r.isRecord = true := by
  by_contra hr
  have hassembled := h.assembled
  rw [Declaration.assemble, if_neg hr] at hassembled
  exact hmembers (Except.ok.inj hassembled).symm

theorem Treats.declaresRecord (h : k.Treats source config n body mark r members t) (hrecord : r.isRecord = true) :
    k.dialect.DeclaresRecord n := by
  obtain ⟨-, -, -, -, -, -, -, hkind, -⟩ := Dialect.declaration?_eq_some h.read
  simp only [Declaration.isRecord, Bool.or_eq_true, beq_iff_eq] at hrecord
  unfold Dialect.DeclaresRecord
  rw [hkind]
  rcases hrecord with hr | hr
  · exact Or.inl (congrArg some hr)
  · exact Or.inr (congrArg some hr)

/-- An edit of a declaration removes the marker or inserts the members of a record. -/
theorem Treats.edit_cases (h : k.Treats source config n body mark r members t) {e : Edit} (he : e ∈ t.edits) :
    e = Dialect.removal source mark ∨ r.isRecord = true ∧
      e = (k.dialect.spanOf source n body (some mark)).insertion source
        (k.renderer.members members r (Expansion.indentOf config.output r)) := by
  rcases h.edits with ⟨-, hedits⟩ | ⟨hmembers, hedits⟩
  · rw [hedits] at he
    exact Or.inl (List.mem_singleton.mp he)
  · rw [hedits] at he
    rcases List.mem_cons.mp he with rfl | he
    · exact Or.inl rfl
    · exact Or.inr ⟨h.isRecord hmembers, List.mem_singleton.mp he⟩

theorem Treats.isEditOf (h : k.Treats source config n body mark r members t)
    (hpos : 0 < charOffset source body.stop) : ∀ e ∈ t.edits, Dialect.IsEditOf k.dialect source n body mark e := by
  intro e he
  rcases h.edit_cases he with rfl | ⟨hrecord, rfl⟩
  · exact Or.inl rfl
  · exact Dialect.insertion_isEditOf (h.declaresRecord hrecord) hpos _ _

theorem Treats.pairwise_apart (h : k.Treats source config n body mark r members t)
    (p : Dialect.EditPlace source n body mark) : t.edits.Pairwise Edit.Apart := by
  rcases h.edits with ⟨-, hedits⟩ | ⟨-, hedits⟩
  · rw [hedits]
    exact List.pairwise_singleton ..
  · rw [hedits, List.pairwise_pair]
    exact p.removal_apart (Dialect.insertion_start p.stop_pos _ _)

namespace TreatsAll
variable {pairs : List (Node × Treatment)}

/-- Every edit belongs to a marked declaration of the tree. -/
theorem exists_editPlace (h : k.TreatsAll source config root.preorder pairs)
    (hr : k.dialect.Recovered source root config.synthesis.marker) {e : Edit} (he : e ∈ pairs.flatMap (·.2.edits)) :
    ∃ n ∈ root.preorder, ∃ body mark, k.dialect.Marked (encode source) config.synthesis.marker n body mark ∧
      Dialect.EditPlace source n body mark ∧ Dialect.IsEditOf k.dialect source n body mark e := by
  obtain ⟨p, hp, he⟩ := List.mem_flatMap.mp he
  obtain ⟨body, mark, r, members, htreats⟩ := h.treats p hp
  have hn : p.1 ∈ root.preorder := h.sublist.subset (List.mem_map_of_mem hp)
  have place := hr.editPlace hn htreats.marked
  exact ⟨p.1, hn, body, mark, htreats.marked, place, htreats.isEditOf place.stop_pos e he⟩

/-- The edits of all declarations are apart where no marked one stands inside the marker of another. -/
theorem pairwise_apart_of_recovered (h : k.TreatsAll source config root.preorder pairs)
    (hr : k.dialect.Recovered source root config.synthesis.marker) (hd : k.dialect.SparesModifiers)
    (hapart : k.dialect.MarkersApart source root config.synthesis.marker) :
    (pairs.flatMap (·.2.edits)).Pairwise Edit.Apart := by
  have hbefore : pairs.Pairwise fun p q => p.1.Before q.1 :=
    List.pairwise_map.mp ((Node.preorder_pairwise_before hr.placed.ordered).sublist h.sublist)
  have hmem : ∀ p ∈ pairs, p.1 ∈ root.preorder := fun p hp => h.sublist.subset (List.mem_map_of_mem hp)
  refine List.pairwise_flatMap.mpr ⟨fun p hp => ?_, hbefore.imp_of_mem fun {p q} hp hq hpq e he e' he' => ?_⟩
  · obtain ⟨body, mark, r, members, htreats⟩ := h.treats p hp
    exact htreats.pairwise_apart (hr.editPlace (hmem p hp) htreats.marked)
  · obtain ⟨body, mark, r, members, htreats⟩ := h.treats p hp
    obtain ⟨body', mark', r', members', htreats'⟩ := h.treats q hq
    have hout : q.1 ∉ mark.preorder := fun hin =>
      hapart p.1 (hmem p hp) body mark htreats.marked q.1 hin body' mark' htreats'.marked
    exact hr.apart_of_before hd (hmem p hp) (hmem q hq) htreats.marked htreats'.marked hpq hout
      (htreats.isEditOf (hr.editPlace (hmem p hp) htreats.marked).stop_pos e he)
      (htreats'.isEditOf (hr.editPlace (hmem q hq) htreats'.marked).stop_pos e' he')

end TreatsAll

theorem sparesModifiers (hk : k = .swift ∨ k = .java) : k.dialect.SparesModifiers := by
  rcases hk with rfl | rfl
  · exact Dialect.swift_sparesModifiers
  · exact Dialect.java_sparesModifiers

/-- The edits of the treatments lie in the source, do not touch each other, and have all been made. -/
structure Splices (k : LanguageKit) (source : List Char) (config : Config) (root : Node)
    (pairs : List (Node × Treatment)) (result : List Char) : Prop
    extends k.TreatsAll source config root.preorder pairs where
  within : ∀ e ∈ pairs.flatMap (·.2.edits), e.IsWithin source
  apart : (pairs.flatMap (·.2.edits)).Pairwise Edit.Apart
  result_eq : result = Edit.applyAll source (pairs.flatMap (·.2.edits))

theorem Splices.result_eq_atOnce {pairs : List (Node × Treatment)} {result : List Char}
    (h : k.Splices source config root pairs result) :
    result = Edit.atOnce source (pairs.flatMap (·.2.edits)) :=
  h.result_eq.trans (Edit.applyAll_eq_atOnce h.within h.apart)

/-- The edits of all marked declarations of a tree, if it can be expanded. -/
def edits? (k : LanguageKit) (source : List Char) (tree : SourceTree) (config : Config) : Option (List Edit) := do
  let declarations ← (k.dialect.extract source tree config.synthesis.marker).toOption
  let treatments ← (Expansion.treatments k.renderer source config declarations).toOption
  return treatments.flatMap (·.edits)

theorem exists_splices (hk : k = .swift ∨ k = .java) {tree : SourceTree} {x : Expansion}
    (hr : k.dialect.Recovered source tree.root config.synthesis.marker)
    (hmarkers : k.dialect.MarkersApart source tree.root config.synthesis.marker)
    (h : k.expandTree source tree config = .ok x) :
    ∃ pairs, k.edits? source tree config = some (pairs.flatMap (·.2.edits)) ∧
      k.Splices source config tree.root pairs x.source := by
  obtain ⟨declarations, pairs, hextract, htreatments, rfl, hall⟩ := expandTree_eq_ok h
  have hedits : (pairs.map (·.2)).flatMap (·.edits) = pairs.flatMap (·.2.edits) := List.flatMap_map ..
  refine ⟨pairs, ?_, hall, fun e he => ?_, hall.pairwise_apart_of_recovered hr (sparesModifiers hk) hmarkers, ?_⟩
  · rw [edits?, hextract, ← hedits]
    simp only [Except.toOption, Option.bind_eq_bind, Option.bind_some, htreatments]
    rfl
  · obtain ⟨n, -, body, mark, -, place, he⟩ := hall.exists_editPlace hr he
    exact place.isWithin he
  · rw [← hedits]
    rfl

end LanguageKit

end Recordsmith
