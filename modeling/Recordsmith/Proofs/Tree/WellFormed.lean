import Recordsmith.Proofs.Text.Utf8
import Recordsmith.Proofs.Tree.Order
import Recordsmith.Text.Blank
import Recordsmith.Tree.Dialect

/-!
Well-formed trees: what a grammar promises of the tree of a source without errors. From it follows where the parts of a
declaration stand in the source, counted in characters, and how two declarations of a tree lie to each other.
-/

namespace Recordsmith.Tree

open Text.Utf8 (IsBoundary charOffset encode)

/-! ### Nodes on a source -/

/-- An ordered node whose ends fall between characters of the source. -/
structure Node.IsPlaced (source : List Char) (n : Node) : Prop extends n.IsOrdered where
  start_boundary : IsBoundary source n.start
  stop_boundary : IsBoundary source n.stop

/-- A tree all of whose nodes are placed on the source. -/
def Placed (source : List Char) (root : Node) : Prop := ∀ n ∈ root.preorder, n.IsPlaced source

/-- A node that stands between two braces, its first and its last child. -/
structure Node.IsBraced (source : List Char) (n : Node) : Prop where
  two_le : 2 ≤ n.children.length
  opening : ∃ c ∈ n.children.head?, c.start = n.start ∧ c.text (encode source) = .ok "\x7b"
  closing : ∃ c ∈ n.children.getLast?, c.stop = n.stop ∧ c.text (encode source) = .ok "\x7d"

/-- A node whose text starts with a character that is not blank. -/
def Node.StartsSolid (source : List Char) (n : Node) : Prop :=
  ∃ c ∈ (n.text (encode source)).toOption.bind (·.toList.head?), Text.isBlank c = false

/-- A node that declares a type with this body. -/
structure Dialect.Declares (d : Dialect) (n body : Node) : Prop where
  aggregate : (d.aggregate? n).isSome = true
  name : (n.child? "name").isSome = true
  body : n.child? "body" = some body

/-- The tree of a source without errors: nodes are nested and ordered and end between characters, the modifiers of a
    declaration come before its body, bodies stand between braces, and attributes do not start with a blank. -/
structure Dialect.WellFormed (d : Dialect) (source : List Char) (root : Node) : Prop where
  placed : ∀ n ∈ root.preorder, n.IsPlaced source
  headFirst : ∀ n ∈ root.preorder, ∀ body, d.Declares n body → ∀ m ∈ n.childrenOf "modifiers", m.stop ≤ body.start
  braced : ∀ n ∈ root.preorder, ∀ body, d.Declares n body → body.IsBraced source
  attributes : ∀ n ∈ root.preorder, ∀ body, d.Declares n body → ∀ mark ∈ d.attributes n, mark.StartsSolid source

/-! ### Checking a tree -/

section Decidable
variable {d : Dialect} {source : List Char} {root n : Node}

instance : Decidable n.IsOrdered :=
  decidable_of_iff (n.start ≤ n.stop ∧ (∀ c ∈ n.children, n.start ≤ c.start ∧ c.stop ≤ n.stop) ∧
      n.children.Pairwise fun a b => a.stop ≤ b.start)
    ⟨fun ⟨h1, h2, h3⟩ => ⟨h1, h2, h3⟩, fun ⟨h1, h2, h3⟩ => ⟨h1, h2, h3⟩⟩

instance : Decidable (n.IsPlaced source) :=
  decidable_of_iff (n.IsOrdered ∧ IsBoundary source n.start ∧ IsBoundary source n.stop)
    ⟨fun ⟨h1, h2, h3⟩ => ⟨h1, h2, h3⟩, fun ⟨h1, h2, h3⟩ => ⟨h1, h2, h3⟩⟩

instance : Decidable (n.IsBraced source) :=
  decidable_of_iff (2 ≤ n.children.length ∧
      (∃ c ∈ n.children.head?, c.start = n.start ∧ c.text (encode source) = .ok "\x7b") ∧
      ∃ c ∈ n.children.getLast?, c.stop = n.stop ∧ c.text (encode source) = .ok "\x7d")
    ⟨fun ⟨h1, h2, h3⟩ => ⟨h1, h2, h3⟩, fun ⟨h1, h2, h3⟩ => ⟨h1, h2, h3⟩⟩

instance : Decidable (n.StartsSolid source) := Option.decidableExistsMem _

/-- At most one body is declared, so it can be looked at. -/
instance {P : Node → Prop} [DecidablePred P] : Decidable (∀ body, d.Declares n body → P body) :=
  decidable_of_iff (∀ body ∈ n.child? "body", (d.aggregate? n).isSome = true → (n.child? "name").isSome = true → P body)
    ⟨fun h body hd => h body hd.body hd.aggregate hd.name, fun h body hb ha hn => h body ⟨ha, hn, hb⟩⟩

instance : Decidable (d.WellFormed source root) :=
  decidable_of_iff ((∀ n ∈ root.preorder, n.IsPlaced source) ∧
      (∀ n ∈ root.preorder, ∀ body, d.Declares n body → ∀ m ∈ n.childrenOf "modifiers", m.stop ≤ body.start) ∧
      (∀ n ∈ root.preorder, ∀ body, d.Declares n body → body.IsBraced source) ∧
      ∀ n ∈ root.preorder, ∀ body, d.Declares n body → ∀ mark ∈ d.attributes n, mark.StartsSolid source)
    ⟨fun ⟨h1, h2, h3, h4⟩ => ⟨h1, h2, h3, h4⟩, fun ⟨h1, h2, h3, h4⟩ => ⟨h1, h2, h3, h4⟩⟩

end Decidable

/-! ### Texts of nodes -/

section Placed
variable {source : List Char} {n : Node}

theorem eq_ok_of_toOption {ε α : Type} {x : Except ε α} {a : α} (h : x.toOption = some a) : x = .ok a := by
  cases x with
  | error e => cases h
  | ok a' => exact congrArg Except.ok (Option.some.inj h)

theorem Node.StartsSolid.text_eq (h : n.StartsSolid source) :
    ∃ c rest, n.text (encode source) = .ok (String.ofList (c :: rest)) ∧ Text.isBlank c = false := by
  obtain ⟨c, hc, hsolid⟩ := h
  obtain ⟨text, htext, hhead⟩ := Option.bind_eq_some_iff.mp hc
  obtain ⟨rest, hrest⟩ := List.head?_eq_some_iff.mp hhead
  refine ⟨c, rest, ?_, hsolid⟩
  rw [← hrest, String.ofList_toList]
  exact eq_ok_of_toOption htext

theorem Node.IsBraced.children_eq (h : n.IsBraced source) :
    ∃ (opening : Node) (inner : List Node) (closing : Node), n.children = opening :: inner ++ [closing] ∧
      (opening.start = n.start ∧ opening.text (encode source) = .ok "\x7b") ∧
      (closing.stop = n.stop ∧ closing.text (encode source) = .ok "\x7d") := by
  obtain ⟨htwo, ⟨opening, hopening, ho⟩, closing, hclosing, hc⟩ := h
  obtain ⟨rest, hrest⟩ := List.head?_eq_some_iff.mp hopening
  obtain ⟨front, hfront⟩ := List.getLast?_eq_some_iff.mp hclosing
  cases front with
  | nil =>
    rw [hfront] at htwo
    simp at htwo
  | cons first inner =>
    obtain rfl : first = opening := (List.cons.inj (hfront.symm.trans hrest)).1
    exact ⟨first, inner, closing, hfront, ho, hc⟩

theorem Node.IsPlaced.offset_le (h : n.IsPlaced source) : charOffset source n.start ≤ charOffset source n.stop :=
  (h.start_boundary.charOffset_le_iff h.stop_boundary).mpr h.start_le_stop

theorem Node.IsPlaced.text_eq (h : n.IsPlaced source) : n.text (encode source) = .ok (String.ofList
    ((source.drop (charOffset source n.start)).take (charOffset source n.stop - charOffset source n.start))) := by
  unfold Node.text
  rw [h.start_boundary.decode_between h.stop_boundary h.start_le_stop]
  rfl

/-- The first character of a node's text stands at the offset of its start. -/
theorem Node.IsPlaced.of_text_cons (h : n.IsPlaced source) {c : Char} {rest : List Char}
    (ht : n.text (encode source) = .ok (String.ofList (c :: rest))) :
    source[charOffset source n.start]? = some c ∧
      charOffset source n.stop = charOffset source n.start + rest.length + 1 := by
  have hslice := String.ofList_injective (Except.ok.inj (h.text_eq.symm.trans ht))
  have hlen := congrArg List.length hslice
  have hle := h.offset_le
  have hin := h.stop_boundary.charOffset_le_length
  rw [List.length_take, List.length_drop, List.length_cons] at hlen
  have hfirst := congrArg (·[0]?) hslice
  rw [List.getElem?_take_of_lt (by omega), List.getElem?_drop] at hfirst
  exact ⟨by simpa using hfirst, by omega⟩

end Placed

/-! ### The parts of a declaration -/

/-- Where the body of a declaration stands, in characters. -/
structure BodyPlace (source : List Char) (n body : Node) : Prop where
  start_le : charOffset source n.start ≤ charOffset source body.start
  opening : source[charOffset source body.start]? = some '\x7b'
  opening_lt : charOffset source body.start + 1 < charOffset source body.stop
  closing : source[charOffset source body.stop - 1]? = some '\x7d'
  stop_le : charOffset source body.stop ≤ charOffset source n.stop

/-- Where the marker of a declaration stands, in characters. -/
structure MarkPlace (source : List Char) (n body mark : Node) : Prop where
  start_le : charOffset source n.start ≤ charOffset source mark.start
  first : ∃ c, source[charOffset source mark.start]? = some c ∧ Text.isBlank c = false
  start_lt : charOffset source mark.start < charOffset source mark.stop
  stop_le : charOffset source mark.stop ≤ charOffset source body.start

namespace Dialect

theorem Declares.body_mem {d : Dialect} {n body : Node} (h : d.Declares n body) : body ∈ n.children :=
  List.mem_of_find?_eq_some h.body

theorem findAttribute_eq_some {d : Dialect} {bytes : List UInt8} {name : String} {marks : List Node} {mark : Node}
    (h : d.findAttribute bytes name marks = .ok (some mark)) :
    mark ∈ marks ∧ d.attributeName bytes mark = .ok name := by
  induction marks with
  | nil => cases h
  | cons first rest ih =>
    cases hname : d.attributeName bytes first with
    | error e =>
      simp only [findAttribute, hname, bind, Except.bind] at h
      cases h
    | ok found =>
      simp only [findAttribute, hname, bind, Except.bind] at h
      by_cases heq : found = name
      · rw [if_pos heq] at h
        obtain rfl : first = mark := Option.some.inj (Except.ok.inj h)
        exact ⟨List.mem_cons_self .., heq ▸ hname⟩
      · rw [if_neg heq] at h
        exact ⟨List.mem_cons_of_mem _ (ih h).1, (ih h).2⟩

theorem mem_attributes_of_markerOf {d : Dialect} {bytes : List UInt8} {marker : String} {n mark : Node}
    (h : d.markerOf bytes marker n = .ok (some mark)) : mark ∈ d.attributes n := by
  unfold markerOf at h
  split at h
  · cases h
  · exact (findAttribute_eq_some h).1

theorem mem_attributes {d : Dialect} {n mark : Node} (h : mark ∈ d.attributes n) :
    ∃ m ∈ n.children, m.kind = "modifiers" ∧ mark ∈ m.children := by
  obtain ⟨m, hm, hmark⟩ := List.mem_flatMap.mp (List.mem_filter.mp h).1
  obtain ⟨hchild, hkind⟩ := List.mem_filter.mp hm
  exact ⟨m, hchild, by simpa using hkind, hmark⟩

theorem mem_preorder_of_mem_attributes {d : Dialect} {root n mark : Node} (hn : n ∈ root.preorder)
    (h : mark ∈ d.attributes n) : mark ∈ root.preorder := by
  obtain ⟨m, hm, -, hmark⟩ := mem_attributes h
  exact Node.mem_preorder_of_child (Node.mem_preorder_of_child hn hm) hmark

end Dialect

/-! ### Two nodes of a placed tree -/

namespace Placed
variable {d : Dialect} {source : List Char} {root n m body mark : Node}

theorem ordered (hp : Placed source root) : ∀ x ∈ root.preorder, x.IsOrdered :=
  fun x hx => (hp x hx).toIsOrdered

theorem range (hp : Placed source root) (hn : n ∈ root.preorder) (hm : m ∈ n.preorder) :
    n.start ≤ m.start ∧ m.stop ≤ n.stop := by
  obtain ⟨hstart, -, hstop⟩ :=
    Node.range_of_mem_preorder (fun x hx => hp.ordered x (Node.mem_preorder_trans hx hn)) hm
  exact ⟨hstart, hstop⟩

/-- A node below another lies inside it, in characters too. -/
theorem offset_range (hp : Placed source root) (hn : n ∈ root.preorder) (hm : m ∈ n.preorder) :
    charOffset source n.start ≤ charOffset source m.start ∧ charOffset source m.stop ≤ charOffset source n.stop := by
  have hplaced := hp n hn
  have hplaced' := hp m (Node.mem_preorder_trans hm hn)
  obtain ⟨hstart, hstop⟩ := hp.range hn hm
  exact ⟨(hplaced.start_boundary.charOffset_le_iff hplaced'.start_boundary).mpr hstart,
    (hplaced'.stop_boundary.charOffset_le_iff hplaced.stop_boundary).mpr hstop⟩

theorem offset_le (hp : Placed source root) (hn : n ∈ root.preorder) (hm : m ∈ root.preorder)
    (h : n.stop ≤ m.start) : charOffset source n.stop ≤ charOffset source m.start :=
  ((hp n hn).stop_boundary.charOffset_le_iff (hp m hm).start_boundary).mpr h

/-- Of two nodes of the preorder, the second comes after the body that the first declares, or is in it, or stands in
    front of it. -/
theorem before_cases (hp : Placed source root) (hn : n ∈ root.preorder) (hd : d.Declares n body)
    (h : n.Before m) :
    body.stop ≤ m.start ∨ m ∈ body.preorder ∨ ∃ c ∈ n.children, m ∈ c.preorder ∧ c.stop ≤ body.start := by
  have hordered := hp.ordered n hn
  rcases h with ⟨c, hc, hm⟩ | hafter
  · rcases hordered.children_cases hc hd.body_mem with rfl | hfront | hback
    · exact Or.inr (Or.inl hm)
    · exact Or.inr (Or.inr ⟨c, hc, hm, hfront⟩)
    · exact Or.inl (Nat.le_trans hback (hp.range (Node.mem_preorder_of_child hn hc) hm).1)
  · exact Or.inl (Nat.le_trans (hordered.inside body hd.body_mem).2 hafter)

/-- A node below a declaration, other than its modifier lists, is inside an attribute of the declaration, or before it,
    or after it. -/
theorem attribute_cases (hp : Placed source root) (hn : n ∈ root.preorder) (hmark : mark ∈ d.attributes n)
    {c : Node} (hc : c ∈ n.children) (hm : m ∈ c.preorder) (hkind : m.kind ≠ "modifiers") :
    m ∈ mark.preorder ∨ m.stop ≤ mark.start ∨ mark.stop ≤ m.start := by
  obtain ⟨list, hlist, hlistKind, hmem⟩ := Dialect.mem_attributes hmark
  have hcRoot := Node.mem_preorder_of_child hn hc
  have hlistOrdered := hp.ordered list (Node.mem_preorder_of_child hn hlist)
  obtain ⟨hmarkStart, hmarkStop⟩ := hlistOrdered.inside mark hmem
  obtain ⟨hstart, hstop⟩ := hp.range hcRoot hm
  rcases (hp.ordered n hn).children_cases hc hlist with rfl | hfront | hback
  · rcases Node.mem_preorder_iff.mp hm with rfl | ⟨part, hpart, hm⟩
    · exact absurd hlistKind hkind
    · obtain ⟨hstart, hstop⟩ := hp.range (Node.mem_preorder_of_child hcRoot hpart) hm
      rcases hlistOrdered.children_cases hpart hmem with rfl | hfront | hback
      · exact Or.inl hm
      · exact Or.inr (Or.inl (Nat.le_trans hstop hfront))
      · exact Or.inr (Or.inr (Nat.le_trans hback hstart))
  · exact Or.inr (Or.inl (Nat.le_trans hstop (Nat.le_trans hfront hmarkStart)))
  · exact Or.inr (Or.inr (Nat.le_trans hmarkStop (Nat.le_trans hback hstart)))

/-- Where an attribute of a declaration stands that comes before the body. -/
theorem markPlace (hp : Placed source root) (hn : n ∈ root.preorder) (hd : d.Declares n body)
    (hmark : mark ∈ d.attributes n) (hhead : mark.stop ≤ body.start) (hsolid : mark.StartsSolid source) :
    MarkPlace source n body mark := by
  obtain ⟨list, hlist, -, hmem⟩ := Dialect.mem_attributes hmark
  have hmarkRoot := Dialect.mem_preorder_of_mem_attributes hn hmark
  have hstart := (hp.offset_range hn (Node.mem_preorder_child hlist
    (Node.mem_preorder_child hmem mark.self_mem_preorder))).1
  obtain ⟨c, rest, htext, hblank⟩ := hsolid.text_eq
  obtain ⟨hfirst, hlast⟩ := (hp mark hmarkRoot).of_text_cons htext
  exact {
    start_le := hstart
    first := ⟨c, hfirst, hblank⟩
    start_lt := by omega
    stop_le := hp.offset_le hmarkRoot (Node.mem_preorder_of_child hn hd.body_mem) hhead }

end Placed

namespace Dialect.WellFormed
variable {d : Dialect} {source : List Char} {root n m body mark : Node}

/-- What the braces of a body are: the opening one at its start, the closing one at its end, in this order. -/
theorem braces (wf : d.WellFormed source root) (hn : n ∈ root.preorder) (hd : d.Declares n body) :
    ∃ (opening : Node) (inner : List Node) (closing : Node), body.children = opening :: inner ++ [closing] ∧
      opening.start = body.start ∧ closing.stop = body.stop ∧ opening.stop ≤ closing.start ∧
      (source[charOffset source opening.start]? = some '\x7b' ∧
        charOffset source opening.stop = charOffset source opening.start + 1) ∧
      (source[charOffset source closing.start]? = some '\x7d' ∧
        charOffset source closing.stop = charOffset source closing.start + 1) := by
  obtain ⟨opening, inner, closing, hchildren, ⟨hos, hot⟩, hcs, hct⟩ := (wf.braced n hn body hd).children_eq
  have hbody := Node.mem_preorder_of_child hn hd.body_mem
  have hopening : opening.IsPlaced source :=
    wf.placed opening (Node.mem_preorder_of_child hbody (by simp [hchildren]))
  have hclosing : closing.IsPlaced source :=
    wf.placed closing (Node.mem_preorder_of_child hbody (by simp [hchildren]))
  have hsib := (Placed.ordered wf.placed body hbody).siblings
  rw [hchildren, List.cons_append, List.pairwise_cons] at hsib
  have hot' : opening.text (encode source) = .ok (String.ofList ['\x7b']) := hot
  have hct' : closing.text (encode source) = .ok (String.ofList ['\x7d']) := hct
  exact ⟨opening, inner, closing, hchildren, hos, hcs, hsib.1 closing (by simp), hopening.of_text_cons hot',
    hclosing.of_text_cons hct'⟩

theorem bodyPlace (wf : d.WellFormed source root) (hn : n ∈ root.preorder) (hd : d.Declares n body) :
    BodyPlace source n body := by
  obtain ⟨opening, inner, closing, hchildren, hos, hcs, hoc, ⟨hopen, hostop⟩, hclose, hcstop⟩ := wf.braces hn hd
  have hbody := Node.mem_preorder_of_child hn hd.body_mem
  obtain ⟨hstart, hstop⟩ := Placed.offset_range wf.placed hn (Node.mem_preorder_child hd.body_mem body.self_mem_preorder)
  have hgap : charOffset source opening.stop ≤ charOffset source closing.start :=
    Placed.offset_le wf.placed (Node.mem_preorder_of_child hbody (by simp [hchildren]))
      (Node.mem_preorder_of_child hbody (by simp [hchildren])) hoc
  rw [hos] at hopen hostop
  rw [hcs] at hcstop
  exact {
    start_le := hstart
    opening := hopen
    opening_lt := by omega
    closing := by rw [hcstop, Nat.add_sub_cancel]; exact hclose
    stop_le := hstop }

theorem attribute_stop_le (wf : d.WellFormed source root) (hn : n ∈ root.preorder) (hd : d.Declares n body)
    (hmark : mark ∈ d.attributes n) : mark.stop ≤ body.start := by
  obtain ⟨list, hlist, hkind, hmem⟩ := mem_attributes hmark
  have hin := (Placed.ordered wf.placed list (Node.mem_preorder_of_child hn hlist)).inside mark hmem
  exact Nat.le_trans hin.2 (wf.headFirst n hn body hd list (List.mem_filter.mpr ⟨hlist, by simpa using hkind⟩))

theorem markPlace (wf : d.WellFormed source root) (hn : n ∈ root.preorder) (hd : d.Declares n body)
    (hmark : mark ∈ d.attributes n) : MarkPlace source n body mark :=
  Placed.markPlace wf.placed hn hd hmark (wf.attribute_stop_le hn hd hmark) (wf.attributes n hn body hd mark hmark)

/-- A declaration inside the body of another closes before it. -/
theorem stop_lt_of_mem_body (wf : d.WellFormed source root) (hn : n ∈ root.preorder) (hd : d.Declares n body)
    {inner innerBody : Node} (hi : d.Declares inner innerBody) (hmem : inner ∈ body.preorder) :
    charOffset source innerBody.stop < charOffset source body.stop := by
  have hbody := Node.mem_preorder_of_child hn hd.body_mem
  have hinner : inner ∈ root.preorder := Node.mem_preorder_trans hmem hbody
  have hinnerBody := Node.mem_preorder_of_child hinner hi.body_mem
  have place := wf.bodyPlace hinner hi
  obtain ⟨opening, rest, closing, hchildren, -, hcs, -, -, hclose, hcstop⟩ := wf.braces hn hd
  rw [hcs] at hcstop
  -- The inner body lies below a child of the outer one: the closing brace has no room for it, any other child ends
  -- before that brace.
  have hchild : ∃ c ∈ body.children, innerBody ∈ c.preorder := by
    rcases Node.mem_preorder_iff.mp hmem with rfl | ⟨c, hc, hic⟩
    · exact ⟨innerBody, hi.body_mem, innerBody.self_mem_preorder⟩
    · exact ⟨c, hc, Node.mem_preorder_trans (Node.mem_preorder_child hi.body_mem innerBody.self_mem_preorder) hic⟩
  obtain ⟨c, hc, hic⟩ := hchild
  have hcRoot := Node.mem_preorder_of_child hbody hc
  have hclosing : closing ∈ root.preorder := Node.mem_preorder_of_child hbody (by simp [hchildren])
  have hsib := (Placed.ordered wf.placed body hbody).siblings
  rw [hchildren] at hc hsib
  rcases List.mem_append.mp hc with hc | hc
  · have hbefore : c.stop ≤ closing.start := (List.pairwise_append.mp hsib).2.2 c hc closing (by simp)
    have := Placed.offset_le wf.placed hinnerBody hclosing (Nat.le_trans (Placed.range wf.placed hcRoot hic).2 hbefore)
    omega
  · obtain rfl : c = closing := by simpa using hc
    obtain ⟨hstart, hstop⟩ := Placed.offset_range wf.placed hcRoot hic
    have := place.opening_lt
    rw [hcs] at hstop
    omega

end Dialect.WellFormed

end Recordsmith.Tree
