import Recordsmith.Proofs.Expansion.Treatment
import Recordsmith.Proofs.Text.Lines
import Recordsmith.Registry

/-!
Texts read from a tree. What a declaration says, its names and its types, is taken from the source: each of their
characters stands there, but for the spaces that join the words of a Swift type. Such a type has no other blanks.
-/

namespace Recordsmith

open Text.Utf8 (encode)
open Recordsmith.Tree (Node Dialect Placed)

/-- A declaration whose texts are made of characters of the source; types may have spaces besides. -/
structure Declaration.IsWrittenIn (source : List Char) (r : Declaration) : Prop where
  name : r.name.toList ⊆ source
  typeParameters : ∀ p ∈ r.typeParameters, p.toList ⊆ source
  memberNames : ∀ m ∈ r.members, ∀ name ∈ m.name, name.toList ⊆ source
  memberTypes : ∀ m ∈ r.members, ∀ type ∈ m.type, type.toList ⊆ ' ' :: source

namespace Tree

/-- A node over which only characters of the given text can be read. -/
def Node.ReadsWithin (bytes : List UInt8) (text : List Char) (n : Node) : Prop :=
  ∀ x ∈ n.preorder, ∀ t, x.text bytes = .ok t → t.toList ⊆ text

namespace Node.ReadsWithin
variable {bytes : List UInt8} {text : List Char} {n : Node}

theorem self (h : n.ReadsWithin bytes text) {t : String} (ht : n.text bytes = .ok t) : t.toList ⊆ text :=
  h n n.self_mem_preorder t ht

theorem child (h : n.ReadsWithin bytes text) {c : Node} (hc : c ∈ n.children) : c.ReadsWithin bytes text :=
  fun x hx => h x (Node.mem_preorder_child hc hx)

theorem role (h : n.ReadsWithin bytes text) {role : String} {c : Node} (hc : n.child? role = some c) :
    c.ReadsWithin bytes text :=
  h.child (List.mem_of_find?_eq_some hc)

theorem named (h : n.ReadsWithin bytes text) {c : Node} (hc : c ∈ n.namedChildren) : c.ReadsWithin bytes text :=
  h.child (List.mem_filter.mp hc).1

theorem text? {role : String} (h : n.ReadsWithin bytes text) {t : Option String}
    (ht : Node.text? bytes (n.child? role) = .ok t) : ∀ s ∈ t, s.toList ⊆ text := by
  cases hc : n.child? role with
  | none =>
    rw [hc] at ht
    obtain rfl := Except.ok.inj ht
    nofun
  | some c =>
    rw [hc] at ht
    obtain ⟨s, hs, rfl⟩ := map_eq_ok ht
    rintro _ ⟨⟩
    exact (h.role hc).self hs

end Node.ReadsWithin

theorem Placed.readsWithin {source : List Char} {root n : Node} (hp : Placed source root) (hn : n ∈ root.preorder) :
    n.ReadsWithin (encode source) source := by
  intro x hx t ht
  rw [(hp x (Node.mem_preorder_trans hx hn)).text_eq] at ht
  obtain rfl := Except.ok.inj ht
  rw [String.toList_ofList]
  exact fun c hc => List.mem_of_mem_drop (List.mem_of_mem_take hc)

/-! ### Swift -/

namespace SwiftTree
variable {bytes : List UInt8} {text : List Char} {node : Node}

theorem mem_of_mem_bindings {nodes : List Node} {binding : Node × List Node} (h : binding ∈ bindings nodes) :
    binding.1 ∈ nodes ∧ ∀ part ∈ binding.2, part ∈ nodes := by
  induction nodes with
  | nil => cases h
  | cons first rest ih =>
    rw [bindings] at h
    split at h
    · rcases List.mem_cons.mp h with rfl | h
      · exact ⟨List.mem_cons_self .., fun part hpart => List.mem_cons_of_mem _ ((List.takeWhile_subset _) hpart)⟩
      · exact ⟨List.mem_cons_of_mem _ (ih h).1, fun part hpart => List.mem_cons_of_mem _ ((ih h).2 part hpart)⟩
    · exact ⟨List.mem_cons_of_mem _ (ih h).1, fun part hpart => List.mem_cons_of_mem _ ((ih h).2 part hpart)⟩

/-- The characters of a type: those of its words, and the spaces between them. -/
theorem mem_annotatedType {written type : String} (h : annotatedType written = some type) {c : Char}
    (hc : c ∈ type.toList) : c = ' ' ∨ c ∈ written.toList ∧ Text.isBlank c = false := by
  unfold annotatedType at h
  split at h
  · cases h
  · obtain rfl := Option.some.inj h
    rw [String.toList_ofList] at hc
    rcases Text.mem_joinWith hc with hc | ⟨word, hword, hc⟩
    · exact Or.inl (List.mem_singleton.mp hc)
    · obtain ⟨hmem, hblank⟩ := Text.mem_splitAt (List.mem_filter.mp hword).1 hc
      exact Or.inr ⟨(List.dropWhile_subset _) hmem, hblank⟩

/-- What the members of a body node say, as read from the nodes below it. -/
theorem exists_of_mem_members {ms : List Member} (hms : members bytes node = .ok ms) {m : Member} (hm : m ∈ ms) :
    (∀ name ∈ m.name, ∀ text, node.ReadsWithin bytes text → name.toList ⊆ text) ∧
      ∀ type ∈ m.type, ∃ clause ∈ node.children, ∃ s, clause.text bytes = .ok s ∧
        annotatedType s = some type := by
  unfold members at hms
  split at hms
  · obtain ⟨modifiers, -, hms⟩ := bind_eq_ok hms
    obtain ⟨keywords, -, hms⟩ := bind_eq_ok hms
    obtain ⟨binding, hbinding, hmember⟩ := mem_of_mapM_eq_ok hms hm
    obtain ⟨hpattern, hparts⟩ := mem_of_mem_bindings hbinding
    obtain ⟨name, hname, hmember⟩ := bind_eq_ok hmember
    obtain ⟨annotations, hannotations, hmember⟩ := bind_eq_ok hmember
    obtain rfl := Except.ok.inj hmember
    constructor
    · rintro _ rfl text hreads
      unfold patternName at hname
      split at hname
      · rename_i identifier hchildren
        split at hname
        · obtain ⟨t, ht, heq⟩ := map_eq_ok hname
          obtain rfl := Option.some.inj heq
          exact ((hreads.child hpattern).named (by rw [hchildren]; exact List.mem_singleton_self _)).self ht
        · cases hname
      · cases hname
    · intro type htype
      obtain ⟨s, hs, htype⟩ := Option.bind_eq_some_iff.mp htype
      obtain ⟨clause, hclause, htext⟩ := mem_of_mapM_eq_ok hannotations (List.mem_of_getLast? hs)
      exact ⟨clause, hparts clause (List.mem_filter.mp hclause).1, s, htext, htype⟩
  · obtain ⟨name, hname, hms⟩ := bind_eq_ok hms
    obtain rfl := Except.ok.inj hms
    obtain rfl := List.mem_singleton.mp hm
    exact ⟨fun s hs text hreads => hreads.text? hname s hs, nofun⟩

theorem typeParameters_subset {ps : List String} (hps : typeParameters bytes node = .ok ps)
    (h : node.ReadsWithin bytes text) : ∀ p ∈ ps, p.toList ⊆ text := by
  intro p hp
  obtain ⟨name, hname, ht⟩ := mem_of_mapM_eq_ok hps hp
  obtain ⟨parameter, hparameter, hfind⟩ := List.mem_filterMap.mp hname
  obtain ⟨clause, hclause, hmem⟩ := List.mem_flatMap.mp (List.mem_filter.mp hparameter).1
  exact (((h.named (List.mem_filter.mp hclause).1).named hmem).named (List.mem_of_find?_eq_some hfind)).self ht

end SwiftTree

/-! ### Java -/

namespace JavaTree
variable {bytes : List UInt8} {text : List Char} {node : Node}

theorem members_subset {ms : List Member} (hms : members bytes node = .ok ms) (h : node.ReadsWithin bytes text)
    {m : Member} (hm : m ∈ ms) :
    (∀ name ∈ m.name, name.toList ⊆ text) ∧ ∀ type ∈ m.type, type.toList ⊆ text := by
  -- A declarator that is missing says nothing.
  have hdeclarator {role : String} {t : Option String}
      (ht : Node.text? bytes ((node.child? "declarator").bind (·.child? role)) = .ok t) : ∀ s ∈ t, s.toList ⊆ text := by
    cases hc : node.child? "declarator" with
    | none =>
      rw [hc] at ht
      obtain rfl := Except.ok.inj ht
      nofun
    | some declarator =>
      rw [hc] at ht
      exact (h.role hc).text? ht
  unfold members at hms
  split at hms
  · obtain ⟨found, hfound, hms⟩ := bind_eq_ok hms
    obtain rfl := Except.ok.inj hms
    obtain rfl := List.mem_singleton.mp hm
    obtain ⟨modifiers, -, hfound⟩ := bind_eq_ok hfound
    obtain ⟨type, htype, hfound⟩ := bind_eq_ok hfound
    obtain ⟨name, hname, hfound⟩ := bind_eq_ok hfound
    split at hfound
    · obtain ⟨dimensions, hdimensions, hfound⟩ := bind_eq_ok hfound
      obtain rfl := Except.ok.inj hfound
      refine ⟨hdeclarator hname, fun s hs => ?_⟩
      obtain ⟨t, rfl, rfl⟩ := Option.map_eq_some_iff.mp hs
      rw [String.toList_append]
      refine List.append_subset.mpr ⟨h.text? htype t rfl, ?_⟩
      cases dimensions with
      | none => exact List.nil_subset _
      | some s => exact hdeclarator hdimensions s rfl
    · rename_i hnone
      obtain ⟨dimensions, -, hfound⟩ := bind_eq_ok hfound
      obtain rfl := Except.ok.inj hfound
      refine ⟨hdeclarator hname, fun s hs => ?_⟩
      obtain ⟨t, rfl, -⟩ := Option.map_eq_some_iff.mp hs
      exact absurd rfl hnone
  · obtain ⟨name, hname, hms⟩ := bind_eq_ok hms
    obtain rfl := Except.ok.inj hms
    obtain rfl := List.mem_singleton.mp hm
    exact ⟨fun s hs => h.text? hname s hs, nofun⟩

theorem typeParameters_subset {ps : List String} (hps : typeParameters bytes node = .ok ps)
    (h : node.ReadsWithin bytes text) : ∀ p ∈ ps, p.toList ⊆ text := by
  unfold typeParameters at hps
  split at hps
  · obtain rfl := Except.ok.inj hps
    nofun
  · rename_i clause hclause
    intro p hp
    obtain ⟨name, hname, ht⟩ := mem_of_mapM_eq_ok hps hp
    obtain ⟨parameter, hparameter, hfind⟩ := List.mem_filterMap.mp hname
    exact (((h.role hclause).named (List.mem_filter.mp hparameter).1).named (List.mem_of_find?_eq_some hfind)).self ht

end JavaTree

end Tree

/-! ### Declarations -/

section Declarations
variable {k : LanguageKit} {source : List Char} {marker : String} {root n : Node} {r : Declaration}

theorem Tree.Dialect.declaration?_texts {d : Dialect} {bytes : List UInt8}
    (h : d.declaration? source bytes marker n = .ok (some r)) :
    (∃ name, n.child? "name" = some name ∧ name.text bytes = .ok r.name) ∧
      d.typeParameters bytes n = .ok r.typeParameters := by
  unfold Dialect.declaration? at h
  split at h
  · rename_i kind name body hkind hname hbody
    obtain ⟨modifiers, -, h⟩ := bind_eq_ok h
    obtain ⟨mark, -, h⟩ := bind_eq_ok h
    obtain ⟨members, -, h⟩ := bind_eq_ok h
    obtain ⟨text, htext, h⟩ := bind_eq_ok h
    obtain ⟨parameters, hparameters, h⟩ := bind_eq_ok h
    obtain rfl := Option.some.inj (Except.ok.inj h)
    exact ⟨⟨name, hname, htext⟩, hparameters⟩
  · cases h

/-- Every member of a declaration is read from a node of its body. -/
theorem Tree.Dialect.exists_of_mem_members {d : Dialect} {bytes : List UInt8}
    (h : d.declaration? source bytes marker n = .ok (some r)) {m : Member} (hm : m ∈ r.members) :
    ∃ node ms, d.members bytes node = .ok ms ∧ m ∈ ms ∧ ∃ body ∈ n.children, node ∈ body.children := by
  obtain ⟨body, -, -, hd, -⟩ := declaration?_eq_some h
  obtain ⟨node, hnode, ms, hms, hm⟩ := ((mem_members_iff hd h).2 m).mp hm
  exact ⟨node, ms, hms, hm, body, hd.body_mem, (List.mem_filter.mp (List.mem_filter.mp hnode).1).1⟩

/-- What is read from a tree stands in its source. -/
theorem LanguageKit.isWrittenIn (hk : k = .swift ∨ k = .java) (hp : Placed source root) (hn : n ∈ root.preorder)
    (h : k.dialect.declaration? source (encode source) marker n = .ok (some r)) : r.IsWrittenIn source := by
  have hreads := hp.readsWithin hn
  obtain ⟨⟨name, hname, htext⟩, hparameters⟩ := Dialect.declaration?_texts h
  have hmembers : ∀ m ∈ r.members, (∀ name ∈ m.name, name.toList ⊆ source) ∧
      ∀ type ∈ m.type, type.toList ⊆ ' ' :: source := by
    intro m hm
    obtain ⟨node, ms, hms, hm, body, hbody, hnode⟩ := Dialect.exists_of_mem_members h hm
    have hbelow := (hreads.child hbody).child hnode
    rcases hk with rfl | rfl
    · obtain ⟨hnames, htypes⟩ := Tree.SwiftTree.exists_of_mem_members hms hm
      refine ⟨fun name hname => hnames name hname source hbelow, fun type htype c hc => ?_⟩
      obtain ⟨clause, hclause, s, hs, htype⟩ := htypes type htype
      rcases Tree.SwiftTree.mem_annotatedType htype hc with rfl | ⟨hc, -⟩
      · exact List.mem_cons_self ..
      · exact List.mem_cons_of_mem _ ((hbelow.child hclause).self hs hc)
    · obtain ⟨hnames, htypes⟩ := Tree.JavaTree.members_subset hms hbelow hm
      exact ⟨hnames, fun type htype => List.subset_cons_of_subset _ (htypes type htype)⟩
  refine ⟨(hreads.role hname).self htext, ?_, fun m hm => (hmembers m hm).1, fun m hm => (hmembers m hm).2⟩
  rcases hk with rfl | rfl
  · exact Tree.SwiftTree.typeParameters_subset hparameters hreads
  · exact Tree.JavaTree.typeParameters_subset hparameters hreads

/-- No Swift type holds a blank other than a space. -/
theorem LanguageKit.swift_type_blank (h : LanguageKit.swift.dialect.declaration? source (encode source) marker n =
    .ok (some r)) {m : Member} (hm : m ∈ r.members) {type : String} (htype : type ∈ m.type) :
    ∀ c ∈ type.toList, c = ' ' ∨ Text.isBlank c = false := by
  intro c hc
  obtain ⟨node, ms, hms, hm, -⟩ := Dialect.exists_of_mem_members h hm
  obtain ⟨clause, -, s, -, hannotated⟩ := (Tree.SwiftTree.exists_of_mem_members hms hm).2 type htype
  exact (Tree.SwiftTree.mem_annotatedType hannotated hc).imp_right And.right

end Declarations

end Recordsmith
