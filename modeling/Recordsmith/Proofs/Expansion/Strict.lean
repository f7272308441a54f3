import Recordsmith.Proofs.Expansion.Treatment
import Recordsmith.Proofs.Record.Consistency
import Recordsmith.Registry

/-!
Strict mode: where it succeeds, which variables of a body are parameters of the generated constructor. Every member that
was read and is stored is one. Swift reads a member for each pattern of a property; Java reads one for each field, named
after its first declarator, so a further declarator is a parameter only if its name is that of a first one.
-/

namespace Recordsmith

open Text.Utf8 (encode)
open Recordsmith.Tree

/-! ### Stored members -/

namespace Declaration
variable {r : Declaration} {options : Synthesis} {members : List GeneratedMember} {name : String}

theorem isField_of_strict (hr : r.isRecord = true) (hs : options.strict = true) (h : r.assemble options = .ok members)
    {m : Member} (hm : m ∈ r.members) (hstored : m.classify = .stored) : m.IsField := by
  have hrepresentable := (fault?_eq_none_iff.mp (assemble_eq_ok hr h).1).1 hs
  have hfield : Field.ofMember m ∈ r.fields :=
    List.mem_map_of_mem (List.mem_filter.mpr ⟨hm, by simpa using hstored⟩)
  have hboth := hrepresentable _ hfield
  obtain ⟨hkind, haccessor, hstatic, hclass⟩ := Member.classify_eq_stored_iff.mp hstored
  simp only [Field.isRepresentable, Field.ofMember, Bool.and_eq_true] at hboth
  exact ⟨hkind, haccessor, hstatic, hclass, hboth⟩

/-- Where strict mode succeeds, every stored member has a name, and the parameters have the names of these members. -/
theorem stored_of_strict (hr : r.isRecord = true) (hs : options.strict = true) (h : r.assemble options = .ok members) :
    (∀ m ∈ r.members, m.classify = .stored → ∃ name, m.name = some name) ∧
      ∀ name, name ∈ Field.names r.fields ↔ ∃ m ∈ r.members, m.classify = .stored ∧ m.name = some name := by
  refine ⟨fun m hm hstored => ?_, fun name => ?_⟩
  · obtain ⟨p, -, hname, -⟩ := (isField_of_strict hr hs h hm hstored).parameter?
    exact ⟨p.name, hname⟩
  · rw [mem_names_iff]
    constructor
    · rintro ⟨m, hm, hfield, hname⟩
      obtain ⟨hkind, haccessor, hstatic, hclass, -⟩ := hfield
      exact ⟨m, hm, Member.classify_eq_stored_iff.mpr ⟨hkind, haccessor, hstatic, hclass⟩, hname⟩
    · rintro ⟨m, hm, hstored, hname⟩
      exact ⟨m, hm, isField_of_strict hr hs h hm hstored, hname⟩

end Declaration

/-! ### Variables of a body -/

/-- A node that no modifier keyword makes a variable of the type itself. -/
def Tree.Heading.IsInstanceLevel (h : Heading) (bytes : List UInt8) (node : Node) : Prop :=
  ∀ modifiers, h.modifiers bytes node = .ok modifiers → "static" ∉ modifiers ∧ "class" ∉ modifiers

namespace Tree.SwiftTree
variable {bytes : List UInt8} {node pattern : Node}

/-- A pattern of a property that is stored in every value: no accessor block stands between it and the next pattern. -/
structure Stores (bytes : List UInt8) (node pattern : Node) : Prop where
  property : node.kind = "property_declaration"
  kind : pattern.kind = "pattern"
  instanceLevel : heading.IsInstanceLevel bytes node
  stored : ∃ before after, node.children = before ++ pattern :: after ∧
    ∀ part ∈ after.takeWhile (·.kind ≠ "pattern"), part.kind ≠ "computed_property"

theorem mem_bindings (h : pattern.kind = "pattern") (before after : List Node) :
    (pattern, after.takeWhile (·.kind ≠ "pattern")) ∈ bindings (before ++ pattern :: after) := by
  induction before with
  | nil =>
    rw [List.nil_append, bindings, if_pos h]
    exact List.mem_cons_self ..
  | cons child rest ih =>
    rw [List.cons_append, bindings]
    split
    · exact List.mem_cons_of_mem _ ih
    · exact ih

/-- A stored pattern gives a stored member of its name. -/
theorem Stores.exists_member (h : Stores bytes node pattern) {ms : List Member} (hms : members bytes node = .ok ms) :
    ∃ m ∈ ms, m.classify = .stored ∧ patternName bytes pattern = .ok m.name := by
  obtain ⟨before, after, hchildren, hparts⟩ := h.stored
  unfold members at hms
  rw [if_pos h.property] at hms
  obtain ⟨modifiers, hmodifiers, hms⟩ := bind_eq_ok hms
  obtain ⟨keywords, -, hms⟩ := bind_eq_ok hms
  obtain ⟨hstatic, hclass⟩ := h.instanceLevel modifiers hmodifiers
  have hbinding := mem_bindings h.kind before after
  rw [← hchildren] at hbinding
  obtain ⟨m, hm, hmember⟩ := exists_of_mapM_eq_ok hms hbinding
  obtain ⟨name, hname, hmember⟩ := bind_eq_ok hmember
  obtain ⟨annotations, -, hmember⟩ := bind_eq_ok hmember
  obtain rfl := Except.ok.inj hmember
  have haccessor : (after.takeWhile (·.kind ≠ "pattern")).any (·.kind == "computed_property") = false := by
    rw [List.any_eq_false]
    intro part hpart hkind
    exact hparts part hpart (beq_iff_eq.mp hkind)
  exact ⟨_, hm, Member.classify_eq_stored_iff.mpr ⟨rfl, haccessor, hstatic, hclass⟩, hname⟩

theorem patternName_eq_some {name : String} (h : patternName bytes pattern = .ok (some name)) :
    ∃ identifier, pattern.namedChildren = [identifier] ∧ identifier.text bytes = .ok name := by
  unfold patternName at h
  split at h
  · rename_i identifier hchildren
    split at h
    · obtain ⟨text, htext, heq⟩ := map_eq_ok h
      obtain rfl := Option.some.inj heq
      exact ⟨identifier, hchildren, htext⟩
    · cases h
  · cases h

end Tree.SwiftTree

namespace Tree.JavaTree
variable {bytes : List UInt8} {node declarator : Node} {name : String}

/-- A declarator of a field that is stored in every value. -/
structure Stores (bytes : List UInt8) (node declarator : Node) : Prop where
  field : node.kind = "field_declaration"
  mem : declarator ∈ node.children
  kind : declarator.kind = "variable_declarator"
  instanceLevel : heading.IsInstanceLevel bytes node

/-- The name that a declarator gives to its variable. -/
def Names (bytes : List UInt8) (declarator : Node) (name : String) : Prop :=
  Node.text? bytes (declarator.child? "name") = .ok (some name)

instance : Decidable (Names bytes declarator name) := inferInstanceAs (Decidable (_ = _))

/-- A field whose first declarator has this name. -/
structure OpensWith (bytes : List UInt8) (node : Node) (name : String) : Prop where
  field : node.kind = "field_declaration"
  instanceLevel : heading.IsInstanceLevel bytes node
  names : ∃ first, node.child? "declarator" = some first ∧ Names bytes first name

theorem fieldMember_eq_ok {m : Member} (h : fieldMember bytes node = .ok m) :
    m.kind = .variable ∧ m.hasAccessorBlock = false ∧ heading.modifiers bytes node = .ok m.modifiers ∧
      Node.text? bytes ((node.child? "declarator").bind (·.child? "name")) = .ok m.name := by
  obtain ⟨modifiers, hmodifiers, h⟩ := bind_eq_ok h
  obtain ⟨type, -, h⟩ := bind_eq_ok h
  obtain ⟨name, hname, h⟩ := bind_eq_ok h
  split at h
  all_goals
    obtain ⟨dimensions, -, h⟩ := bind_eq_ok h
    obtain rfl := Except.ok.inj h
    exact ⟨rfl, rfl, hmodifiers, hname⟩

/-- A stored member of a name is read exactly of a field whose first declarator has that name. -/
theorem exists_member_iff {ms : List Member} (hms : members bytes node = .ok ms) :
    (∃ m ∈ ms, m.classify = .stored ∧ m.name = some name) ↔ OpensWith bytes node name := by
  unfold members at hms
  split at hms
  · rename_i hkind
    obtain ⟨m, hm, hms⟩ := bind_eq_ok hms
    obtain rfl := Except.ok.inj hms
    obtain ⟨hvariable, haccessor, hmodifiers, hname⟩ := fieldMember_eq_ok hm
    have hstored : m.classify = .stored ↔ heading.IsInstanceLevel bytes node := by
      rw [Member.classify_eq_stored_iff]
      constructor
      · rintro ⟨-, -, hstatic, hclass⟩ modifiers hread
        obtain rfl := Except.ok.inj (hmodifiers.symm.trans hread)
        exact ⟨hstatic, hclass⟩
      · intro hlevel
        exact ⟨hvariable, haccessor, hlevel _ hmodifiers⟩
    constructor
    · rintro ⟨m', hm', hclassify, hnamed⟩
      obtain rfl := List.mem_singleton.mp hm'
      rw [hnamed] at hname
      cases hfirst : node.child? "declarator" with
      | none =>
        rw [hfirst] at hname
        cases hname
      | some first =>
        rw [hfirst] at hname
        exact ⟨hkind, hstored.mp hclassify, first, hfirst, hname⟩
    · rintro ⟨-, hlevel, first, hfirst, hnames⟩
      rw [hfirst] at hname
      exact ⟨m, List.mem_singleton_self m, hstored.mpr hlevel, Except.ok.inj (hname.symm.trans hnames)⟩
  · rename_i hkind
    obtain ⟨other, -, hms⟩ := bind_eq_ok hms
    obtain rfl := Except.ok.inj hms
    constructor
    · rintro ⟨m, hm, hclassify, -⟩
      obtain rfl := List.mem_singleton.mp hm
      cases (Member.classify_eq_stored_iff.mp hclassify).1
    · intro h
      exact absurd h.field hkind

end Tree.JavaTree

/-! ### Parameters of an expanded declaration -/

namespace Tree.JavaTree

/-- Every stored declarator of a body has the name of a field's first declarator. -/
def FirstOnly (bytes : List UInt8) (body : Node) : Prop :=
  ∀ node ∈ body.namedChildren, ∀ declarator, Stores bytes node declarator →
    ∃ name, Names bytes declarator name ∧ ∃ other ∈ body.namedChildren, OpensWith bytes other name

end Tree.JavaTree

namespace Tree.Dialect
variable {d : Dialect} {body : Node}

theorem mem_bodyNodes {node : Node} (hnode : node ∈ body.namedChildren) (hcomment : d.isComment node = false) :
    node ∈ d.bodyNodes body :=
  List.mem_filter.mpr ⟨hnode, by simpa using hcomment⟩

end Tree.Dialect

section Parameters
variable {source : List Char} {bytes : List UInt8} {marker : String} {n body : Node} {r : Declaration}
  {options : Synthesis} {members : List GeneratedMember}

theorem swift_pattern_mem_names (hd : SwiftTree.dialect.Declares n body)
    (hread : SwiftTree.dialect.declaration? source bytes marker n = .ok (some r)) (hr : r.isRecord = true)
    (hs : options.strict = true) (h : r.assemble options = .ok members) {node pattern : Node}
    (hnode : node ∈ body.namedChildren) (hstores : SwiftTree.Stores bytes node pattern) :
    ∃ identifier name, pattern.namedChildren = [identifier] ∧ identifier.text bytes = .ok name ∧
      name ∈ Field.names r.fields := by
  obtain ⟨hnamed, hnames⟩ := Declaration.stored_of_strict hr hs h
  obtain ⟨hall, hmem⟩ := Dialect.mem_members_iff hd hread
  have hbody : node ∈ SwiftTree.dialect.bodyNodes body := Dialect.mem_bodyNodes hnode (by
    simp [SwiftTree.dialect, SwiftTree.heading, SwiftTree.isComment, hstores.property])
  obtain ⟨ms, hms⟩ := hall node hbody
  obtain ⟨m, hm, hclassify, hpattern⟩ := hstores.exists_member hms
  have hmember : m ∈ r.members := (hmem m).mpr ⟨node, hbody, ms, hms, hm⟩
  obtain ⟨name, hname⟩ := hnamed m hmember hclassify
  rw [hname] at hpattern
  obtain ⟨identifier, hchildren, htext⟩ := SwiftTree.patternName_eq_some hpattern
  exact ⟨identifier, name, hchildren, htext, (hnames name).mpr ⟨m, hmember, hclassify, hname⟩⟩

/-- The parameters of a Java class have the names of the first declarators of its fields. -/
theorem java_mem_names_iff (hd : JavaTree.dialect.Declares n body)
    (hread : JavaTree.dialect.declaration? source bytes marker n = .ok (some r)) (hr : r.isRecord = true)
    (hs : options.strict = true) (h : r.assemble options = .ok members) (name : String) :
    name ∈ Field.names r.fields ↔ ∃ node ∈ body.namedChildren, JavaTree.OpensWith bytes node name := by
  obtain ⟨-, hnames⟩ := Declaration.stored_of_strict hr hs h
  obtain ⟨hall, hmem⟩ := Dialect.mem_members_iff hd hread
  rw [hnames]
  constructor
  · rintro ⟨m, hm, hclassify, hname⟩
    obtain ⟨node, hnode, ms, hms, hm⟩ := (hmem m).mp hm
    exact ⟨node, (List.mem_filter.mp hnode).1, (JavaTree.exists_member_iff hms).mp ⟨m, hm, hclassify, hname⟩⟩
  · rintro ⟨node, hnode, hopens⟩
    have hbody : node ∈ JavaTree.dialect.bodyNodes body := Dialect.mem_bodyNodes hnode (by
      simp [JavaTree.dialect, JavaTree.heading, JavaTree.isComment, hopens.field])
    obtain ⟨ms, hms⟩ := hall node hbody
    obtain ⟨m, hm, hclassify, hname⟩ := (JavaTree.exists_member_iff hms).mpr hopens
    exact ⟨m, (hmem m).mpr ⟨node, hbody, ms, hms, hm⟩, hclassify, hname⟩

end Parameters

namespace LanguageKit
variable {k : LanguageKit} {source : List Char} {tree : SourceTree} {config : Config} {e : Expansion}

/-- The expanded declarations are the marked records of the tree, and for each of them members were generated. -/
theorem expanded_of_expandTree (h : k.expandTree source tree config = .ok e) :
    (∀ name ∈ e.expanded, ∃ n ∈ tree.root.preorder, ∃ body mark r,
      k.dialect.Marked (encode source) config.synthesis.marker n body mark ∧
      k.dialect.declaration? source (encode source) config.synthesis.marker n = .ok (some r) ∧
      r.isRecord = true ∧ r.name = name) ∧
    ∀ n ∈ tree.root.preorder, ∀ body mark r,
      k.dialect.Marked (encode source) config.synthesis.marker n body mark →
      k.dialect.declaration? source (encode source) config.synthesis.marker n = .ok (some r) → r.isRecord = true →
        r.name ∈ e.expanded ∧ ∃ members, r.assemble config.synthesis = .ok members := by
  obtain ⟨declarations, pairs, -, -, rfl, hall⟩ := expandTree_eq_ok h
  constructor
  · intro name hname
    obtain ⟨t, ht, rfl⟩ := List.mem_map.mp hname
    obtain ⟨hmem, hkept⟩ := List.mem_filter.mp ht
    obtain ⟨p, hp, rfl⟩ := List.mem_map.mp hmem
    obtain ⟨body, mark, r, members, htreats⟩ := hall.treats p hp
    refine ⟨p.1, hall.sublist.subset (List.mem_map_of_mem hp), body, mark, r, htreats.marked, htreats.read, ?_,
      htreats.name.symm⟩
    -- A declaration that is no record has no members, and is skipped.
    by_contra hr
    have hassembled := htreats.assembled
    rw [Declaration.assemble, if_neg hr] at hassembled
    obtain rfl := Except.ok.inj hassembled
    simp [Treatment.isSkipped, htreats.memberCount] at hkept
  · intro n hn body mark r hmarked hread hr
    obtain ⟨p, hp, rfl⟩ := List.mem_map.mp (hall.complete n hn body mark hmarked)
    obtain ⟨body', mark', r', members, htreats⟩ := hall.treats p hp
    obtain rfl := Option.some.inj (Except.ok.inj (hread.symm.trans htreats.read))
    refine ⟨List.mem_map.mpr ⟨p.2, List.mem_filter.mpr ⟨List.mem_map_of_mem hp, ?_⟩, htreats.name⟩, members,
      htreats.assembled⟩
    rw [(Declaration.assemble_eq_ok hr htreats.assembled).2] at htreats
    simp [Treatment.isSkipped, htreats.memberCount]

end LanguageKit

/-- Where strict mode succeeds, every stored pattern of an expanded Swift declaration is a parameter of its constructor
    under its own name. The parameters of an expanded Java declaration have the names of the first declarators of its
    fields, so all its stored declarators are parameters exactly when none but the first ones bring a new name. -/
theorem strict_keeps_stored_variables {k : LanguageKit} (hk : k = .swift ∨ k = .java) {source : List Char}
    {tree : SourceTree} {config : Config} {e : Expansion} (hstrict : config.synthesis.strict = true)
    (h : k.expandTree source tree config = .ok e) :
    (∀ name ∈ e.expanded, ∃ n ∈ tree.root.preorder, ∃ body mark r,
      k.dialect.Marked (encode source) config.synthesis.marker n body mark ∧
      k.dialect.declaration? source (encode source) config.synthesis.marker n = .ok (some r) ∧
      r.isRecord = true ∧ r.name = name) ∧
    ∀ n ∈ tree.root.preorder, ∀ body mark r,
      k.dialect.Marked (encode source) config.synthesis.marker n body mark →
      k.dialect.declaration? source (encode source) config.synthesis.marker n = .ok (some r) → r.isRecord = true →
      r.name ∈ e.expanded ∧
      ∃ (c : Constructor) (withers : List GeneratedMember),
        r.assemble config.synthesis = .ok (.constructor c :: withers) ∧
        (k = .swift → ∀ node ∈ body.namedChildren, ∀ pattern, SwiftTree.Stores (encode source) node pattern →
          ∃ identifier, pattern.namedChildren = [identifier] ∧
            ∃ p ∈ c.parameters, identifier.text (encode source) = .ok p.name) ∧
        (k = .java →
          (∀ name, (∃ p ∈ c.parameters, p.name = name) ↔
            ∃ node ∈ body.namedChildren, JavaTree.OpensWith (encode source) node name) ∧
          ((∀ node ∈ body.namedChildren, ∀ declarator, JavaTree.Stores (encode source) node declarator →
            ∃ p ∈ c.parameters, JavaTree.Names (encode source) declarator p.name) ↔
              JavaTree.FirstOnly (encode source) body)) := by
  obtain ⟨hexpanded, hmarked⟩ := LanguageKit.expanded_of_expandTree h
  refine ⟨hexpanded, fun n hn body mark r hm hread hr => ?_⟩
  obtain ⟨hname, members, hassembled⟩ := hmarked n hn body mark r hm hread hr
  obtain ⟨-, hmembers⟩ := Declaration.assemble_eq_ok hr hassembled
  refine ⟨hname, _, _, hassembled.trans (congrArg Except.ok hmembers), ?_, ?_⟩
  · rintro rfl node hnode pattern hstores
    obtain ⟨identifier, name, hchildren, htext, hmem⟩ :=
      swift_pattern_mem_names hm.toDeclares hread hr hstrict hassembled hnode hstores
    obtain ⟨p, hp, rfl⟩ := List.mem_map.mp hmem
    exact ⟨identifier, hchildren, p, hp, htext⟩
  · rintro rfl
    have hnames (name : String) : (∃ p ∈ Field.parameters r.fields, p.name = name) ↔
        ∃ node ∈ body.namedChildren, JavaTree.OpensWith (encode source) node name :=
      List.mem_map.symm.trans (java_mem_names_iff hm.toDeclares hread hr hstrict hassembled name)
    refine ⟨hnames, ?_⟩
    constructor
    · intro hall node hnode declarator hstores
      obtain ⟨p, hp, hdeclared⟩ := hall node hnode declarator hstores
      exact ⟨p.name, hdeclared, (hnames p.name).mp ⟨p, hp, rfl⟩⟩
    · intro hfirst node hnode declarator hstores
      obtain ⟨name, hdeclared, hopens⟩ := hfirst node hnode declarator hstores
      obtain ⟨p, hp, rfl⟩ := (hnames name).mpr hopens
      exact ⟨p, hp, hdeclared⟩

/-! ### Two variables in one line -/

namespace Sample

def strict : Config := { synthesis := { strict := true } }

def pairSource : List Char := "@Buildable struct P \x7b var x: Int, y: Int \x7d".toList

def pairMark : Node :=
  ⟨"attribute", 0, 10, true, none, [⟨"@", 0, 1, false, none, []⟩, ⟨"user_type", 1, 10, true, none, []⟩]⟩

def pairPattern (start : Nat) : Node :=
  ⟨"pattern", start, start + 1, true, some "name",
    [⟨"simple_identifier", start, start + 1, true, some "bound_identifier", []⟩]⟩

def pairProperty : Node :=
  ⟨"property_declaration", 22, 40, true, none, [
    ⟨"value_binding_pattern", 22, 25, true, none, [⟨"var", 22, 25, false, some "mutability", []⟩]⟩,
    pairPattern 26, ⟨"type_annotation", 27, 32, true, none, []⟩, ⟨",", 32, 33, false, none, []⟩,
    pairPattern 34, ⟨"type_annotation", 35, 40, true, none, []⟩]⟩

def pairBody : Node :=
  ⟨"class_body", 20, 42, true, some "body",
    [⟨"\x7b", 20, 21, false, none, []⟩, pairProperty, ⟨"\x7d", 41, 42, false, none, []⟩]⟩

def pairNode : Node :=
  ⟨"class_declaration", 0, 42, true, none, [⟨"modifiers", 0, 10, true, none, [pairMark]⟩,
    ⟨"struct", 11, 17, false, some "declaration_kind", []⟩, ⟨"type_identifier", 18, 19, true, some "name", []⟩, pairBody]⟩

def pairTree : SourceTree := ⟨⟨"source_file", 0, 42, true, none, [pairNode]⟩, false⟩

end Sample

open Sample in
theorem strict_keeps_stored_variables_pair :
    ∃ e r c withers, LanguageKit.swift.expandTree pairSource pairTree strict = .ok e ∧
      LanguageKit.swift.dialect.declaration? pairSource (encode pairSource) "Buildable" pairNode = .ok (some r) ∧
      r.assemble strict.synthesis = .ok (.constructor c :: withers) ∧
      (∃ p ∈ c.parameters, p.name = "x") ∧ ∃ p ∈ c.parameters, p.name = "y" := by
  obtain ⟨e, he⟩ : ∃ e, LanguageKit.swift.expandTree pairSource pairTree strict = .ok e :=
    exists_eq_ok (by decide +kernel)
  have hrecord : (LanguageKit.swift.dialect.declaration? pairSource (encode pairSource) "Buildable"
      pairNode).toOption.join.any (·.isRecord) = true := by
    decide +kernel
  obtain ⟨r, hr, hrecord⟩ := (Option.any_eq_true _ _).mp hrecord
  have hread := Tree.eq_ok_of_toOption (Option.join_eq_some_iff.mp hr)
  have hmarked : LanguageKit.swift.dialect.Marked (encode pairSource) "Buildable" pairNode pairBody pairMark :=
    { aggregate := by decide +kernel, name := rfl, body := rfl, marks := rfl }
  have hlevel : SwiftTree.heading.IsInstanceLevel (encode pairSource) pairProperty := by
    intro modifiers h
    obtain rfl : [] = modifiers := Except.ok.inj h
    simp
  have hx : SwiftTree.Stores (encode pairSource) pairProperty (pairPattern 26) :=
    ⟨rfl, rfl, hlevel, pairProperty.children.take 1, pairProperty.children.drop 2, rfl, by decide⟩
  have hy : SwiftTree.Stores (encode pairSource) pairProperty (pairPattern 34) :=
    ⟨rfl, rfl, hlevel, pairProperty.children.take 4, pairProperty.children.drop 5, rfl, by decide⟩
  have hproperty : pairProperty ∈ pairBody.namedChildren := by simp [pairBody, pairProperty, Node.namedChildren]
  obtain ⟨-, hall⟩ := strict_keeps_stored_variables (Or.inl rfl) rfl he
  obtain ⟨-, c, withers, hassemble, hpatterns, -⟩ := hall pairNode (by simp [pairTree]) pairBody pairMark r hmarked
    hread hrecord
  obtain ⟨_, hxs, px, hpx, hxtext⟩ := hpatterns rfl pairProperty hproperty (pairPattern 26) hx
  obtain ⟨_, hys, py, hpy, hytext⟩ := hpatterns rfl pairProperty hproperty (pairPattern 34) hy
  obtain ⟨rfl, -⟩ := List.cons.inj hxs
  obtain ⟨rfl, -⟩ := List.cons.inj hys
  have hxname : Node.text (encode pairSource) ⟨"simple_identifier", 26, 27, true, some "bound_identifier", []⟩ =
      .ok "x" := by decide +kernel
  have hyname : Node.text (encode pairSource) ⟨"simple_identifier", 34, 35, true, some "bound_identifier", []⟩ =
      .ok "y" := by decide +kernel
  exact ⟨e, r, c, withers, he, hread, hassemble, ⟨px, hpx, Except.ok.inj (hxtext.symm.trans hxname)⟩,
    py, hpy, Except.ok.inj (hytext.symm.trans hyname)⟩

namespace Sample

def lineSource : List Char := "@Buildable class P \x7b int x, y; \x7d".toList

def lineMark : Node :=
  ⟨"marker_annotation", 0, 10, true, none, [
    ⟨"@", 0, 1, false, none, []⟩, ⟨"identifier", 1, 10, true, some "name", []⟩]⟩

def lineDeclarator (start : Nat) : Node :=
  ⟨"variable_declarator", start, start + 1, true, some "declarator",
    [⟨"identifier", start, start + 1, true, some "name", []⟩]⟩

def lineField : Node :=
  ⟨"field_declaration", 21, 30, true, none, [⟨"integral_type", 21, 24, true, some "type", []⟩,
    lineDeclarator 25, ⟨",", 26, 27, false, none, []⟩, lineDeclarator 28, ⟨";", 29, 30, false, none, []⟩]⟩

def lineBody : Node :=
  ⟨"class_body", 19, 32, true, some "body",
    [⟨"\x7b", 19, 20, false, none, []⟩, lineField, ⟨"\x7d", 31, 32, false, none, []⟩]⟩

def lineNode : Node :=
  ⟨"class_declaration", 0, 32, true, none, [⟨"modifiers", 0, 10, true, none, [lineMark]⟩,
    ⟨"class", 11, 16, false, none, []⟩, ⟨"identifier", 17, 18, true, some "name", []⟩, lineBody]⟩

def lineTree : SourceTree := ⟨⟨"program", 0, 32, true, none, [lineNode]⟩, false⟩

end Sample

open Sample in
/-- The second variable of a Java field is stored, but no parameter, although strict mode succeeds. -/
theorem strict_drops_second_declarator :
    JavaTree.dialect.WellFormed lineSource lineTree.root ∧
      (LanguageKit.java.expandTree lineSource lineTree strict).isOk = true ∧
      lineField ∈ lineBody.namedChildren ∧ JavaTree.Stores (encode lineSource) lineField (lineDeclarator 28) ∧
      JavaTree.Names (encode lineSource) (lineDeclarator 28) "y" ∧
      ∃ r c withers,
        LanguageKit.java.dialect.declaration? lineSource (encode lineSource) "Buildable" lineNode = .ok (some r) ∧
        r.assemble strict.synthesis = .ok (.constructor c :: withers) ∧ ∀ p ∈ c.parameters, p.name ≠ "y" := by
  have hlevel : JavaTree.heading.IsInstanceLevel (encode lineSource) lineField := by
    intro modifiers h
    obtain rfl : [] = modifiers := Except.ok.inj h
    simp
  refine ⟨by decide +kernel, by decide +kernel, by simp [lineBody, lineField, Node.namedChildren],
    ⟨rfl, by simp [lineField], rfl, hlevel⟩, by decide +kernel, ?_⟩
  have hrecord : (LanguageKit.java.dialect.declaration? lineSource (encode lineSource) "Buildable"
      lineNode).toOption.join.any (fun r => r.isRecord && (r.assemble strict.synthesis).isOk &&
        (Field.parameters r.fields).all (·.name ≠ "y")) = true := by
    decide +kernel
  obtain ⟨r, hr, hfacts⟩ := (Option.any_eq_true _ _).mp hrecord
  simp only [Bool.and_eq_true] at hfacts
  obtain ⟨⟨hrecord, hok⟩, hnone⟩ := hfacts
  obtain ⟨members, hassemble⟩ := exists_eq_ok hok
  obtain ⟨-, rfl⟩ := Declaration.assemble_eq_ok hrecord hassemble
  exact ⟨r, _, _, Tree.eq_ok_of_toOption (Option.join_eq_some_iff.mp hr), hassemble,
    fun p hp => of_decide_eq_true (List.all_eq_true.mp hnone p hp)⟩

end Recordsmith
