import Mathlib.Data.List.Chain
import Recordsmith.Proofs.Tree.Extraction

/-!
The bindings of a Swift property. A property gives one variable for each of its patterns. All of them share its modifiers
and its keyword; what else is said of a variable stands between its own pattern and the next one, so no change elsewhere
reaches it. Types are written on one line with single spaces.
-/

namespace Recordsmith

open Text.Utf8 (encode)
open Recordsmith.Tree (Node)

theorem forall₂_of_mapM_eq_ok {ε α β : Type} {f : α → Except ε β} {xs : List α} {ys : List β} (h : xs.mapM f = .ok ys) :
    List.Forall₂ (fun x y => f x = .ok y) xs ys := by
  induction xs generalizing ys with
  | nil =>
    obtain rfl := mapM_nil_eq_ok h
    exact .nil
  | cons x rest ih =>
    obtain ⟨y, more, hy, hmore, rfl⟩ := mapM_cons_eq_ok h
    exact .cons hy (ih hmore)

theorem getLast?_of_forall₂ {α β : Type} {R : α → β → Prop} {xs : List α} {ys : List β} (h : List.Forall₂ R xs ys) :
    (∀ x ∈ xs.getLast?, ∃ y ∈ ys.getLast?, R x y) ∧ ∀ y ∈ ys.getLast?, ∃ x ∈ xs.getLast?, R x y := by
  rw [← List.head?_reverse, ← List.head?_reverse]
  have hreverse := List.forall₂_reverse_iff.mpr h
  generalize xs.reverse = xs at *
  generalize ys.reverse = ys at *
  cases hreverse with
  | nil => simp
  | cons hxy _ => simpa using hxy

theorem exists_getElem?_of_forall₂ {α β : Type} {R : α → β → Prop} {xs : List α} {ys : List β}
    (h : List.Forall₂ R xs ys) {i : Nat} {x : α} (hx : xs[i]? = some x) : ∃ y, ys[i]? = some y ∧ R x y := by
  obtain ⟨hlength, hget⟩ := List.forall₂_iff_get.mp h
  obtain ⟨hi, rfl⟩ := List.getElem?_eq_some_iff.mp hx
  exact ⟨_, List.getElem?_eq_getElem (hlength ▸ hi), hget i hi _⟩

/-! ### Tidy texts -/

/-- A text that is not empty and in which blanks are single spaces between other characters. -/
structure Text.IsTidy (text : List Char) : Prop where
  ne_nil : text ≠ []
  spaces : ∀ c ∈ text, isBlank c = true → c = ' '
  first : ∀ c ∈ text.head?, isBlank c = false
  last : ∀ c ∈ text.getLast?, isBlank c = false
  single : text.IsChain fun a b => isBlank a = false ∨ isBlank b = false

namespace Text

theorem isTidy_of_solid {word : List Char} (hne : word ≠ []) (h : ∀ c ∈ word, isBlank c = false) : IsTidy word where
  ne_nil := hne
  spaces c hc hblank := absurd hblank (by simp [h c hc])
  first c hc := h c (List.mem_of_head? hc)
  last c hc := h c (List.mem_of_getLast? hc)
  single := (List.pairwise_of_forall_mem_list fun a ha _ _ => Or.inl (h a ha)).isChain

theorem IsTidy.append {a b : List Char} (ha : IsTidy a) (hb : IsTidy b) : IsTidy (a ++ [' '] ++ b) where
  ne_nil := by simp
  spaces c hc hblank := by
    rw [List.append_assoc, List.mem_append, List.mem_append, List.mem_singleton] at hc
    rcases hc with hc | rfl | hc
    · exact ha.spaces c hc hblank
    · rfl
    · exact hb.spaces c hc hblank
  first c hc := by
    obtain ⟨x, rest, rfl⟩ := List.exists_cons_of_ne_nil ha.ne_nil
    exact ha.first c hc
  last c hc := by
    rw [List.getLast?_append_of_ne_nil _ hb.ne_nil] at hc
    exact hb.last c hc
  single := by
    have hspace : (a ++ [' ']).IsChain fun a b => isBlank a = false ∨ isBlank b = false := by
      refine List.isChain_append.mpr ⟨ha.single, .singleton _, fun x hx _ _ => Or.inl (ha.last x hx)⟩
    refine List.isChain_append.mpr ⟨hspace, hb.single, fun _ _ y hy => Or.inr (hb.first y hy)⟩

theorem isTidy_joinWith {pieces : List (List Char)} (hne : pieces ≠ [])
    (h : ∀ piece ∈ pieces, piece ≠ [] ∧ ∀ c ∈ piece, isBlank c = false) : IsTidy (joinWith [' '] pieces) := by
  induction pieces with
  | nil => exact absurd rfl hne
  | cons piece more ih =>
    obtain ⟨hpiece, hmore⟩ := List.forall_mem_cons.mp h
    have hfirst := isTidy_of_solid hpiece.1 hpiece.2
    cases more with
    | nil => exact hfirst
    | cons next rest =>
      rw [joinWith_cons_of_ne_nil (List.cons_ne_nil next rest)]
      exact hfirst.append (ih (List.cons_ne_nil next rest) hmore)

theorem solid_of_mem_words {text word : List Char} (h : word ∈ words text) :
    word ≠ [] ∧ ∀ c ∈ word, isBlank c = false := by
  obtain ⟨hmem, hne⟩ := List.mem_filter.mp h
  exact ⟨of_decide_eq_true hne, fun c hc => (mem_splitAt hmem hc).2⟩

end Text

namespace Tree.SwiftTree
variable {bytes : List UInt8} {node pattern : Node} {parts after : List Node}

theorem isTidy_annotatedType {written type : String} (h : annotatedType written = some type) :
    Text.IsTidy type.toList := by
  unfold annotatedType at h
  split at h
  · cases h
  · rename_i hne
    obtain rfl := Option.some.inj h
    rw [String.toList_ofList]
    exact Text.isTidy_joinWith hne fun word hword => Text.solid_of_mem_words hword

/-! ### Groups -/

def isPattern (n : Node) : Bool := n.kind == "pattern"

/-- What stands between a pattern and the next one, if one comes after it. -/
structure IsGroup (pattern : Node) (parts after : List Node) : Prop where
  pattern : pattern.kind = "pattern"
  parts : ∀ part ∈ parts, part.kind ≠ "pattern"
  next : ∀ n ∈ after.head?, n.kind = "pattern"

theorem bindings_map_fst (children : List Node) : (bindings children).map (·.1) = children.filter isPattern := by
  induction children with
  | nil => rfl
  | cons child rest ih =>
    rw [bindings]
    split
    · rename_i hkind
      rw [List.filter_cons_of_pos (by simp [isPattern, hkind]), List.map_cons, ih]
    · rename_i hkind
      rw [List.filter_cons_of_neg (by simp [isPattern, hkind]), ih]

theorem IsGroup.takeWhile_eq (h : IsGroup pattern parts after) :
    (parts ++ after).takeWhile (·.kind ≠ "pattern") = parts := by
  rw [List.takeWhile_append_of_pos (by simpa using h.parts)]
  cases after with
  | nil => simp
  | cons n rest => rw [List.takeWhile_cons_of_neg (by simpa using h.next n rfl), List.append_nil]

/-- A pattern takes its place after the bindings of the patterns before it, with its own parts and no others. -/
theorem IsGroup.getElem?_bindings (h : IsGroup pattern parts after) (before : List Node) :
    (bindings (before ++ pattern :: (parts ++ after)))[before.countP isPattern]? = some (pattern, parts) := by
  induction before with
  | nil =>
    rw [List.nil_append, bindings, if_pos h.pattern, h.takeWhile_eq]
    rfl
  | cons child rest ih =>
    rw [List.cons_append, bindings]
    split
    · rename_i hkind
      rw [List.countP_cons_of_pos (by simp [isPattern, hkind]), List.getElem?_cons_succ]
      exact ih
    · rename_i hkind
      rw [List.countP_cons_of_neg (by simp [isPattern, hkind])]
      exact ih

/-! ### Members -/

/-- What a variable says of itself, read from its pattern and its parts. Of several annotations the last one counts. -/
structure Describes (bytes : List UInt8) (pattern : Node) (parts : List Node) (m : Member) : Prop where
  name : patternName bytes pattern = .ok m.name
  untyped : (∀ part ∈ parts, part.kind ≠ "type_annotation") → m.type = none
  typed : ∀ front typing back, parts = front ++ typing :: back → typing.kind = "type_annotation" →
    (∀ part ∈ back, part.kind ≠ "type_annotation") → ∃ text, typing.text bytes = .ok text ∧ m.type = annotatedType text
  hasInitializer : m.hasInitializer = true ↔ ∃ part ∈ parts, part.kind = "="
  hasAccessorBlock : m.hasAccessorBlock = true ↔ ∃ part ∈ parts, part.kind = "computed_property"

theorem describes_of_bindingMember {isMutable : Bool} {modifiers : List String} {m : Member}
    (h : bindingMember bytes isMutable modifiers (pattern, parts) = .ok m) :
    Describes bytes pattern parts m ∧ m.kind = .variable ∧ m.isMutable = isMutable ∧ m.modifiers = modifiers := by
  obtain ⟨name, hname, h⟩ := bind_eq_ok h
  obtain ⟨annotations, hannotations, h⟩ := bind_eq_ok h
  obtain rfl := Except.ok.inj h
  refine ⟨⟨hname, fun hnone => ?_, fun front typing back hparts hkind hback => ?_, ?_, ?_⟩, rfl, rfl, rfl⟩
  · have hempty : parts.filter (·.kind == "type_annotation") = [] := by
      rw [List.filter_eq_nil_iff]
      exact fun part hpart hkind => hnone part hpart (beq_iff_eq.mp hkind)
    rw [hempty] at hannotations
    obtain rfl := mapM_nil_eq_ok hannotations
    rfl
  · have hlast : parts.filter (·.kind == "type_annotation") =
        front.filter (·.kind == "type_annotation") ++ [typing] := by
      have hnone : back.filter (·.kind == "type_annotation") = [] := by
        rw [List.filter_eq_nil_iff]
        exact fun part hpart hkind => hback part hpart (beq_iff_eq.mp hkind)
      rw [hparts, List.filter_append, List.filter_cons_of_pos (by simp [hkind]), hnone]
    rw [hlast] at hannotations
    obtain ⟨text, htext, hread⟩ :=
      (getLast?_of_forall₂ (forall₂_of_mapM_eq_ok hannotations)).1 typing List.getLast?_concat
    exact ⟨text, hread, by rw [htext]; rfl⟩
  · simp [List.any_eq_true]
  · simp [List.any_eq_true]

/-- Members of a property: each is read from its binding, with the modifiers and the keyword of the whole property. -/
theorem members_eq_ok {ms : List Member} (hkind : node.kind = "property_declaration") (h : members bytes node = .ok ms) :
    ∃ modifiers isMutable, heading.modifiers bytes node = .ok modifiers ∧
      (isMutable = true ↔
        ∃ binding ∈ (node.childrenOf "value_binding_pattern").getLast?, bindingKeyword bytes binding = .ok "var") ∧
      List.Forall₂ (fun binding m => bindingMember bytes isMutable modifiers binding = .ok m) (bindings node.children) ms := by
  unfold members at h
  rw [if_pos hkind] at h
  obtain ⟨modifiers, hmodifiers, h⟩ := bind_eq_ok h
  obtain ⟨keywords, hkeywords, h⟩ := bind_eq_ok h
  refine ⟨modifiers, _, hmodifiers, ?_, forall₂_of_mapM_eq_ok h⟩
  obtain ⟨hlast, hlast'⟩ := getLast?_of_forall₂ (forall₂_of_mapM_eq_ok hkeywords)
  rw [beq_iff_eq]
  constructor
  · exact hlast' "var"
  · rintro ⟨binding, hbinding, hvar⟩
    obtain ⟨keyword, hkeyword, hread⟩ := hlast binding hbinding
    obtain rfl := Except.ok.inj (hread.symm.trans hvar)
    exact hkeyword

/-! ### Changes elsewhere -/

/-- Parts that say something of the whole property, or open a group of their own. -/
def isFixed (n : Node) : Bool := n.kind == "pattern" || n.kind == "value_binding_pattern" || n.kind == "modifiers"

/-- The `i`-th group is the same in both, and outside of it only parts have changed that are not fixed. -/
def AgreeAt (i : Nat) (children children' : List Node) : Prop :=
  ∃ before before' pattern parts after after', IsGroup pattern parts after ∧ IsGroup pattern parts after' ∧
    children = before ++ pattern :: (parts ++ after) ∧ children' = before' ++ pattern :: (parts ++ after') ∧
    before.filter isFixed = before'.filter isFixed ∧ after.filter isFixed = after'.filter isFixed ∧
    before.countP isPattern = i

theorem filter_kind_of_fixed {kind : String} (hkind : ∀ n : Node, n.kind = kind → isFixed n = true)
    {nodes nodes' : List Node} (h : nodes.filter isFixed = nodes'.filter isFixed) :
    nodes.filter (·.kind == kind) = nodes'.filter (·.kind == kind) := by
  have hboth (nodes : List Node) :
      (nodes.filter isFixed).filter (·.kind == kind) = nodes.filter (·.kind == kind) := by
    rw [List.filter_filter]
    refine List.filter_congr fun n _ => ?_
    by_cases hn : n.kind = kind
    · simp [hn, hkind n hn]
    · simp [hn]
  rw [← hboth nodes, h, hboth]

theorem AgreeAt.filter_kind {i : Nat} {children children' : List Node} (h : AgreeAt i children children') {kind : String}
    (hkind : ∀ n : Node, n.kind = kind → isFixed n = true) :
    children.filter (·.kind == kind) = children'.filter (·.kind == kind) := by
  obtain ⟨before, before', pattern, parts, after, after', -, -, rfl, rfl, hbefore, hafter, -⟩ := h
  simp only [List.filter_append, List.filter_cons, filter_kind_of_fixed hkind hbefore, filter_kind_of_fixed hkind hafter]

theorem AgreeAt.getElem?_bindings {i : Nat} {children children' : List Node} (h : AgreeAt i children children') :
    ∃ binding, (bindings children)[i]? = some binding ∧ (bindings children')[i]? = some binding := by
  obtain ⟨before, before', pattern, parts, after, after', hgroup, hgroup', rfl, rfl, hbefore, -, rfl⟩ := h
  have hcount : before.countP isPattern = before'.countP isPattern := by
    rw [List.countP_eq_length_filter, List.countP_eq_length_filter]
    exact congrArg List.length (filter_kind_of_fixed (by simp +contextual [isFixed]) hbefore)
  refine ⟨(pattern, parts), hgroup.getElem?_bindings before, ?_⟩
  rw [hcount]
  exact hgroup'.getElem?_bindings before'

theorem AgreeAt.getElem?_members {i : Nat} {other : Node} {ms ms' : List Member}
    (h : AgreeAt i node.children other.children) (hkind : node.kind = "property_declaration")
    (hkind' : other.kind = "property_declaration") (hms : members bytes node = .ok ms)
    (hms' : members bytes other = .ok ms') : ∃ m, ms[i]? = some m ∧ ms'[i]? = some m := by
  obtain ⟨modifiers, isMutable, hmodifiers, hmutable, hread⟩ := members_eq_ok hkind hms
  obtain ⟨modifiers', isMutable', hmodifiers', hmutable', hread'⟩ := members_eq_ok hkind' hms'
  have hlists : node.childrenOf "modifiers" = other.childrenOf "modifiers" :=
    h.filter_kind (by simp +contextual [isFixed])
  have hkeywords : node.childrenOf "value_binding_pattern" = other.childrenOf "value_binding_pattern" :=
    h.filter_kind (by simp +contextual [isFixed])
  obtain rfl : modifiers = modifiers' := by
    rw [Heading.modifiers, Heading.modifierParts, hlists] at hmodifiers
    exact Except.ok.inj (hmodifiers.symm.trans hmodifiers')
  obtain rfl : isMutable = isMutable' := by
    rw [hkeywords] at hmutable
    exact Bool.eq_iff_iff.mpr (hmutable.trans hmutable'.symm)
  obtain ⟨binding, hbinding, hbinding'⟩ := h.getElem?_bindings
  obtain ⟨m, hm, hmember⟩ := exists_getElem?_of_forall₂ hread hbinding
  obtain ⟨m', hm', hmember'⟩ := exists_getElem?_of_forall₂ hread' hbinding'
  obtain rfl := Except.ok.inj (hmember.symm.trans hmember')
  exact ⟨m, hm, hm'⟩

end Tree.SwiftTree

open Recordsmith.Tree.SwiftTree

/-- A property that can be read gives one variable for each of its patterns, in their order, all with the modifiers and
    the keyword of the property. What else a variable says is read from its pattern and the parts up to the next one,
    so it stays the same under any change of the parts of other groups. Its type, if it has one, is tidy. -/
theorem swift_bindings_are_independent (bytes : List UInt8) (node : Node) (hkind : node.kind = "property_declaration") :
    (node.IsReadable bytes → ∃ ms, members bytes node = .ok ms) ∧
    ∀ ms, members bytes node = .ok ms → ∃ modifiers isMutable, heading.modifiers bytes node = .ok modifiers ∧
      (isMutable = true ↔
        ∃ binding ∈ (node.childrenOf "value_binding_pattern").getLast?, bindingKeyword bytes binding = .ok "var") ∧
      List.Forall₂ (fun pattern m => patternName bytes pattern = .ok m.name ∧
        m.kind = .variable ∧ m.isMutable = isMutable ∧ m.modifiers = modifiers) (node.childrenOf "pattern") ms ∧
      (∀ before pattern parts after, IsGroup pattern parts after → node.children = before ++ pattern :: (parts ++ after) →
        ∃ m, ms[before.countP isPattern]? = some m ∧ Describes bytes pattern parts m) ∧
      (∀ i other ms', other.kind = "property_declaration" → AgreeAt i node.children other.children →
        members bytes other = .ok ms' → ∃ m, ms[i]? = some m ∧ ms'[i]? = some m) ∧
      ∀ m ∈ ms, ∀ type ∈ m.type, Text.IsTidy type.toList := by
  refine ⟨fun hread => exists_eq_ok (isOk_members hread), fun ms hms => ?_⟩
  obtain ⟨modifiers, isMutable, hmodifiers, hmutable, hread⟩ := members_eq_ok hkind hms
  refine ⟨modifiers, isMutable, hmodifiers, hmutable, ?_, ?_, ?_, ?_⟩
  · have hpatterns : (bindings node.children).map (·.1) = node.childrenOf "pattern" := bindings_map_fst _
    rw [← hpatterns, List.forall₂_map_left_iff]
    refine hread.imp fun binding m hmember => ?_
    obtain ⟨hdescribes, hshared⟩ := describes_of_bindingMember hmember
    exact ⟨hdescribes.name, hshared⟩
  · intro before pattern parts after hgroup hchildren
    have hbinding := hgroup.getElem?_bindings before
    rw [← hchildren] at hbinding
    obtain ⟨m, hm, hmember⟩ := exists_getElem?_of_forall₂ hread hbinding
    exact ⟨m, hm, (describes_of_bindingMember hmember).1⟩
  · intro i other ms' hother hagree hms'
    exact hagree.getElem?_members hkind hother hms hms'
  · intro m hm type htype
    obtain ⟨-, -, text, -, hannotated⟩ := (exists_of_mem_members hms hm).2 type htype
    exact isTidy_annotatedType hannotated

namespace Sample

/-- Two variables, the type of the second over two lines. -/
def bindingsSource : List Char := "var x: Int, y:  [A:\n B]".toList

def bindingsProperty (parts : List Node) : Node :=
  ⟨"property_declaration", 0, 23, true, none,
    [⟨"value_binding_pattern", 0, 3, true, none, [⟨"var", 0, 3, false, some "mutability", []⟩]⟩,
      ⟨"pattern", 4, 5, true, some "name", [⟨"simple_identifier", 4, 5, true, none, []⟩]⟩] ++ parts ++
    [⟨"pattern", 12, 13, true, some "name", [⟨"simple_identifier", 12, 13, true, none, []⟩]⟩,
      ⟨"type_annotation", 13, 23, true, none, []⟩]⟩

def typedParts : List Node := [⟨"type_annotation", 5, 10, true, none, []⟩, ⟨",", 10, 11, false, none, []⟩]

def computedParts : List Node := [⟨"=", 5, 6, false, none, []⟩, ⟨"computed_property", 6, 10, true, none, []⟩]

end Sample

open Sample in
/-- What stands between the first pattern and the second does not reach the second variable. -/
theorem swift_bindings_are_independent_second :
    ∃ ms ms' m, members (encode bindingsSource) (bindingsProperty typedParts) = .ok ms ∧
      members (encode bindingsSource) (bindingsProperty computedParts) = .ok ms' ∧ ms ≠ ms' ∧
      ms[1]? = some m ∧ ms'[1]? = some m ∧ m.type = some "[A: B]" := by
  have hruns : (members (encode bindingsSource) (bindingsProperty typedParts)).toOption.any fun ms =>
      (members (encode bindingsSource) (bindingsProperty computedParts)).toOption.any fun ms' =>
        ms ≠ ms' ∧ ms[1]?.bind (·.type) = some "[A: B]" := by decide +kernel
  obtain ⟨ms, hms, hruns⟩ := (Option.any_eq_true _ _).mp hruns
  obtain ⟨ms', hms', hruns⟩ := (Option.any_eq_true _ _).mp hruns
  obtain ⟨hne, htype⟩ := of_decide_eq_true hruns
  have hagree : AgreeAt 1 (bindingsProperty typedParts).children (bindingsProperty computedParts).children := by
    refine ⟨_, _, ⟨"pattern", 12, 13, true, some "name", [⟨"simple_identifier", 12, 13, true, none, []⟩]⟩,
      [⟨"type_annotation", 13, 23, true, none, []⟩], [], [], ?_, ?_, rfl, rfl, rfl, rfl, rfl⟩ <;>
    exact ⟨rfl, by simp, nofun⟩
  obtain ⟨-, hall⟩ := swift_bindings_are_independent (encode bindingsSource) (bindingsProperty typedParts) rfl
  obtain ⟨-, -, -, -, -, -, hindependent, -⟩ := hall ms (Tree.eq_ok_of_toOption hms)
  obtain ⟨m, hm, hm'⟩ := hindependent 1 _ ms' rfl hagree (Tree.eq_ok_of_toOption hms')
  rw [hm] at htype
  exact ⟨ms, ms', m, Tree.eq_ok_of_toOption hms, Tree.eq_ok_of_toOption hms', hne, hm, hm', htype⟩

end Recordsmith
