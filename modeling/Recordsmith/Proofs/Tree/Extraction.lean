import Recordsmith.Proofs.Expansion.Treatment
import Recordsmith.Proofs.Tree.Texts

/-!
Extraction gives one declaration for each node that declares a type, in the order of the preorder. All that can stop it
is a text that cannot be read, so on a tree that is placed on its source it always succeeds.
-/

namespace Recordsmith

open Text.Utf8 (encode)

/-! ### Steps that succeed -/

section Steps
variable {ε α β : Type}

theorem isOk_map {x : Except ε α} (h : x.isOk = true) (f : α → β) : (x.map f).isOk = true := by
  obtain ⟨a, rfl⟩ := exists_eq_ok h
  rfl

theorem isOk_bind {x : Except ε α} {f : α → Except ε β} (h : x.isOk = true) (hf : ∀ a, (f a).isOk = true) :
    (x >>= f).isOk = true := by
  obtain ⟨a, rfl⟩ := exists_eq_ok h
  exact hf a

theorem isOk_mapM {f : α → Except ε β} {xs : List α} (h : ∀ x ∈ xs, (f x).isOk = true) : (xs.mapM f).isOk = true := by
  induction xs with
  | nil => rfl
  | cons x rest ih =>
    rw [List.mapM_cons]
    refine isOk_bind (h x (List.mem_cons_self ..)) fun _ => ?_
    exact isOk_bind (ih fun y hy => h y (List.mem_cons_of_mem _ hy)) fun _ => rfl

end Steps

namespace Tree

/-! ### Nodes that can be read -/

/-- A node over which every text can be read. -/
def Node.IsReadable (bytes : List UInt8) (n : Node) : Prop := ∀ x ∈ n.preorder, (x.text bytes).isOk = true

theorem Placed.isReadable {source : List Char} {root n : Node} (hp : Placed source root) (hn : n ∈ root.preorder) :
    n.IsReadable (encode source) := by
  intro x hx
  rw [(hp x (Node.mem_preorder_trans hx hn)).text_eq]
  rfl

namespace Node.IsReadable
variable {bytes : List UInt8} {n : Node}

theorem self (h : n.IsReadable bytes) : (n.text bytes).isOk = true := h n n.self_mem_preorder

theorem child (h : n.IsReadable bytes) {c : Node} (hc : c ∈ n.children) : c.IsReadable bytes :=
  fun x hx => h x (Node.mem_preorder_child hc hx)

theorem role (h : n.IsReadable bytes) {role : String} {c : Node} (hc : n.child? role = some c) : c.IsReadable bytes :=
  h.child (List.mem_of_find?_eq_some hc)

theorem named (h : n.IsReadable bytes) {c : Node} (hc : c ∈ n.namedChildren) : c.IsReadable bytes :=
  h.child (List.mem_filter.mp hc).1

theorem text? (h : n.IsReadable bytes) (role : String) : (Node.text? bytes (n.child? role)).isOk = true := by
  cases hc : n.child? role with
  | none => rfl
  | some c => exact isOk_map (h.role hc).self _

/-- The text in a role of a child that may be missing. -/
theorem bind_text? (h : n.IsReadable bytes) (outer role : String) :
    (Node.text? bytes ((n.child? outer).bind (·.child? role))).isOk = true := by
  cases hc : n.child? outer with
  | none => rfl
  | some c => exact (h.role hc).text? role

theorem modifiers (h : n.IsReadable bytes) (heading : Heading) : (heading.modifiers bytes n).isOk = true := by
  refine isOk_mapM fun keyword hkeyword => ?_
  obtain ⟨list, hlist, hmem⟩ := List.mem_flatMap.mp (List.mem_filter.mp hkeyword).1
  exact isOk_map ((h.child (List.mem_filter.mp hlist).1).child hmem).self _

end Node.IsReadable

/-! ### Dialects -/

/-- A dialect that fails only on texts that cannot be read. -/
structure Dialect.ReadsTexts (d : Dialect) : Prop where
  attributeName : ∀ {bytes : List UInt8} {mark : Node}, mark.IsReadable bytes → (d.attributeName bytes mark).isOk = true
  typeParameters : ∀ {bytes : List UInt8} {n : Node}, n.IsReadable bytes → (d.typeParameters bytes n).isOk = true
  members : ∀ {bytes : List UInt8} {n : Node}, n.IsReadable bytes → (d.members bytes n).isOk = true

namespace SwiftTree
variable {bytes : List UInt8} {node : Node}

theorem isOk_attributeName (h : node.IsReadable bytes) : (attributeName bytes node).isOk = true := by
  unfold attributeName
  split
  · rename_i type htype
    exact isOk_map (h.named (List.mem_of_find?_eq_some htype)).self _
  · rfl

theorem isOk_typeParameters (h : node.IsReadable bytes) : (typeParameters bytes node).isOk = true := by
  refine isOk_mapM fun name hname => ?_
  obtain ⟨parameter, hparameter, hfind⟩ := List.mem_filterMap.mp hname
  obtain ⟨clause, hclause, hmem⟩ := List.mem_flatMap.mp (List.mem_filter.mp hparameter).1
  exact (((h.named (List.mem_filter.mp hclause).1).named hmem).named (List.mem_of_find?_eq_some hfind)).self

theorem isOk_bindingKeyword (h : node.IsReadable bytes) : (bindingKeyword bytes node).isOk = true := by
  unfold bindingKeyword
  split
  · rfl
  · exact h.self

theorem isOk_patternName (h : node.IsReadable bytes) : (patternName bytes node).isOk = true := by
  unfold patternName
  split
  · rename_i identifier hchildren
    split
    · exact isOk_map (h.named (by rw [hchildren]; exact List.mem_singleton_self _)).self _
    · rfl
  · rfl

theorem isOk_bindingMember {binding : Node × List Node} (hpattern : binding.1.IsReadable bytes)
    (hparts : ∀ part ∈ binding.2, part.IsReadable bytes) (isMutable : Bool) (modifiers : List String) :
    (bindingMember bytes isMutable modifiers binding).isOk = true := by
  refine isOk_bind (isOk_patternName hpattern) fun _ => isOk_bind (isOk_mapM fun part hpart => ?_) fun _ => rfl
  exact (hparts part (List.mem_filter.mp hpart).1).self

theorem isOk_members (h : node.IsReadable bytes) : (members bytes node).isOk = true := by
  unfold members
  split
  · refine isOk_bind (h.modifiers heading) fun _ => isOk_bind (isOk_mapM fun binding hbinding => ?_) fun _ => ?_
    · exact isOk_bindingKeyword (h.child (List.mem_filter.mp hbinding).1)
    · refine isOk_mapM fun binding hbinding => ?_
      obtain ⟨hpattern, hparts⟩ := mem_of_mem_bindings hbinding
      exact isOk_bindingMember (h.child hpattern) (fun part hpart => h.child (hparts part hpart)) ..
  · exact isOk_bind (h.text? "name") fun _ => rfl

theorem readsTexts : dialect.ReadsTexts := ⟨isOk_attributeName, isOk_typeParameters, isOk_members⟩

end SwiftTree

namespace JavaTree
variable {bytes : List UInt8} {node : Node}

theorem isOk_attributeName (h : node.IsReadable bytes) : (attributeName bytes node).isOk = true :=
  isOk_bind (h.text? "name") fun _ => rfl

theorem isOk_typeParameters (h : node.IsReadable bytes) : (typeParameters bytes node).isOk = true := by
  unfold typeParameters
  split
  · rfl
  · rename_i clause hclause
    refine isOk_mapM fun name hname => ?_
    obtain ⟨parameter, hparameter, hfind⟩ := List.mem_filterMap.mp hname
    exact (((h.role hclause).named (List.mem_filter.mp hparameter).1).named (List.mem_of_find?_eq_some hfind)).self

theorem isOk_fieldMember (h : node.IsReadable bytes) : (fieldMember bytes node).isOk = true := by
  refine isOk_bind (h.modifiers heading) fun _ => isOk_bind (h.text? "type") fun type =>
    isOk_bind (h.bind_text? "declarator" "name") fun _ => ?_
  cases type with
  | none => rfl
  | some text => exact isOk_bind (h.bind_text? "declarator" "dimensions") fun _ => rfl

theorem isOk_members (h : node.IsReadable bytes) : (members bytes node).isOk = true := by
  unfold members
  split
  · exact isOk_bind (isOk_fieldMember h) fun _ => rfl
  · exact isOk_bind (h.text? "name") fun _ => rfl

theorem readsTexts : dialect.ReadsTexts := ⟨isOk_attributeName, isOk_typeParameters, isOk_members⟩

end JavaTree

/-! ### Extraction -/

namespace Dialect
variable {d : Dialect} {source : List Char} {bytes : List UInt8} {marker : String} {n : Node}

theorem ReadsTexts.isOk_findAttribute (hd : d.ReadsTexts) {marks : List Node} (h : ∀ m ∈ marks, m.IsReadable bytes) :
    (d.findAttribute bytes marker marks).isOk = true := by
  induction marks with
  | nil => rfl
  | cons mark rest ih =>
    refine isOk_bind (hd.attributeName (h mark (List.mem_cons_self ..))) fun found => ?_
    split
    · rfl
    · exact ih fun m hm => h m (List.mem_cons_of_mem _ hm)

theorem ReadsTexts.isOk_markerOf (hd : d.ReadsTexts) (h : n.IsReadable bytes) :
    (d.markerOf bytes marker n).isOk = true := by
  unfold markerOf
  split
  · rfl
  · refine hd.isOk_findAttribute fun mark hmark => ?_
    obtain ⟨list, hlist, -, hmem⟩ := mem_attributes hmark
    exact (h.child hlist).child hmem

theorem ReadsTexts.isOk_declaration? (hd : d.ReadsTexts) (h : n.IsReadable bytes) :
    (d.declaration? source bytes marker n).isOk = true := by
  unfold declaration?
  split
  · rename_i kind name body hkind hname hbody
    have hmembers : ((d.bodyNodes body).mapM (d.members bytes)).isOk = true := by
      refine isOk_mapM fun node hnode => hd.members ?_
      exact (h.role hbody).named (List.mem_filter.mp hnode).1
    exact isOk_bind (h.modifiers _) fun _ => isOk_bind (hd.isOk_markerOf h) fun _ => isOk_bind hmembers fun _ =>
      isOk_bind (h.role hname).self fun _ => isOk_bind (hd.typeParameters h) fun _ => rfl
  · rfl

/-- The declarations of a tree that is placed on its source can be read. -/
theorem ReadsTexts.exists_extract_eq_ok (hd : d.ReadsTexts) {tree : SourceTree} (hp : Placed source tree.root)
    (marker : String) : ∃ declarations, d.extract source tree marker = .ok declarations := by
  refine exists_eq_ok (isOk_bind (isOk_mapM fun n hn => ?_) fun _ => rfl)
  exact hd.isOk_declaration? (hp.isReadable hn)

def declares (d : Dialect) (n : Node) : Bool :=
  (d.aggregate? n).isSome && (n.child? "name").isSome && (n.child? "body").isSome

theorem declares_iff : d.declares n = true ↔ ∃ body, d.Declares n body := by
  simp only [declares, Bool.and_eq_true]
  constructor
  · rintro ⟨⟨haggregate, hname⟩, hbody⟩
    obtain ⟨body, hbody⟩ := Option.isSome_iff_exists.mp hbody
    exact ⟨body, haggregate, hname, hbody⟩
  · rintro ⟨body, haggregate, hname, hbody⟩
    exact ⟨⟨haggregate, hname⟩, by rw [hbody]; rfl⟩

theorem forall₂_of_mapM {nodes : List Node} {found : List (Option Declaration)}
    (h : nodes.mapM (d.declaration? source bytes marker) = .ok found) :
    List.Forall₂ (fun n r => d.declaration? source bytes marker n = .ok (some r))
      (nodes.filter d.declares) (found.filterMap id) := by
  induction nodes generalizing found with
  | nil =>
    obtain rfl := mapM_nil_eq_ok h
    exact .nil
  | cons n rest ih =>
    obtain ⟨first, more, hfirst, hmore, rfl⟩ := mapM_cons_eq_ok h
    cases first with
    | none =>
      have hnot : ¬d.declares n = true := by
        intro hdeclares
        obtain ⟨body, hbody⟩ := declares_iff.mp hdeclares
        exact not_declares_of_declaration?_eq_none hfirst hbody
      rw [List.filter_cons_of_neg hnot, List.filterMap_cons_none rfl]
      exact ih hmore
    | some r =>
      obtain ⟨body, -, -, hbody, -⟩ := declaration?_eq_some hfirst
      rw [List.filter_cons_of_pos (declares_iff.mpr ⟨body, hbody⟩)]
      exact .cons hfirst (ih hmore)

/-- Each declaration of a tree is read from its node, and no node that declares a type is passed over. -/
theorem forall₂_of_extract {tree : SourceTree} {declarations : List Declaration}
    (h : d.extract source tree marker = .ok declarations) :
    List.Forall₂ (fun n r => d.declaration? source (encode source) marker n = .ok (some r))
      (tree.root.preorder.filter d.declares) declarations := by
  obtain ⟨found, hfound, hfiltered⟩ := bind_eq_ok h
  obtain rfl := Except.ok.inj hfiltered
  exact forall₂_of_mapM hfound

end Dialect

end Tree

end Recordsmith
