import Mathlib.Data.List.Basic
import Recordsmith.LanguageKit
import Recordsmith.Proofs.Tree.WellFormed
import Recordsmith.Steps

/-!
What a successful expansion has done. It has treated exactly the marked declarations of the tree, in the order of the
preorder: each was read from its node, its marker is to be removed, and if it got members, they are to be inserted.
-/

namespace Recordsmith

open Text.Utf8 (DecodeError encode charOffset)
open Recordsmith.Tree (Node Dialect SourceTree)

/-! ### Declarations -/

namespace Tree.Dialect
variable {d : Dialect} {source : List Char} {bytes : List UInt8} {marker : String} {n body : Node}

/-- A node that declares a type with this body and carries this marker. -/
structure Marked (d : Dialect) (bytes : List UInt8) (marker : String) (n body mark : Node) : Prop
    extends d.Declares n body where
  marks : d.markerOf bytes marker n = .ok (some mark)

theorem declaration?_eq_some {r : Declaration} (h : d.declaration? source bytes marker n = .ok (some r)) :
    ∃ body mark members, d.Declares n body ∧ d.markerOf bytes marker n = .ok mark ∧
      (d.bodyNodes body).mapM (d.members bytes) = .ok members ∧ r.members = members.flatten ∧
      d.aggregate? n = some r.kind ∧ r.span = some (d.spanOf source n body mark) := by
  unfold declaration? at h
  split at h
  · rename_i kind name body hkind hname hbody
    obtain ⟨modifiers, -, h⟩ := bind_eq_ok h
    obtain ⟨mark, hmark, h⟩ := bind_eq_ok h
    obtain ⟨members, hmembers, h⟩ := bind_eq_ok h
    obtain ⟨text, -, h⟩ := bind_eq_ok h
    obtain ⟨parameters, -, h⟩ := bind_eq_ok h
    obtain rfl := Option.some.inj (Except.ok.inj h)
    have hdeclares : d.Declares n body :=
      { aggregate := by rw [hkind]; rfl
        name := by rw [hname]; rfl
        body := hbody }
    exact ⟨body, mark, members, hdeclares, hmark, hmembers, rfl, hkind, rfl⟩
  · cases h

theorem not_declares_of_declaration?_eq_none (h : d.declaration? source bytes marker n = .ok none) :
    ¬d.Declares n body := by
  intro hd
  obtain ⟨kind, hkind⟩ := Option.isSome_iff_exists.mp hd.aggregate
  obtain ⟨name, hname⟩ := Option.isSome_iff_exists.mp hd.name
  unfold declaration? at h
  rw [hkind, hname, hd.body] at h
  obtain ⟨modifiers, -, h⟩ := bind_eq_ok h
  obtain ⟨mark, -, h⟩ := bind_eq_ok h
  obtain ⟨members, -, h⟩ := bind_eq_ok h
  obtain ⟨text, -, h⟩ := bind_eq_ok h
  obtain ⟨parameters, -, h⟩ := bind_eq_ok h
  cases h

theorem Declares.body_unique {other : Node} (h : d.Declares n body) (h' : d.Declares n other) : body = other :=
  Option.some.inj (h.body.symm.trans h'.body)

/-- The members of a declaration are those that the nodes of its body give. -/
theorem mem_members_iff {r : Declaration} (hd : d.Declares n body)
    (h : d.declaration? source bytes marker n = .ok (some r)) :
    (∀ node ∈ d.bodyNodes body, ∃ ms, d.members bytes node = .ok ms) ∧
      ∀ m, m ∈ r.members ↔ ∃ node ∈ d.bodyNodes body, ∃ ms, d.members bytes node = .ok ms ∧ m ∈ ms := by
  obtain ⟨body', -, members, hd', -, hmembers, hall, -, -⟩ := declaration?_eq_some h
  obtain rfl := hd.body_unique hd'
  rw [hall]
  refine ⟨fun node hnode => ?_, fun m => ?_⟩
  · obtain ⟨ms, -, hms⟩ := exists_of_mapM_eq_ok hmembers hnode
    exact ⟨ms, hms⟩
  · rw [List.mem_flatten]
    constructor
    · rintro ⟨ms, hms, hm⟩
      obtain ⟨node, hnode, hread⟩ := mem_of_mapM_eq_ok hmembers hms
      exact ⟨node, hnode, ms, hread, hm⟩
    · rintro ⟨node, hnode, ms, hread, hm⟩
      obtain ⟨ms', hms', hread'⟩ := exists_of_mapM_eq_ok hmembers hnode
      obtain rfl := Except.ok.inj (hread.symm.trans hread')
      exact ⟨ms, hms', hm⟩

/-- The edit that takes a marker out of the source, with the gap after it. -/
def removal (source : List Char) (mark : Node) : Edit :=
  ⟨charOffset source mark.start, Text.gapEnd source (charOffset source mark.stop), []⟩

end Tree.Dialect

/-! ### Treatments -/

namespace LanguageKit
variable {k : LanguageKit} {source : List Char} {config : Config} {n : Node} {t : Treatment}

/-- How the declaration of a node has come to its treatment: it was read from the node, members were generated for it,
    and its marker is to be removed and the members are to be inserted. -/
structure Treats (k : LanguageKit) (source : List Char) (config : Config) (n body mark : Node) (r : Declaration)
    (members : List GeneratedMember) (t : Treatment) : Prop where
  marked : k.dialect.Marked (encode source) config.synthesis.marker n body mark
  read : k.dialect.declaration? source (encode source) config.synthesis.marker n = .ok (some r)
  assembled : r.assemble config.synthesis = .ok members
  name : t.name = r.name
  memberCount : t.memberCount = members.length
  edits : members = [] ∧ t.edits = [Dialect.removal source mark] ∨ members ≠ [] ∧ t.edits =
    [Dialect.removal source mark, (k.dialect.spanOf source n body (some mark)).insertion source
      (k.renderer.members members r (Expansion.indentOf config.output r))]

theorem treats_of_treat {body mark : Node} {r : Declaration}
    (hmarked : k.dialect.Marked (encode source) config.synthesis.marker n body mark)
    (hread : k.dialect.declaration? source (encode source) config.synthesis.marker n = .ok (some r))
    (h : Expansion.treat k.renderer source config r (k.dialect.spanOf source n body (some mark))
      (charOffset source mark.start) = .ok t) : ∃ members, k.Treats source config n body mark r members t := by
  unfold Expansion.treat at h
  obtain ⟨members, hmembers, h⟩ := bind_eq_ok h
  refine ⟨members, ?_⟩
  split at h
  · rename_i hempty
    obtain rfl := List.isEmpty_iff.mp hempty
    obtain rfl := Except.ok.inj h
    exact ⟨hmarked, hread, hmembers, rfl, rfl, Or.inl ⟨rfl, rfl⟩⟩
  · rename_i hempty
    obtain rfl := Except.ok.inj h
    exact ⟨hmarked, hread, hmembers, rfl, rfl, Or.inr ⟨mt List.isEmpty_iff.mpr hempty, rfl⟩⟩

/-- The marked ones among some nodes, in their order, each with its treatment. -/
structure TreatsAll (k : LanguageKit) (source : List Char) (config : Config) (nodes : List Node)
    (pairs : List (Node × Treatment)) : Prop where
  sublist : (pairs.map (·.1)).Sublist nodes
  treats : ∀ p ∈ pairs, ∃ body mark r members, k.Treats source config p.1 body mark r members p.2
  complete : ∀ n ∈ nodes, ∀ body mark, k.dialect.Marked (encode source) config.synthesis.marker n body mark →
    n ∈ pairs.map (·.1)

namespace TreatsAll
variable {nodes : List Node} {pairs : List (Node × Treatment)}

theorem nil : k.TreatsAll source config [] [] := ⟨List.Sublist.slnil, by simp, by simp⟩

theorem skip (h : k.TreatsAll source config nodes pairs)
    (hnot : ∀ body mark, ¬k.dialect.Marked (encode source) config.synthesis.marker n body mark) :
    k.TreatsAll source config (n :: nodes) pairs := by
  refine ⟨h.sublist.cons n, h.treats, fun m hm body mark hmarked => ?_⟩
  rcases List.mem_cons.mp hm with rfl | hm
  · exact absurd hmarked (hnot body mark)
  · exact h.complete m hm body mark hmarked

theorem cons (h : k.TreatsAll source config nodes pairs) {body mark : Node} {r : Declaration}
    {members : List GeneratedMember} (ht : k.Treats source config n body mark r members t) :
    k.TreatsAll source config (n :: nodes) ((n, t) :: pairs) := by
  refine ⟨h.sublist.cons_cons n, fun p hp => ?_, fun m hm body mark hmarked => ?_⟩
  · rcases List.mem_cons.mp hp with rfl | hp
    · exact ⟨body, mark, r, members, ht⟩
    · exact h.treats p hp
  · rcases List.mem_cons.mp hm with rfl | hm
    · exact List.mem_cons_self ..
    · exact List.mem_cons_of_mem _ (h.complete m hm body mark hmarked)

end TreatsAll

theorem exists_treatsAll {nodes : List Node} {found : List (Option Declaration)} {ts : List Treatment}
    (hfound : nodes.mapM (k.dialect.declaration? source (encode source) config.synthesis.marker) = .ok found)
    (hts : Expansion.treatments k.renderer source config (found.filterMap id) = .ok ts) :
    ∃ pairs, k.TreatsAll source config nodes pairs ∧ pairs.map (·.2) = ts := by
  induction nodes generalizing found ts with
  | nil =>
    obtain rfl := mapM_nil_eq_ok hfound
    obtain rfl := Except.ok.inj hts
    exact ⟨[], TreatsAll.nil, rfl⟩
  | cons n rest ih =>
    obtain ⟨first, more, hfirst, hmore, rfl⟩ := mapM_cons_eq_ok hfound
    cases first with
    | none =>
      obtain ⟨pairs, hall, hsnd⟩ := ih hmore hts
      exact ⟨pairs, hall.skip fun _ _ hmarked =>
        Dialect.not_declares_of_declaration?_eq_none hfirst hmarked.toDeclares, hsnd⟩
    | some r =>
      obtain ⟨body, mark?, -, hdeclares, hmark, -, -, -, hspan⟩ := Dialect.declaration?_eq_some hfirst
      rw [List.filterMap_cons, id_eq] at hts
      unfold Expansion.treatments at hts
      cases mark? with
      | none =>
        -- Without a marker the span has no place for one, and the declaration is passed over.
        simp only [hspan, Dialect.spanOf, Option.map_none] at hts
        obtain ⟨pairs, hall, hsnd⟩ := ih hmore hts
        refine ⟨pairs, hall.skip fun body' mark hmarked => ?_, hsnd⟩
        cases hmark.symm.trans hmarked.marks
      | some mark =>
        simp only [hspan] at hts
        obtain ⟨t, ht, hts⟩ := bind_eq_ok hts
        obtain ⟨others, hothers, hts⟩ := bind_eq_ok hts
        obtain rfl := Except.ok.inj hts
        obtain ⟨members, htreats⟩ := treats_of_treat ⟨hdeclares, hmark⟩ hfirst ht
        obtain ⟨pairs, hall, hsnd⟩ := ih hmore hothers
        exact ⟨(n, t) :: pairs, hall.cons htreats, by rw [List.map_cons, hsnd]⟩

/-- A successful expansion has read the declarations of the tree, treated the marked ones in the order of the preorder
    and applied all their edits. -/
theorem expandTree_eq_ok {tree : SourceTree} {e : Expansion} (h : k.expandTree source tree config = .ok e) :
    ∃ declarations pairs, k.dialect.extract source tree config.synthesis.marker = .ok declarations ∧
      Expansion.treatments k.renderer source config declarations = .ok (pairs.map (·.2)) ∧
      e = Expansion.ofTreatments source (pairs.map (·.2)) ∧ k.TreatsAll source config tree.root.preorder pairs := by
  obtain ⟨declarations, hdeclarations, h⟩ := bind_eq_ok h
  obtain ⟨treatments, htreatments, he⟩ := bind_eq_ok h
  have hextract := mapError_eq_ok hdeclarations
  have htreated := mapError_eq_ok htreatments
  obtain ⟨found, hfound, hfiltered⟩ := bind_eq_ok hextract
  obtain rfl := Except.ok.inj hfiltered
  obtain ⟨pairs, hall, rfl⟩ := exists_treatsAll hfound htreated
  exact ⟨_, pairs, hextract, htreated, (Except.ok.inj he).symm, hall⟩

end LanguageKit

end Recordsmith
