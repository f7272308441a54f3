import Recordsmith.Proofs.Expansion.Insertion
import Recordsmith.Proofs.Expansion.Modes
import Recordsmith.Proofs.Source.Pieces
import Recordsmith.Proofs.Tree.Extraction
import Recordsmith.Registry

/-!
Sources without a marked declaration are left as they are. Where the nodes of their trees lie between characters of the
source, finding the declarations cannot fail; and without a marker there is nothing to treat.
-/

namespace Recordsmith

open Text.Utf8 (IsBoundary encode)
open Recordsmith.Tree (Node Dialect SourceTree)
open Recordsmith.Source (NodeOn)

/-! ### Reading -/

theorem Source.NodeOn.isReadable {source : List Char} {root n : Node} (h : NodeOn (IsBoundary source) root)
    (hn : n ∈ root.preorder) : n.IsReadable (encode source) := by
  intro x hx
  obtain ⟨hstart, hstop⟩ := h x (Node.mem_preorder_trans hx hn)
  rcases Nat.le_total x.start x.stop with hle | hle
  · rw [Node.text, hstart.decode_between hstop hle]
    rfl
  · rw [Node.text, Nat.sub_eq_zero_of_le hle, List.take_zero]
    rfl

namespace LanguageKit
variable {k : LanguageKit} {source : List Char} {config : Config} {marker : String}

theorem readsTexts (hk : k = .swift ∨ k = .java) : k.dialect.ReadsTexts := by
  rcases hk with rfl | rfl
  · exact Tree.SwiftTree.readsTexts
  · exact Tree.JavaTree.readsTexts

/-- The declarations of a source can be read if its nodes lie between its characters. -/
theorem exists_extract_eq_ok (hreads : k.dialect.ReadsTexts) (hon : NodeOn (IsBoundary source) (k.read source).root)
    (marker : String) : ∃ declarations, k.extract source marker = .ok declarations := by
  refine exists_eq_ok (isOk_bind (isOk_mapM fun n hn => ?_) fun _ => rfl)
  exact hreads.isOk_declaration? (hon.isReadable hn)

/-! ### Expanding -/

/-- A source none of whose declarations has an attribute of that name. An empty name marks nothing. -/
def Unmarked (k : LanguageKit) (source : List Char) (marker : String) : Prop :=
  ∀ n ∈ (k.read source).root.preorder, k.dialect.declares n = true → marker ≠ "" →
    ∀ mark ∈ k.dialect.attributes n, k.dialect.attributeName (encode source) mark ≠ .ok marker

instance : Decidable (k.Unmarked source marker) :=
  inferInstanceAs (Decidable (∀ n ∈ (k.read source).root.preorder, k.dialect.declares n = true → marker ≠ "" →
    ∀ mark ∈ k.dialect.attributes n, k.dialect.attributeName (encode source) mark ≠ .ok marker))

theorem Unmarked.markerOf_ne (h : k.Unmarked source marker) {n body : Node} (hn : n ∈ (k.read source).root.preorder)
    (hd : k.dialect.Declares n body) (mark : Node) :
    k.dialect.markerOf (encode source) marker n ≠ .ok (some mark) := by
  intro hmark
  unfold Dialect.markerOf at hmark
  split at hmark
  · cases hmark
  · rename_i hmarker
    obtain ⟨hmem, hname⟩ := Dialect.findAttribute_eq_some hmark
    exact h n hn (Dialect.declares_iff.mpr ⟨body, hd⟩) hmarker mark hmem hname

theorem Unmarked.isMarked_eq_false (h : k.Unmarked source marker) {declarations : List Declaration}
    (hextract : k.extract source marker = .ok declarations) {r : Declaration} (hr : r ∈ declarations) :
    r.isMarked = false := by
  obtain ⟨n, hn, hread⟩ := (Dialect.mem_extract hextract).mp hr
  obtain ⟨body, mark, -, hd, hmark, -, -, -, hspan⟩ := Dialect.declaration?_eq_some hread
  cases mark with
  | none => simp [Declaration.isMarked, hspan, Dialect.spanOf]
  | some mark => exact absurd hmark (h.markerOf_ne hn hd mark)

theorem treatments_eq_nil {renderer : Code.Renderer} {declarations : List Declaration}
    (h : ∀ r ∈ declarations, r.isMarked = false) :
    Expansion.treatments renderer source config declarations = .ok [] := by
  induction declarations with
  | nil => rfl
  | cons r rest ih =>
    obtain ⟨hr, hrest⟩ := List.forall_mem_cons.mp h
    rw [Expansion.treatments_cons_of_not_marked hr]
    exact ih hrest

/-- A source without a marked declaration is its own expansion. -/
theorem Unmarked.expand_eq (h : k.Unmarked source config.synthesis.marker) (hreads : k.dialect.ReadsTexts)
    (hon : NodeOn (IsBoundary source) (k.read source).root) : k.expand source config = .ok { source := source } := by
  obtain ⟨declarations, hextract⟩ := exists_extract_eq_ok hreads hon config.synthesis.marker
  have htreatments : Expansion.treatments k.renderer source config declarations = .ok [] :=
    treatments_eq_nil fun r hr => h.isMarked_eq_false hextract hr
  rw [expand, expandTree_of_extract hextract, htreatments]
  simp [Except.map, Except.mapError, Expansion.ofTreatments, Edit.applyAll]

end LanguageKit

end Recordsmith
