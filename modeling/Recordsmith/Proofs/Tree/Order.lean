import Mathlib.Data.List.Basic
import Mathlib.Data.List.Pairwise
import Recordsmith.Tree.Node

/-!
Order in a tree. Where the children of every node lie inside it, one after the other, two nodes of the preorder are
either nested, the outer one first, or the first of them ends before the second starts.
-/

namespace Recordsmith.Tree.Node

/-! ### The preorder -/

@[simp] theorem preorder_eq (n : Node) : n.preorder = n :: preorderAll n.children := by
  cases n
  rw [preorder]

@[simp] theorem preorderAll_nil : preorderAll [] = [] := by rw [preorderAll]

@[simp] theorem preorderAll_cons (n : Node) (rest : List Node) :
    preorderAll (n :: rest) = n.preorder ++ preorderAll rest := by
  rw [preorderAll]

theorem self_mem_preorder (n : Node) : n ∈ n.preorder := by
  rw [preorder_eq]
  exact List.mem_cons_self ..

theorem mem_preorderAll {m : Node} {nodes : List Node} : m ∈ preorderAll nodes ↔ ∃ n ∈ nodes, m ∈ n.preorder := by
  induction nodes with
  | nil => simp
  | cons n rest ih => rw [preorderAll_cons, List.mem_append, ih, List.exists_mem_cons_iff]

theorem mem_preorder_iff {m n : Node} : m ∈ n.preorder ↔ m = n ∨ ∃ c ∈ n.children, m ∈ c.preorder := by
  rw [preorder_eq, List.mem_cons, mem_preorderAll]

theorem mem_preorder_child {m n c : Node} (hc : c ∈ n.children) (h : m ∈ c.preorder) : m ∈ n.preorder :=
  mem_preorder_iff.mpr (Or.inr ⟨c, hc, h⟩)

/-- What holds of every node whose children it holds of holds of every node. -/
theorem induction_on {motive : Node → Prop} (h : ∀ n : Node, (∀ c ∈ n.children, motive c) → motive n) (n : Node) :
    motive n := by
  obtain ⟨kind, start, stop, named, field, children⟩ := n
  exact h _ fun c hc => induction_on h c
termination_by sizeOf n
decreasing_by
  have := List.sizeOf_lt_of_mem hc
  simp_all
  omega

theorem mem_preorder_trans {a b c : Node} (hab : a ∈ b.preorder) (hbc : b ∈ c.preorder) : a ∈ c.preorder := by
  induction c using induction_on with
  | h c ih =>
    rcases mem_preorder_iff.mp hbc with rfl | ⟨x, hx, hbx⟩
    · exact hab
    · exact mem_preorder_child hx (ih x hx hbx)

theorem mem_preorder_of_child {root n c : Node} (hn : n ∈ root.preorder) (hc : c ∈ n.children) : c ∈ root.preorder :=
  mem_preorder_trans (mem_preorder_child hc c.self_mem_preorder) hn

/-! ### Nested and ordered ranges -/

/-- A node whose children lie inside it, one after the other. -/
structure IsOrdered (n : Node) : Prop where
  start_le_stop : n.start ≤ n.stop
  inside : ∀ c ∈ n.children, n.start ≤ c.start ∧ c.stop ≤ n.stop
  siblings : n.children.Pairwise fun a b => a.stop ≤ b.start

/-- The first of two nodes holds the second inside one of its children, or ends before it. -/
def Before (a b : Node) : Prop := (∃ c ∈ a.children, b ∈ c.preorder) ∨ a.stop ≤ b.start

/-- A node of an ordered tree lies inside the tree's root. -/
theorem range_of_mem_preorder {m n : Node} (hn : ∀ x ∈ n.preorder, x.IsOrdered) (h : m ∈ n.preorder) :
    n.start ≤ m.start ∧ m.start ≤ m.stop ∧ m.stop ≤ n.stop := by
  induction n using induction_on with
  | h n ih =>
    rcases mem_preorder_iff.mp h with rfl | ⟨c, hc, hm⟩
    · exact ⟨Nat.le_refl _, (hn m (self_mem_preorder m)).start_le_stop, Nat.le_refl _⟩
    · obtain ⟨h1, h2⟩ := (hn n (self_mem_preorder n)).inside c hc
      obtain ⟨h3, h4, h5⟩ := ih c hc (fun x hx => hn x (mem_preorder_child hc hx)) hm
      exact ⟨Nat.le_trans h1 h3, h4, Nat.le_trans h5 h2⟩

theorem IsOrdered.children_cases {n a b : Node} (h : n.IsOrdered) (ha : a ∈ n.children) (hb : b ∈ n.children) :
    a = b ∨ a.stop ≤ b.start ∨ b.stop ≤ a.start := by
  let R : Node → Node → Prop := fun a b => a = b ∨ a.stop ≤ b.start ∨ b.stop ≤ a.start
  have hpairs : n.children.Pairwise R := h.siblings.imp fun hab => Or.inr (Or.inl hab)
  have : Std.Symm R := ⟨fun a b hab => by
    rcases hab with rfl | hab | hab
    · exact Or.inl rfl
    · exact Or.inr (Or.inr hab)
    · exact Or.inr (Or.inl hab)⟩
  have hself : ∀ x ∈ n.children, R x x := fun _ _ => Or.inl rfl
  exact hpairs.forall_of_forall hself ha hb

theorem preorderAll_pairwise_before {nodes : List Node} (hord : ∀ x ∈ preorderAll nodes, x.IsOrdered)
    (hsib : nodes.Pairwise fun a b => a.stop ≤ b.start) (hnodes : ∀ n ∈ nodes, n.preorder.Pairwise Before) :
    (preorderAll nodes).Pairwise Before := by
  induction nodes with
  | nil => simp
  | cons n rest ih =>
    obtain ⟨hfirst, hrest⟩ := List.pairwise_cons.mp hsib
    rw [preorderAll_cons] at hord ⊢
    refine List.pairwise_append.mpr ⟨hnodes n (List.mem_cons_self ..),
      ih (fun x hx => hord x (List.mem_append_right _ hx)) hrest fun m hm => hnodes m (List.mem_cons_of_mem _ hm), ?_⟩
    intro a ha b hb
    obtain ⟨m, hm, hbm⟩ := mem_preorderAll.mp hb
    have hna := range_of_mem_preorder (fun x hx => hord x (List.mem_append_left _ hx)) ha
    have hmb := range_of_mem_preorder
      (fun x hx => hord x (List.mem_append_right _ (mem_preorderAll.mpr ⟨m, hm, hx⟩))) hbm
    exact Or.inr (Nat.le_trans hna.2.2 (Nat.le_trans (hfirst m hm) hmb.1))

/-- Of two nodes of an ordered tree's preorder, the first holds the second or ends before it. -/
theorem preorder_pairwise_before {n : Node} (hn : ∀ x ∈ n.preorder, x.IsOrdered) : n.preorder.Pairwise Before := by
  induction n using induction_on with
  | h n ih =>
    rw [preorder_eq]
    have hbelow : ∀ c ∈ n.children, ∀ x ∈ c.preorder, x.IsOrdered := fun c hc x hx => hn x (mem_preorder_child hc hx)
    refine List.pairwise_cons.mpr ⟨fun b hb => Or.inl (mem_preorderAll.mp hb), ?_⟩
    refine preorderAll_pairwise_before (fun x hx => ?_) (hn n (self_mem_preorder n)).siblings
      fun c hc => ih c hc (hbelow c hc)
    obtain ⟨c, hc, hx⟩ := mem_preorderAll.mp hx
    exact hbelow c hc x hx

end Recordsmith.Tree.Node
