import Mathlib.Data.List.Forall2
import Recordsmith.Proofs.Tree.Order
import Recordsmith.Registry

/-!
Comments do not matter. A tree may lose any of its comments, leaves that play no role in their parents, and the
declarations read from it stay the same. Wherever children are looked at, comments are passed over; only the parts of a
Swift pattern are counted, so a comment directly in one has to stay.
-/

namespace Recordsmith

/-! ### Thinned lists -/

/-- The second list is the first one without some elements that may be dropped, its others related one by one. -/
inductive Thins {α β : Type} (drops : α → Prop) (R : α → β → Prop) : List α → List β → Prop
  | nil : Thins drops R [] []
  | keep {a : α} {b : β} {as : List α} {bs : List β} (hab : R a b) (h : Thins drops R as bs) :
      Thins drops R (a :: as) (b :: bs)
  | drop {a : α} {as : List α} {bs : List β} (ha : drops a) (h : Thins drops R as bs) : Thins drops R (a :: as) bs

namespace Thins
variable {α β : Type} {drops : α → Prop} {R : α → β → Prop} {as : List α} {bs : List β} {p : α → Bool} {q : β → Bool}

theorem append {as' : List α} {bs' : List β} (h : Thins drops R as bs) (h' : Thins drops R as' bs') :
    Thins drops R (as ++ as') (bs ++ bs') := by
  induction h with
  | nil => exact h'
  | keep hab _ ih => exact .keep hab ih
  | drop ha _ ih => exact .drop ha ih

/-- Where nothing that may be dropped is looked at, nothing is missing. -/
theorem filter (h : Thins drops R as bs) (hdrops : ∀ a, drops a → p a = false) (hR : ∀ a b, R a b → p a = q b) :
    List.Forall₂ R (as.filter p) (bs.filter q) := by
  induction h with
  | nil => exact .nil
  | @keep a b as bs hab _ ih =>
    cases hp : p a with
    | true =>
      rw [List.filter_cons_of_pos hp, List.filter_cons_of_pos (hR a b hab ▸ hp)]
      exact .cons hab ih
    | false =>
      rw [List.filter_cons_of_neg (by simp [hp]), List.filter_cons_of_neg (by simp [← hR a b hab, hp])]
      exact ih
  | drop ha _ ih =>
    rw [List.filter_cons_of_neg (by simp [hdrops _ ha])]
    exact ih

theorem find? (h : Thins drops R as bs) (hdrops : ∀ a, drops a → p a = false) (hR : ∀ a b, R a b → p a = q b) :
    Option.Rel R (as.find? p) (bs.find? q) := by
  induction h with
  | nil => exact .none
  | keep hab _ ih =>
    rw [List.find?_cons, List.find?_cons, hR _ _ hab]
    split
    · exact .some hab
    · exact ih
  | drop ha _ ih =>
    rw [List.find?_cons, hdrops _ ha]
    exact ih

theorem any (h : Thins drops R as bs) (hdrops : ∀ a, drops a → p a = false) (hR : ∀ a b, R a b → p a = q b) :
    as.any p = bs.any q := by
  induction h with
  | nil => rfl
  | keep hab _ ih => rw [List.any_cons, List.any_cons, hR _ _ hab, ih]
  | drop ha _ ih => rw [List.any_cons, hdrops _ ha, Bool.false_or, ih]

theorem takeWhile (h : Thins drops R as bs) (hdrops : ∀ a, drops a → p a = true) (hR : ∀ a b, R a b → p a = q b) :
    Thins drops R (as.takeWhile p) (bs.takeWhile q) := by
  induction h with
  | nil => exact .nil
  | keep hab _ ih =>
    rw [List.takeWhile_cons, List.takeWhile_cons, hR _ _ hab]
    split
    · exact .keep hab ih
    · exact .nil
  | drop ha _ ih =>
    rw [List.takeWhile_cons, hdrops _ ha]
    exact .drop ha ih

end Thins

/-! ### Traversals -/

section Traversals
variable {α β γ ε : Type} {R : α → β → Prop} {as : List α} {bs : List β}

theorem mapM_eq_of_forall₂ {f : α → Except ε γ} {g : β → Except ε γ} (h : List.Forall₂ R as bs)
    (hR : ∀ a b, R a b → f a = g b) : as.mapM f = bs.mapM g := by
  induction h with
  | nil => rfl
  | cons hab _ ih => rw [List.mapM_cons, List.mapM_cons, hR _ _ hab, ih]

theorem rel_head?_of_forall₂ (h : List.Forall₂ R as bs) : Option.Rel R as.head? bs.head? := by
  cases h with
  | nil => exact .none
  | cons hab _ => exact .some hab

theorem rel_cases {x : Option α} {y : Option β} (h : Option.Rel R x y) :
    x = none ∧ y = none ∨ ∃ a b, x = some a ∧ y = some b ∧ R a b := by
  cases h with
  | none => exact Or.inl ⟨rfl, rfl⟩
  | some hab => exact Or.inr ⟨_, _, rfl, rfl, hab⟩

/-- What a traversal finds. -/
def gather (f : α → Except ε (Option γ)) (as : List α) : Except ε (List γ) := do
  return (← as.mapM f).filterMap id

theorem gather_cons (f : α → Except ε (Option γ)) (a : α) (as : List α) :
    gather f (a :: as) = do return (← f a).toList ++ (← gather f as) := by
  unfold gather
  rw [List.mapM_cons]
  cases f a with
  | error e => rfl
  | ok found =>
    cases as.mapM f with
    | error e => rfl
    | ok rest => cases found <;> rfl

theorem Thins.gather_eq {drops : α → Prop} {f : α → Except ε (Option γ)} {g : β → Except ε (Option γ)}
    (h : Thins drops R as bs) (hdrops : ∀ a, drops a → f a = .ok none) (hR : ∀ a b, R a b → f a = g b) :
    gather f as = gather g bs := by
  induction h with
  | nil => rfl
  | keep hab _ ih => rw [gather_cons, gather_cons, hR _ _ hab, ih]
  | @drop a as bs ha _ ih =>
    rw [gather_cons, hdrops a ha, ih]
    cases gather g bs <;> rfl

end Traversals

/-! ### Trees that lose comments -/

namespace Tree

/-- A comment that the parent does without: a leaf without a role, and no part of a Swift pattern. -/
structure Dialect.Drops (d : Dialect) (parent c : Node) : Prop where
  comment : d.isComment c = true
  leaf : c.children = []
  role : c.field = none
  uncounted : ¬(d.language = .swift ∧ parent.kind = "pattern")

mutual

/-- The second node is the first one without some of the comments below it. -/
inductive Dialect.Sheds (d : Dialect) : Node → Node → Prop
  | node {n : Node} {children : List Node} (h : Dialect.ShedsFrom d n n.children children) :
      Dialect.Sheds d n { n with children := children }

inductive Dialect.ShedsFrom (d : Dialect) : Node → List Node → List Node → Prop
  | nil {parent : Node} : Dialect.ShedsFrom d parent [] []
  | keep {parent c c' : Node} {cs cs' : List Node} (hc : Dialect.Sheds d c c') (h : Dialect.ShedsFrom d parent cs cs') :
      Dialect.ShedsFrom d parent (c :: cs) (c' :: cs')
  | drop {parent c : Node} {cs cs' : List Node} (hc : d.Drops parent c) (h : Dialect.ShedsFrom d parent cs cs') :
      Dialect.ShedsFrom d parent (c :: cs) cs'

end

/-- A test that no comment passes, and for which no comment below a node matters. -/
structure Dialect.Overlooks (d : Dialect) (p : Node → Bool) : Prop where
  comment : ∀ {c : Node}, d.isComment c = true → p c = false
  same : ∀ {c c' : Node}, d.Sheds c c' → p c = p c'

namespace Dialect
variable {d : Dialect} {n n' : Node} {bytes : List UInt8} {p : Node → Bool}

theorem ShedsFrom.thins {cs cs' : List Node} (h : d.ShedsFrom n cs cs') : Thins (d.Drops n) d.Sheds cs cs' := by
  induction cs generalizing cs' with
  | nil =>
    cases h
    exact .nil
  | cons c rest ih =>
    cases h with
    | keep hc h => exact .keep hc (ih h)
    | drop hc h => exact .drop hc (ih h)

theorem ShedsFrom.of_forall {cs : List Node} (h : ∀ c ∈ cs, d.Sheds c c) : d.ShedsFrom n cs cs := by
  induction cs with
  | nil => exact .nil
  | cons c rest ih =>
    obtain ⟨hc, hrest⟩ := List.forall_mem_cons.mp h
    exact .keep hc (ih hrest)

namespace Sheds

theorem thins (h : d.Sheds n n') : Thins (d.Drops n) d.Sheds n.children n'.children := by
  cases h with
  | node h => exact h.thins

theorem refl (d : Dialect) (n : Node) : d.Sheds n n := by
  induction n using Node.induction_on with
  | h n ih =>
    obtain ⟨kind, start, stop, named, field, children⟩ := n
    exact .node (.of_forall ih)

theorem kind_eq (h : d.Sheds n n') : n.kind = n'.kind := by cases h; rfl

theorem start_eq (h : d.Sheds n n') : n.start = n'.start := by cases h; rfl

theorem stop_eq (h : d.Sheds n n') : n.stop = n'.stop := by cases h; rfl

theorem named_eq (h : d.Sheds n n') : n.named = n'.named := by cases h; rfl

theorem field_eq (h : d.Sheds n n') : n.field = n'.field := by cases h; rfl

theorem text_eq (h : d.Sheds n n') : n.text bytes = n'.text bytes := by cases h; rfl

theorem preorder (h : d.Sheds n n') : Thins (fun c => d.isComment c = true) d.Sheds n.preorder n'.preorder := by
  induction n using Node.induction_on generalizing n' with
  | h n ih =>
    -- What is dropped is a leaf, so it takes nothing with it.
    have hall {cs cs' : List Node} (hcs : ∀ c ∈ cs, c ∈ n.children) (h : Thins (d.Drops n) d.Sheds cs cs') :
        Thins (fun c => d.isComment c = true) d.Sheds (Node.preorderAll cs) (Node.preorderAll cs') := by
      induction h with
      | nil => simpa using Thins.nil
      | keep hc _ ih' =>
        obtain ⟨hmem, hrest⟩ := List.forall_mem_cons.mp hcs
        rw [Node.preorderAll_cons, Node.preorderAll_cons]
        exact (ih _ hmem hc).append (ih' hrest)
      | drop hc _ ih' =>
        rw [Node.preorderAll_cons, Node.preorder_eq, hc.leaf, Node.preorderAll_nil]
        exact .drop hc.comment (ih' (List.forall_mem_cons.mp hcs).2)
    rw [Node.preorder_eq, Node.preorder_eq]
    exact .keep h (hall (fun _ => id) h.thins)

theorem filter (h : d.Sheds n n') (hp : d.Overlooks p) :
    List.Forall₂ d.Sheds (n.children.filter p) (n'.children.filter p) :=
  h.thins.filter (fun _ hc => hp.comment hc.comment) fun _ _ => hp.same

theorem namedFilter (h : d.Sheds n n') (hp : d.Overlooks p) :
    List.Forall₂ d.Sheds (n.namedChildren.filter p) (n'.namedChildren.filter p) := by
  rw [Node.namedChildren, Node.namedChildren, List.filter_filter, List.filter_filter]
  exact h.filter ⟨fun hc => by simp [hp.comment hc], fun hc => by rw [hp.same hc, hc.named_eq]⟩

theorem namedFind? (h : d.Sheds n n') (hp : d.Overlooks p) :
    Option.Rel d.Sheds (n.namedChildren.find? p) (n'.namedChildren.find? p) := by
  rw [← List.head?_filter, ← List.head?_filter]
  exact rel_head?_of_forall₂ (h.namedFilter hp)

theorem child? (h : d.Sheds n n') (role : String) : Option.Rel d.Sheds (n.child? role) (n'.child? role) :=
  h.thins.find? (fun c hc => by simp [hc.role]) fun c c' hc => by rw [hc.field_eq]

end Sheds

theorem text?_eq_of_rel {c c' : Option Node} (h : Option.Rel d.Sheds c c') : Node.text? bytes c = Node.text? bytes c' := by
  cases h with
  | none => rfl
  | some hc => exact congrArg (Except.map some) hc.text_eq

/-! ### Declarations -/

/-- A dialect that knows comments and attributes by their kinds, and takes no comment for anything else. -/
structure TellsComments (d : Dialect) : Prop where
  comment_eq : ∀ {c c' : Node}, c.kind = c'.kind → d.isComment c = d.isComment c'
  attribute_eq : ∀ {c c' : Node}, c.kind = c'.kind → d.isAttribute c = d.isAttribute c'
  no_attribute : ∀ {c : Node}, d.isComment c = true → d.isAttribute c = false
  no_modifiers : ∀ {c : Node}, d.isComment c = true → c.kind ≠ "modifiers"
  no_aggregate : ∀ {c : Node}, d.isComment c = true → d.aggregate? c = none

theorem overlooks_kind {kind : String} (h : ∀ {c : Node}, d.isComment c = true → c.kind ≠ kind) :
    d.Overlooks (·.kind == kind) :=
  ⟨fun hc => beq_eq_false_iff_ne.mpr (h hc), fun hc => by rw [hc.kind_eq]⟩

section TellsComments
variable (hd : d.TellsComments)
include hd

theorem TellsComments.modifierParts (hp : d.Overlooks p) (h : d.Sheds n n') :
    List.Forall₂ d.Sheds ((Heading.modifierParts n).filter p) ((Heading.modifierParts n').filter p) := by
  rw [Heading.modifierParts, Heading.modifierParts, List.filter_flatMap, List.filter_flatMap]
  exact List.rel_flatMap (h.filter (overlooks_kind hd.no_modifiers)) fun _ _ hlist => hlist.filter hp

theorem TellsComments.attributes (h : d.Sheds n n') : List.Forall₂ d.Sheds (d.attributes n) (d.attributes n') :=
  hd.modifierParts ⟨hd.no_attribute, fun hc => hd.attribute_eq hc.kind_eq⟩ h

theorem TellsComments.modifiers_eq (h : d.Sheds n n') : d.modifiers bytes n = d.modifiers bytes n' := by
  refine mapM_eq_of_forall₂ (hd.modifierParts ⟨fun hc => by simp [hc], fun hc => ?_⟩ h) fun c c' hc => ?_
  · rw [hd.attribute_eq hc.kind_eq, hd.comment_eq hc.kind_eq]
  · rw [hc.text_eq]

theorem TellsComments.bodyNodes (h : d.Sheds n n') : List.Forall₂ d.Sheds (d.bodyNodes n) (d.bodyNodes n') :=
  h.namedFilter ⟨fun hc => by simp [hc], fun hc => by rw [hd.comment_eq hc.kind_eq]⟩

theorem TellsComments.spanOf_eq {source : List Char} {body body' : Node} {mark mark' : Option Node} (h : d.Sheds n n')
    (hbody : d.Sheds body body') (hmark : Option.Rel d.Sheds mark mark') :
    d.spanOf source n body mark = d.spanOf source n' body' mark' := by
  have hmap (place : Node → Int) (hplace : ∀ m m', d.Sheds m m' → place m = place m') : mark.map place = mark'.map place := by
    cases hmark with
    | none => rfl
    | some hm => exact congrArg some (hplace _ _ hm)
  have hstart := hmap (fun m => Text.Utf8.charOffset source m.start) fun m m' hm => by rw [hm.start_eq]
  have hstop := hmap (fun m => Text.gapEnd source (Text.Utf8.charOffset source m.stop)) fun m m' hm => by rw [hm.stop_eq]
  rcases rel_cases (rel_head?_of_forall₂ (hd.bodyNodes hbody)) with ⟨hf, hf'⟩ | ⟨first, first', hf, hf', hfirst⟩
  · simp only [spanOf, h.start_eq, hbody.stop_eq, hstart, hstop, hf, hf']
  · simp only [spanOf, h.start_eq, hbody.stop_eq, hstart, hstop, hf, hf', hfirst.start_eq]

end TellsComments

/-- A dialect all of whose readings stay the same when comments are lost. -/
structure IgnoresComments (d : Dialect) : Prop extends d.TellsComments where
  aggregate?_eq : ∀ {n n' : Node}, d.Sheds n n' → d.aggregate? n = d.aggregate? n'
  attributeName_eq : ∀ {bytes : List UInt8} {n n' : Node}, d.Sheds n n' → d.attributeName bytes n = d.attributeName bytes n'
  typeParameters_eq : ∀ {bytes : List UInt8} {n n' : Node}, d.Sheds n n' →
    d.typeParameters bytes n = d.typeParameters bytes n'
  members_eq : ∀ {bytes : List UInt8} {n n' : Node}, d.Sheds n n' → d.members bytes n = d.members bytes n'

section IgnoresComments
variable (hd : d.IgnoresComments) {marker : String}
include hd

theorem IgnoresComments.findAttribute {marks marks' : List Node} (h : List.Forall₂ d.Sheds marks marks') :
    (∃ e, d.findAttribute bytes marker marks = .error e ∧ d.findAttribute bytes marker marks' = .error e) ∨
      ∃ mark mark', d.findAttribute bytes marker marks = .ok mark ∧ d.findAttribute bytes marker marks' = .ok mark' ∧
        Option.Rel d.Sheds mark mark' := by
  induction h with
  | nil => exact Or.inr ⟨none, none, rfl, rfl, .none⟩
  | @cons mark mark' rest rest' hmark _ ih =>
    rw [Dialect.findAttribute, Dialect.findAttribute, hd.attributeName_eq hmark]
    cases d.attributeName bytes mark' with
    | error e => exact Or.inl ⟨e, rfl, rfl⟩
    | ok found =>
      simp only [bind, Except.bind]
      split
      · exact Or.inr ⟨some mark, some mark', rfl, rfl, .some hmark⟩
      · exact ih

theorem IgnoresComments.markerOf (h : d.Sheds n n') (bytes : List UInt8) (marker : String) :
    (∃ e, d.markerOf bytes marker n = .error e ∧ d.markerOf bytes marker n' = .error e) ∨
      ∃ mark mark', d.markerOf bytes marker n = .ok mark ∧ d.markerOf bytes marker n' = .ok mark' ∧
        Option.Rel d.Sheds mark mark' := by
  unfold Dialect.markerOf
  split
  · exact Or.inr ⟨none, none, rfl, rfl, .none⟩
  · exact hd.findAttribute (hd.attributes h)

theorem IgnoresComments.declaration?_eq {source : List Char} (h : d.Sheds n n') :
    d.declaration? source bytes marker n = d.declaration? source bytes marker n' := by
  unfold Dialect.declaration?
  rw [hd.aggregate?_eq h]
  cases d.aggregate? n' with
  | none => rfl
  | some kind =>
    rcases rel_cases (h.child? "name") with ⟨hn, hn'⟩ | ⟨name, name', hn, hn', hname⟩
    · rw [hn, hn']
    rcases rel_cases (h.child? "body") with ⟨hb, hb'⟩ | ⟨body, body', hb, hb', hbody⟩
    · rw [hn, hn', hb, hb']
    have hmembers : (d.bodyNodes body).mapM (d.members bytes) = (d.bodyNodes body').mapM (d.members bytes) :=
      mapM_eq_of_forall₂ (hd.bodyNodes hbody) fun _ _ => hd.members_eq
    simp only [hn, hn', hb, hb', hd.modifiers_eq h, hmembers, hname.text_eq, hd.typeParameters_eq h]
    rcases hd.markerOf h bytes marker with ⟨e, he, he'⟩ | ⟨mark, mark', hm, hm', hmark⟩
    · rw [he, he']
      rfl
    · rw [hm, hm']
      simp only [bind, Except.bind, hd.spanOf_eq h hbody hmark]

/-- A tree that loses comments declares what it has declared before. -/
theorem IgnoresComments.extract_eq {source : List Char} {tree tree' : SourceTree} (h : d.Sheds tree.root tree'.root) :
    d.extract source tree marker = d.extract source tree' marker := by
  refine h.preorder.gather_eq (fun c hc => ?_) fun c c' hc => hd.declaration?_eq hc
  rw [Dialect.declaration?, hd.no_aggregate hc]

end IgnoresComments

/-- Identifiers of type parameters, in both languages. -/
theorem mapM_text_filterMap {nodes nodes' : List Node} (h : List.Forall₂ d.Sheds nodes nodes') (hp : d.Overlooks p) :
    (nodes.filterMap (·.namedChildren.find? p)).mapM (·.text bytes) =
      (nodes'.filterMap (·.namedChildren.find? p)).mapM (·.text bytes) := by
  have hnames : List.Forall₂ d.Sheds (nodes.filterMap (·.namedChildren.find? p))
      (nodes'.filterMap (·.namedChildren.find? p)) :=
    List.rel_filterMap (fun _ _ hc => hc.namedFind? hp) h
  exact mapM_eq_of_forall₂ hnames fun _ _ hc => hc.text_eq

end Dialect

/-! ### Swift -/

namespace SwiftTree
variable {bytes : List UInt8} {n n' : Node}

theorem kind_of_isComment {c : Node} (h : isComment c = true) : c.kind = "comment" ∨ c.kind = "multiline_comment" := by
  simpa [isComment] using h

theorem tellsComments : dialect.TellsComments where
  comment_eq h := by simp only [dialect, heading, isComment, h]
  attribute_eq h := by simp only [dialect, heading, h]
  no_attribute h := by rcases kind_of_isComment h with h | h <;> simp [dialect, heading, h]
  no_modifiers h := by rcases kind_of_isComment h with h | h <;> simp [h]
  no_aggregate h := by rcases kind_of_isComment h with h | h <;> simp [dialect, aggregate?, h]

theorem overlooks (kind : String) (h : kind ≠ "comment" ∧ kind ≠ "multiline_comment") :
    dialect.Overlooks (·.kind == kind) := by
  refine Dialect.overlooks_kind fun hc => ?_
  rintro rfl
  exact (kind_of_isComment hc).elim h.1 h.2

theorem aggregate?_eq (h : dialect.Sheds n n') : aggregate? n = aggregate? n' := by
  rw [aggregate?, aggregate?, h.kind_eq]
  rcases rel_cases (h.child? "declaration_kind") with ⟨hk, hk'⟩ | ⟨keyword, keyword', hk, hk', hkeyword⟩
  · rw [hk, hk']
  · rw [hk, hk', Option.bind_some, Option.bind_some, hkeyword.kind_eq]

theorem attributeName_eq (h : dialect.Sheds n n') : attributeName bytes n = attributeName bytes n' := by
  unfold attributeName
  rcases rel_cases (h.namedFind? (overlooks "user_type" (by decide))) with ⟨ht, ht'⟩ | ⟨type, type', ht, ht', htype⟩
  · rw [ht, ht']
  · simp only [ht, ht', htype.text_eq]

theorem typeParameters_eq (h : dialect.Sheds n n') : typeParameters bytes n = typeParameters bytes n' := by
  refine Dialect.mapM_text_filterMap ?_ (overlooks _ (by decide))
  rw [List.filter_flatMap, List.filter_flatMap]
  exact List.rel_flatMap (h.namedFilter (overlooks _ (by decide))) fun _ _ hc => hc.namedFilter (overlooks _ (by decide))

theorem bindingKeyword_eq (h : dialect.Sheds n n') : bindingKeyword bytes n = bindingKeyword bytes n' := by
  rw [bindingKeyword, bindingKeyword, h.text_eq]
  rcases rel_cases (h.child? "mutability") with ⟨hk, hk'⟩ | ⟨keyword, keyword', hk, hk', hkeyword⟩
  · rw [hk, hk']
  · simp only [hk, hk', hkeyword.kind_eq]

-- A pattern keeps all its parts, so they can be counted.
theorem patternName_eq (hkind : n.kind = "pattern") (h : dialect.Sheds n n') :
    patternName bytes n = patternName bytes n' := by
  have hparts : List.Forall₂ dialect.Sheds n.namedChildren n'.namedChildren :=
    h.thins.filter (fun _ hc => absurd ⟨rfl, hkind⟩ hc.uncounted) fun _ _ hc => hc.named_eq
  unfold patternName
  generalize n.namedChildren = parts at *
  generalize n'.namedChildren = parts' at *
  cases hparts with
  | nil => rfl
  | cons hc hrest =>
    cases hrest with
    | nil => simp only [hc.kind_eq, hc.text_eq]
    | cons _ _ => rfl

/-- Two bindings of which the second has lost comments. -/
structure ShedsBinding (parent : Node) (b b' : Node × List Node) : Prop where
  kind : b.1.kind = "pattern"
  pattern : dialect.Sheds b.1 b'.1
  parts : Thins (dialect.Drops parent) dialect.Sheds b.2 b'.2

theorem bindings_of_thins {cs cs' : List Node} (h : Thins (dialect.Drops n) dialect.Sheds cs cs') :
    List.Forall₂ (ShedsBinding n) (bindings cs) (bindings cs') := by
  induction h with
  | nil => exact .nil
  | keep hc h ih =>
    rw [bindings, bindings, ← hc.kind_eq]
    split
    · rename_i hkind
      refine .cons ⟨hkind, hc, h.takeWhile (fun c hdrop => ?_) fun c c' hcc' => ?_⟩ ih
      · rcases kind_of_isComment hdrop.comment with hk | hk <;> simp [hk]
      · rw [hcc'.kind_eq]
    · exact ih
  | drop hc _ ih =>
    rw [bindings, if_neg]
    · exact ih
    · rcases kind_of_isComment hc.comment with hk | hk <;> simp [hk]

theorem bindingMember_eq {isMutable : Bool} {modifiers : List String} {b b' : Node × List Node}
    (h : ShedsBinding n b b') : bindingMember bytes isMutable modifiers b = bindingMember bytes isMutable modifiers b' := by
  have hany (kind : String) (hk : kind ≠ "comment" ∧ kind ≠ "multiline_comment") :
      b.2.any (·.kind == kind) = b'.2.any (·.kind == kind) :=
    h.parts.any (fun _ hc => (overlooks kind hk).comment hc.comment) fun _ _ => (overlooks kind hk).same
  have hannotations : (b.2.filter (·.kind == "type_annotation")).mapM (·.text bytes) =
      (b'.2.filter (·.kind == "type_annotation")).mapM (·.text bytes) := by
    have hp := overlooks "type_annotation" (by decide)
    exact mapM_eq_of_forall₂ (h.parts.filter (fun _ hc => hp.comment hc.comment) fun _ _ => hp.same) fun _ _ hc => hc.text_eq
  simp only [bindingMember, patternName_eq h.kind h.pattern, hannotations, hany "=" (by decide),
    hany "computed_property" (by decide)]

theorem members_eq (h : dialect.Sheds n n') : members bytes n = members bytes n' := by
  have hmodifiers : heading.modifiers bytes n = heading.modifiers bytes n' := tellsComments.modifiers_eq h
  have hkeywords : (n.childrenOf "value_binding_pattern").mapM (bindingKeyword bytes) =
      (n'.childrenOf "value_binding_pattern").mapM (bindingKeyword bytes) :=
    mapM_eq_of_forall₂ (h.filter (overlooks _ (by decide))) fun _ _ => bindingKeyword_eq
  have hbindings (isMutable : Bool) (modifiers : List String) :
      (bindings n.children).mapM (bindingMember bytes isMutable modifiers) =
        (bindings n'.children).mapM (bindingMember bytes isMutable modifiers) :=
    mapM_eq_of_forall₂ (bindings_of_thins h.thins) fun _ _ => bindingMember_eq
  simp only [members, h.kind_eq, hmodifiers, hkeywords, hbindings, Dialect.text?_eq_of_rel (h.child? "name")]

theorem ignoresComments : dialect.IgnoresComments :=
  ⟨tellsComments, aggregate?_eq, attributeName_eq, typeParameters_eq, members_eq⟩

end SwiftTree

/-! ### Java -/

namespace JavaTree
variable {bytes : List UInt8} {n n' : Node}

theorem kind_of_isComment {c : Node} (h : isComment c = true) : c.kind = "line_comment" ∨ c.kind = "block_comment" := by
  simpa [isComment] using h

theorem tellsComments : dialect.TellsComments where
  comment_eq h := by simp only [dialect, heading, isComment, h]
  attribute_eq h := by simp only [dialect, heading, h]
  no_attribute h := by rcases kind_of_isComment h with h | h <;> simp [dialect, heading, h]
  no_modifiers h := by rcases kind_of_isComment h with h | h <;> simp [h]
  no_aggregate h := by rcases kind_of_isComment h with h | h <;> simp [dialect, aggregate?, h]

theorem attributeName_eq (h : dialect.Sheds n n') : attributeName bytes n = attributeName bytes n' := by
  rw [attributeName, attributeName, Dialect.text?_eq_of_rel (h.child? "name")]

theorem typeParameters_eq (h : dialect.Sheds n n') : typeParameters bytes n = typeParameters bytes n' := by
  unfold typeParameters
  rcases rel_cases (h.child? "type_parameters") with ⟨hc, hc'⟩ | ⟨clause, clause', hc, hc', hclause⟩
  · rw [hc, hc']
  · simp only [hc, hc']
    refine Dialect.mapM_text_filterMap (hclause.namedFilter (Dialect.overlooks_kind fun hcomment => ?_))
      ⟨fun hcomment => ?_, fun hshed => by rw [hshed.kind_eq]⟩ <;>
    rcases kind_of_isComment hcomment with hk | hk <;> simp [hk]

theorem fieldMember_eq (h : dialect.Sheds n n') : fieldMember bytes n = fieldMember bytes n' := by
  have hmodifiers : heading.modifiers bytes n = heading.modifiers bytes n' := tellsComments.modifiers_eq h
  have hpart (role : String) : Option.Rel dialect.Sheds ((n.child? "declarator").bind (·.child? role))
      ((n'.child? "declarator").bind (·.child? role)) := by
    rcases rel_cases (h.child? "declarator") with ⟨hc, hc'⟩ | ⟨declarator, declarator', hc, hc', hdeclarator⟩
    · rw [hc, hc']
      exact .none
    · rw [hc, hc']
      exact hdeclarator.child? role
  have hvalue : ((n.child? "declarator").bind (·.child? "value")).isSome =
      ((n'.child? "declarator").bind (·.child? "value")).isSome := by
    rcases rel_cases (hpart "value") with ⟨hv, hv'⟩ | ⟨value, value', hv, hv', -⟩ <;> rw [hv, hv']
    rfl
  simp only [fieldMember, hmodifiers, Dialect.text?_eq_of_rel (h.child? "type"), Dialect.text?_eq_of_rel (hpart "name"),
    Dialect.text?_eq_of_rel (hpart "dimensions"), hvalue]

theorem members_eq (h : dialect.Sheds n n') : members bytes n = members bytes n' := by
  simp only [members, h.kind_eq, fieldMember_eq h, Dialect.text?_eq_of_rel (h.child? "name")]

theorem ignoresComments : dialect.IgnoresComments :=
  ⟨tellsComments, fun h => by simp only [dialect, aggregate?, h.kind_eq], attributeName_eq, typeParameters_eq, members_eq⟩

end JavaTree

end Tree

open Recordsmith.Tree (Node SourceTree)

/-- A tree that loses some of its comments, none of them directly in a Swift pattern, declares what it has declared
    before: the same declarations in the same order, with all that is read of them. -/
theorem comments_do_not_matter {k : LanguageKit} (hk : k = .swift ∨ k = .java) {source : List Char}
    {tree tree' : SourceTree} (h : k.dialect.Sheds tree.root tree'.root) (marker : String) :
    k.dialect.extract source tree marker = k.dialect.extract source tree' marker := by
  rcases hk with rfl | rfl
  · exact Tree.SwiftTree.ignoresComments.extract_eq h
  · exact Tree.JavaTree.ignoresComments.extract_eq h

namespace Sample

def remarkSource : List Char := "@B /**/ struct A \x7b /**/ let x /**/ : Int \x7d".toList

def remark (start : Nat) : Node := ⟨"multiline_comment", start, start + 4, true, none, []⟩

/-- The property of the source, with comments after its pattern. -/
def remarkProperty (remarks : List Node) : Node :=
  ⟨"property_declaration", 24, 40, true, none,
    ⟨"value_binding_pattern", 24, 27, true, none, [⟨"let", 24, 27, false, some "mutability", []⟩]⟩ ::
    ⟨"pattern", 28, 29, true, some "name", [⟨"simple_identifier", 28, 29, true, none, []⟩]⟩ ::
    (remarks ++ [⟨"type_annotation", 35, 40, true, none, []⟩])⟩

def remarkBody (remarks inner : List Node) : Node :=
  ⟨"class_body", 17, 42, true, some "body",
    ⟨"\x7b", 17, 18, false, none, []⟩ :: (remarks ++ [remarkProperty inner, ⟨"\x7d", 41, 42, false, none, []⟩])⟩

/-- The type of the source, with comments after its marker, in its body and in the property. -/
def remarkNode (remarks body property : List Node) : Node :=
  ⟨"class_declaration", 0, 42, true, none,
    ⟨"modifiers", 0, 2, true, none, [⟨"attribute", 0, 2, true, none, [⟨"user_type", 1, 2, true, none, []⟩]⟩]⟩ ::
    (remarks ++ [⟨"struct", 8, 14, false, some "declaration_kind", []⟩,
      ⟨"type_identifier", 15, 16, true, some "name", []⟩, remarkBody body property])⟩

def remarkTree : SourceTree := ⟨remarkNode [remark 3] [remark 19] [remark 30], false⟩

def bareTree : SourceTree := ⟨remarkNode [] [] [], false⟩

end Sample

open Sample in
theorem comments_do_not_matter_anywhere :
    LanguageKit.swift.dialect.Sheds remarkTree.root bareTree.root ∧
      LanguageKit.swift.dialect.extract remarkSource remarkTree "B" =
        LanguageKit.swift.dialect.extract remarkSource bareTree "B" ∧
      (LanguageKit.swift.dialect.extract remarkSource bareTree "B").toOption.map
        (·.map fun r => (r.name, r.isMarked, r.members.map (·.type))) = some [("A", true, [some "Int"])] := by
  have hdrops {parent : Node} (start : Nat) (h : parent.kind ≠ "pattern") :
      LanguageKit.swift.dialect.Drops parent (remark start) := ⟨rfl, rfl, rfl, fun hpattern => h hpattern.2⟩
  have hproperty : LanguageKit.swift.dialect.Sheds (remarkProperty [remark 30]) (remarkProperty []) :=
    .node (.keep (.refl _ _) (.keep (.refl _ _) (.drop (hdrops 30 (by decide)) (.keep (.refl _ _) .nil))))
  have hbody : LanguageKit.swift.dialect.Sheds (remarkBody [remark 19] [remark 30]) (remarkBody [] []) :=
    .node (.keep (.refl _ _) (.drop (hdrops 19 (by decide)) (.keep hproperty (.keep (.refl _ _) .nil))))
  have hshed : LanguageKit.swift.dialect.Sheds remarkTree.root bareTree.root :=
    .node (.keep (.refl _ _) (.drop (hdrops 3 (by decide))
      (.keep (.refl _ _) (.keep (.refl _ _) (.keep hbody .nil)))))
  exact ⟨hshed, comments_do_not_matter (Or.inl rfl) hshed "B", by decide +kernel⟩

end Recordsmith
