import Recordsmith.Yaml.Node

/-!
Parsing: the nodes that tokens write. Aliases are replaced by the nodes they stand for, and tags are given in full: a
scalar without a tag of its own is tagged by what its text looks like. Every node takes tokens, so that parsing comes to
an end.
-/

namespace Recordsmith.Yaml

open Text (CodePoint)

/-- The state of parsing: the tokens that are left, the nodes that aliases can name, and what tag handles stand
    for. -/
structure Parse where
  tokens : List Token
  anchors : List (List Char × Node) := []
  handles : List (List Char × List Char) := []

namespace Parse
variable {α : Type} {s t : Parse} {anchor tag : Option (List Char)}

def drop (s : Parse) : Parse := { s with tokens := s.tokens.drop 1 }

/-- Whether the next token is one of these, where the end of the text counts as none of them. -/
def atAny (s : Parse) (tokens : List Token) : Bool := s.tokens.head?.any tokens.contains

/-- How many tokens are left. -/
def size (s : Parse) : Nat := s.tokens.length

theorem size_drop (s : Parse) : s.drop.size = s.size - 1 := by simp [size, drop]

theorem size_pos_of_tokens {first : Token} {rest : List Token} (h : s.tokens = first :: rest) : 0 < s.size := by
  simp [size, h]

theorem size_pos_of_atAny {tokens : List Token} (h : s.atAny tokens = true) : 0 < s.size := by
  cases hs : s.tokens with
  | nil => simp [atAny, hs] at h
  | cons first rest => exact size_pos_of_tokens hs

/-- The full name of a tag, if its handle is known. -/
def tagName (s : Parse) (handle : Option (List Char)) (rest : List Char) : Option (List Char) :=
  match handle with
  | none => some rest
  | some handle => (s.handles.find? (·.1 == handle)).map (·.2 ++ rest)

/-- The anchor and the tag in front of a node, in either order. -/
def properties (s : Parse) : Option (Option (List Char) × Option (List Char) × Parse) :=
  match s.tokens with
  | .anchor name :: .tag handle rest :: more =>
    (s.tagName handle rest).map fun tag => (some name, some tag, { s with tokens := more })
  | .anchor name :: more => some (some name, none, { s with tokens := more })
  | .tag handle rest :: .anchor name :: more =>
    (s.tagName handle rest).map fun tag => (some name, some tag, { s with tokens := more })
  | .tag handle rest :: more => (s.tagName handle rest).map fun tag => (none, some tag, { s with tokens := more })
  | _ => some (none, none, s)

theorem size_properties (h : s.properties = some (anchor, tag, t)) :
    t.size + anchor.toList.length + tag.toList.length ≤ s.size := by
  unfold properties at h
  split at h
  case h_2 | h_5 =>
    cases h
    simp_all [size]
  all_goals
    obtain ⟨name, -, heq⟩ := Option.map_eq_some_iff.mp h
    cases heq
    simp_all [size]

/-- Gives a node a name. -/
def bind (s : Parse) (anchor : Option (List Char)) (node : Node) : Parse :=
  match anchor with
  | none => s
  | some name => { s with anchors := (name, node) :: s.anchors }

/-- Gives a collection its name while its contents are still to come. -/
def openCollection (s : Parse) (anchor : Option (List Char)) : Parse := s.bind anchor (.around (anchor.getD []))

theorem tokens_bind (s : Parse) (anchor : Option (List Char)) (node : Node) : (s.bind anchor node).tokens = s.tokens := by
  cases anchor <;> rfl

theorem size_bind (s : Parse) (anchor : Option (List Char)) (node : Node) : (s.bind anchor node).size = s.size :=
  congrArg List.length (s.tokens_bind anchor node)

/-- Completes a collection: what stands for it inside is the collection itself. -/
def closeCollection (s : Parse) (anchor : Option (List Char)) (node : Node) : Node × Parse :=
  match anchor with
  | none => (node, s)
  | some name =>
    let whole := node.unrolled name Node.selfDepth
    (whole, { s with anchors := s.anchors.map fun entry => (entry.1, Node.replace name whole entry.2) })

theorem size_closeCollection (s : Parse) (anchor : Option (List Char)) (node : Node) :
    (s.closeCollection anchor node).2.size = s.size := by
  cases anchor <;> rfl

/-- The tag of a collection: its own unless it has none. -/
def collectionTag (tag : Option (List Char)) (absent : Tag) : Tag :=
  match tag with
  | none => absent
  | some name => if name = ['!'] then absent else Tag.ofName name

/-- The tag of a scalar: its own, or for a scalar without one what its text looks like if it is plain. -/
def scalarTag (tag : Option (List Char)) (text : List Char) (plain : Bool) : Tag :=
  match tag with
  | none => if plain then Tag.ofPlain text else .text
  | some name => if name = ['!'] then Tag.ofPlain text else Tag.ofName name

/-- The tag of a scalar with surrogates, which looks like nothing but a text. -/
def rawTag (tag : Option (List Char)) : Tag := collectionTag tag .text

/-- A node that has properties and nothing else is an empty scalar. -/
def missing (s : Parse) (anchor tag : Option (List Char)) : Option (Node × Parse) :=
  if anchor.isSome ∨ tag.isSome then
    let node := Node.scalar (scalarTag tag [] true) []
    some (node, s.bind anchor node)
  else none

theorem size_missing {node : Node} (h : s.missing anchor tag = some (node, t)) :
    t.size < s.size + anchor.toList.length + tag.toList.length := by
  unfold missing at h
  split at h
  · rename_i hthere
    cases h
    rw [size_bind, Nat.add_assoc]
    refine Nat.lt_add_of_pos_right ?_
    rcases hthere with hthere | hthere
    · obtain ⟨name, rfl⟩ := Option.isSome_iff_exists.mp hthere
      exact Nat.add_pos_left Nat.one_pos _
    · obtain ⟨name, rfl⟩ := Option.isSome_iff_exists.mp hthere
      exact Nat.add_pos_right _ Nat.one_pos
  · cases h

/-! ### Readers -/

/-- A way to read nodes, each of which takes tokens. Blocks may stand where `inBlock` says so, and a sequence at its
    parent's indentation where `indentless` does. -/
structure Reader where
  read (inBlock indentless : Bool) (s : Parse) : Option (Node × Parse)
  shrinks : ∀ {inBlock indentless s node t}, read inBlock indentless s = some (node, t) → t.size < s.size

namespace Reader
variable (r : Reader)

/-- A node, or an empty one in front of a token that may follow it. -/
def part (inBlock indentless : Bool) (ends : List Token) (s : Parse) : Option (Node × Parse) :=
  if s.atAny ends then some (.empty, s) else r.read inBlock indentless s

theorem size_part {inBlock indentless : Bool} {ends : List Token} {node : Node}
    (h : r.part inBlock indentless ends s = some (node, t)) : t.size ≤ s.size := by
  unfold part at h
  split at h
  · cases h
    exact Nat.le_refl _
  · exact Nat.le_of_lt (r.shrinks h)

/-- The value after a key, if its sign is there. -/
def value (inBlock : Bool) (ends : List Token) (s : Parse) : Option (Node × Parse) :=
  if s.atAny [.value] then r.part inBlock inBlock ends s.drop else some (.empty, s)

theorem size_value {inBlock : Bool} {ends : List Token} {node : Node}
    (h : r.value inBlock ends s = some (node, t)) : t.size ≤ s.size := by
  unfold value at h
  split at h
  · exact Nat.le_trans (r.size_part h) (by rw [size_drop]; omega)
  · cases h
    exact Nat.le_refl _

/-- A pair after the sign of its key. Key and value may be missing. -/
def pair (inBlock : Bool) (ends : List Token) (s : Parse) : Option ((Node × Node) × Parse) := do
  let (key, s) ← r.part inBlock inBlock (.value :: ends) s
  let (value, s) ← r.value inBlock ends s
  some ((key, value), s)

theorem size_pair {inBlock : Bool} {ends : List Token} {found : Node × Node}
    (h : r.pair inBlock ends s = some (found, t)) : t.size ≤ s.size := by
  obtain ⟨⟨key, after⟩, hkey, h⟩ := Option.bind_eq_some_iff.mp h
  obtain ⟨⟨value, last⟩, hvalue, h⟩ := Option.bind_eq_some_iff.mp h
  obtain ⟨-, rfl⟩ := Prod.mk.inj (Option.some.inj h)
  exact Nat.le_trans (r.size_value hvalue) (r.size_part hkey)

end Reader

/-! ### Entries of collections -/

/-- The entries of a collection, of which the first is told from the others. Each takes tokens; where there is none the
    collection ends. -/
structure Entries (α : Type) where
  next (first : Bool) (s : Parse) : Option (Option α × Parse)
  shrinks : ∀ {first s found t}, next first s = some (found, t) → t.size + found.toList.length ≤ s.size

/-- All entries up to the end of the collection. -/
def Entries.many (e : Entries α) (first : Bool) (s : Parse) : Option (List α × Parse) :=
  match _hnext : e.next first s with
  | none => none
  | some (none, rest) => some ([], rest)
  | some (some found, rest) => (e.many false rest).map fun (more, last) => (found :: more, last)
termination_by s.size
decreasing_by exact e.shrinks _hnext

theorem Entries.many_of_refused {e : Entries α} {first : Bool} (h : e.next first s = none) : e.many first s = none := by
  rw [Entries.many]
  split <;> simp_all

theorem Entries.many_of_end {e : Entries α} {first : Bool} (h : e.next first s = some (none, t)) :
    e.many first s = some ([], t) := by
  rw [Entries.many]
  split <;> simp_all

theorem Entries.many_of_entry {e : Entries α} {first : Bool} {found : α} (h : e.next first s = some (some found, t)) :
    e.many first s = (e.many false t).map fun (more, last) => (found :: more, last) := by
  rw [Entries.many]
  split <;> simp_all

theorem Entries.next_of_many_eq_nil {e : Entries α} {first : Bool} (h : e.many first s = some ([], t)) :
    e.next first s = some (none, t) := by
  rw [Entries.many] at h
  split at h
  · cases h
  · rename_i hnext
    cases h
    exact hnext
  · obtain ⟨_, -, heq⟩ := Option.map_eq_some_iff.mp h
    cases heq

theorem Entries.size_many (e : Entries α) {first : Bool} {found : List α} (h : e.many first s = some (found, t)) :
    t.size + found.length ≤ s.size := by
  fun_induction Entries.many e first s generalizing found t with
  | case1 => cases h
  | case2 first s rest hnext =>
    cases h
    exact e.shrinks hnext
  | case3 first s one rest hnext ih =>
    obtain ⟨⟨more, last⟩, hmore, heq⟩ := Option.map_eq_some_iff.mp h
    obtain ⟨rfl, rfl⟩ := Prod.mk.inj heq
    have hrest : rest.size + 1 ≤ s.size := e.shrinks hnext
    have hlast := ih hmore
    rw [List.length_cons]
    omega

namespace Reader
variable (r : Reader)

/-- An entry after its dash, in front of a token that may follow it if it is missing. -/
def blockItem (ends : List Token) (s : Parse) : Option (Option Node × Parse) :=
  (r.part true false (.blockEntry :: ends) s.drop).map fun (item, s) => (some item, s)

theorem size_blockItem {ends : List Token} {found : Option Node} (hs : 0 < s.size)
    (h : r.blockItem ends s = some (found, t)) : t.size + found.toList.length ≤ s.size := by
  obtain ⟨⟨item, after⟩, hitem, heq⟩ := Option.map_eq_some_iff.mp h
  obtain ⟨rfl, rfl⟩ := Prod.mk.inj heq
  have hafter := r.size_part hitem
  rw [size_drop] at hafter
  simp
  omega

/-- The entries of a sequence in a block. -/
def blockItems : Entries Node where
  next _ s :=
    match s.tokens with
    | .blockEntry :: _ => r.blockItem [.blockEnd] s
    | .blockEnd :: _ => some (none, s.drop)
    | _ => none
  shrinks h := by
    split at h
    · rename_i hs
      exact r.size_blockItem (size_pos_of_tokens hs) h
    · cases h
      simp [size_drop]
    · cases h

/-- The entries of a sequence that is indented like the mapping around it. -/
def indentlessItems : Entries Node where
  next _ s :=
    match s.tokens with
    | .blockEntry :: _ => r.blockItem [.key, .value, .blockEnd] s
    | _ => some (none, s)
  shrinks h := by
    split at h
    · rename_i hs
      exact r.size_blockItem (size_pos_of_tokens hs) h
    · cases h
      exact Nat.le_refl _

/-- The pairs of a mapping in a block. -/
def blockPairs : Entries (Node × Node) where
  next _ s :=
    match s.tokens with
    | .key :: _ => (r.pair true [.key, .value, .blockEnd] s.drop).map fun (found, s) => (some found, s)
    | .blockEnd :: _ => some (none, s.drop)
    | _ => none
  shrinks h := by
    split at h
    · rename_i hs
      obtain ⟨⟨found, after⟩, hpair, heq⟩ := Option.map_eq_some_iff.mp h
      obtain ⟨rfl, rfl⟩ := Prod.mk.inj heq
      have hafter := r.size_pair hpair
      have hpos := size_pos_of_tokens hs
      rw [size_drop] at hafter
      simp
      omega
    · cases h
      simp [size_drop]
    · cases h

end Reader

/-- What stands behind the comma in front of an entry. The first entry has none. -/
def afterComma (s : Parse) (first : Bool) : Option Parse :=
  if first then some s else if s.atAny [.flowEntry] then some s.drop else none

theorem size_afterComma {first : Bool} (h : s.afterComma first = some t) : t.size ≤ s.size := by
  unfold afterComma at h
  split at h
  · cases h
    exact Nat.le_refl _
  · split at h
    · cases h
      rw [size_drop]
      omega
    · cases h

/-- The entries of a collection in brackets, with commas between them and possibly one more at the end. -/
def flowEntries (closing : Token) (entry : Parse → Option (α × Parse))
    (hentry : ∀ {s found t}, entry s = some (found, t) → t.size < s.size) : Entries α where
  next first s :=
    if s.atAny [closing] then some (none, s.drop)
    else do
      let s ← s.afterComma first
      if s.atAny [closing] then some (none, s.drop)
      else (entry s).map fun (found, s) => (some found, s)
  shrinks h := by
    split at h
    · cases h
      simp [size_drop]
    · obtain ⟨after, hafter, h⟩ := Option.bind_eq_some_iff.mp h
      have hle : after.size ≤ _ := size_afterComma hafter
      split at h
      · cases h
        simp [size_drop]
        omega
      · obtain ⟨⟨found, last⟩, hfound, heq⟩ := Option.map_eq_some_iff.mp h
        obtain ⟨rfl, rfl⟩ := Prod.mk.inj heq
        exact Nat.le_trans (hentry hfound) hle

namespace Reader
variable (r : Reader)

/-- A pair in brackets whose key has a sign, or whatever else stands there. -/
def flowPart (closing : Token) (ofPair : Node × Node → α) (ofNode : Node → α) (s : Parse) : Option (α × Parse) :=
  if s.atAny [.key] then (r.pair false [.flowEntry, closing] s.drop).map fun (found, s) => (ofPair found, s)
  else (r.read false false s).map fun (found, s) => (ofNode found, s)

theorem size_flowPart {closing : Token} {ofPair : Node × Node → α} {ofNode : Node → α} {found : α}
    (h : r.flowPart closing ofPair ofNode s = some (found, t)) : t.size < s.size := by
  unfold flowPart at h
  split at h
  · rename_i hkey
    obtain ⟨⟨pair, after⟩, hpair, heq⟩ := Option.map_eq_some_iff.mp h
    obtain ⟨-, rfl⟩ := Prod.mk.inj heq
    have hafter := r.size_pair hpair
    have hpos := size_pos_of_atAny hkey
    rw [size_drop] at hafter
    omega
  · obtain ⟨⟨node, after⟩, hnode, heq⟩ := Option.map_eq_some_iff.mp h
    obtain ⟨-, rfl⟩ := Prod.mk.inj heq
    exact r.shrinks hnode

/-- The entries of a sequence between brackets. An entry may be a single pair. -/
def flowItems : Entries Node :=
  flowEntries .flowSequenceEnd (r.flowPart .flowSequenceEnd (fun pair => .mapping .mapping [pair]) id) r.size_flowPart

/-- The pairs of a mapping between braces. A key may stand without a value. -/
def flowPairs : Entries (Node × Node) :=
  flowEntries .flowMappingEnd (r.flowPart .flowMappingEnd id (·, .empty)) r.size_flowPart

/-! ### Nodes -/

/-- A collection after its opening sign. -/
def collection (anchor : Option (List Char)) (e : Entries α) (build : List α → Node) (s : Parse) :
    Option (Node × Parse) :=
  (e.many true (s.openCollection anchor)).map fun (found, s) => s.closeCollection anchor (build found)

theorem collection_eq_some {e : Entries α} {build : List α → Node} {node : Node}
    (h : collection anchor e build s = some (node, t)) :
    ∃ found after, e.many true (s.openCollection anchor) = some (found, after) ∧ t.size + found.length ≤ s.size := by
  obtain ⟨⟨found, after⟩, hmany, heq⟩ := Option.map_eq_some_iff.mp h
  have hsize := e.size_many hmany
  have hclose := after.size_closeCollection anchor (build found)
  rw [openCollection, size_bind] at hsize
  refine ⟨found, after, hmany, ?_⟩
  rw [← hclose] at hsize
  exact (congrArg (fun p => p.2.size + found.length) heq) ▸ hsize

/-- A node after its properties. -/
def content (inBlock indentless : Bool) (anchor tag : Option (List Char)) (s : Parse) : Option (Node × Parse) :=
  let single (node : Node) : Node × Parse := (node, s.drop.bind anchor node)
  let sequence := Node.sequence (collectionTag tag .sequence)
  let mapping := Node.mapping (collectionTag tag .mapping)
  match s.tokens with
  | .scalar text plain :: _ => some (single (.scalar (scalarTag tag text plain) text))
  | .rawScalar points :: _ => some (single (.rawScalar (rawTag tag) points))
  | .flowSequenceStart :: _ => collection anchor r.flowItems sequence s.drop
  | .flowMappingStart :: _ => collection anchor r.flowPairs mapping s.drop
  | .blockEntry :: _ => if indentless then collection anchor r.indentlessItems sequence s else missing s anchor tag
  | .blockSequenceStart :: _ => if inBlock then collection anchor r.blockItems sequence s.drop else missing s anchor tag
  | .blockMappingStart :: _ => if inBlock then collection anchor r.blockPairs mapping s.drop else missing s anchor tag
  | _ => missing s anchor tag

/-- A node, whose parts are read by `r`. An anchor that is there already must not be set again. -/
def nodeOf (inBlock indentless : Bool) (s : Parse) : Option (Node × Parse) :=
  match s.tokens with
  | .alias name :: _ => (s.anchors.find? (·.1 == name)).map fun entry => (entry.2, s.drop)
  | _ => do
    let (anchor, tag, s) ← s.properties
    if anchor.any fun name => s.anchors.any (·.1 == name) then none else r.content inBlock indentless anchor tag s

theorem size_collection {e : Entries α} {build : List α → Node} {node : Node}
    (h : collection anchor e build s = some (node, t)) : t.size ≤ s.size := by
  obtain ⟨found, -, -, hsize⟩ := collection_eq_some h
  exact Nat.le_trans (Nat.le_add_right ..) hsize

theorem size_collection_drop {first : Token} {rest : List Token} (hs : s.tokens = first :: rest) {e : Entries α}
    {build : List α → Node} {node : Node} (h : collection anchor e build s.drop = some (node, t)) : t.size < s.size := by
  have hpos := size_pos_of_tokens hs
  have hsize := size_collection h
  rw [size_drop] at hsize
  omega

/-- A sequence without indentation of its own opens with an entry. -/
theorem size_collection_indentless {rest : List Token} (hs : s.tokens = .blockEntry :: rest)
    {build : List Node → Node} {node : Node} (h : collection anchor r.indentlessItems build s = some (node, t)) :
    t.size < s.size := by
  obtain ⟨found, after, hmany, hsize⟩ := collection_eq_some h
  cases found with
  | nil =>
    have hnext := Entries.next_of_many_eq_nil hmany
    simp [indentlessItems, openCollection, tokens_bind, hs, blockItem] at hnext
  | cons item more =>
    rw [List.length_cons] at hsize
    omega

theorem size_content {inBlock indentless : Bool} {node : Node}
    (h : r.content inBlock indentless anchor tag s = some (node, t)) :
    t.size < s.size + anchor.toList.length + tag.toList.length := by
  unfold content at h
  split at h
  case h_1 hs | h_2 hs =>
    cases h
    have hpos := size_pos_of_tokens hs
    rw [size_bind, size_drop]
    omega
  case h_3 hs | h_4 hs =>
    have := size_collection_drop hs h
    omega
  case h_5 hs =>
    split at h
    · have := r.size_collection_indentless hs h
      omega
    · exact size_missing h
  case h_6 hs | h_7 hs =>
    split at h
    · have := size_collection_drop hs h
      omega
    · exact size_missing h
  case h_8 => exact size_missing h

theorem size_nodeOf {inBlock indentless : Bool} {node : Node} (h : r.nodeOf inBlock indentless s = some (node, t)) :
    t.size < s.size := by
  unfold nodeOf at h
  split at h
  · rename_i hs
    obtain ⟨entry, -, heq⟩ := Option.map_eq_some_iff.mp h
    obtain ⟨-, rfl⟩ := Prod.mk.inj heq
    have := size_pos_of_tokens hs
    rw [size_drop]
    omega
  · obtain ⟨⟨anchor, tag, after⟩, hproperties, h⟩ := Option.bind_eq_some_iff.mp h
    have hafter := size_properties hproperties
    dsimp only at h
    split at h
    · cases h
    · have := r.size_content h
      omega

/-- Reads nodes whose parts are read by `r`. -/
def step : Reader := ⟨r.nodeOf, r.size_nodeOf⟩

/-- Reads nodes of a limited depth. -/
def within : Nat → Reader
  | 0 => ⟨fun _ _ _ => none, nofun⟩
  | limit + 1 => (within limit).step

end Reader

/-- A node. There are no more nodes inside one another than tokens. -/
def node (inBlock indentless : Bool) (s : Parse) : Option (Node × Parse) :=
  (Reader.within s.size).read inBlock indentless s

/-! ### Documents -/

/-- The directives in front of a document. A version other than 1 and a repeated directive are refused. -/
def directives : List Token → Bool → Parse → Option Parse
  | .version major :: rest, seen, s => if seen ∨ major ≠ 1 then none else directives rest true { s with tokens := rest }
  | .tagHandle handle expansion :: rest, seen, s =>
    if s.handles.any (·.1 == handle) then none
    else directives rest seen { s with tokens := rest, handles := (handle, expansion) :: s.handles }
  | .reservedDirective :: rest, seen, s => directives rest seen { s with tokens := rest }
  | rest, _, s => some { s with tokens := rest }

/-- Handles that every document knows, unless it gives them another meaning. -/
def defaultHandles : List (List Char × List Char) := [(['!'], ['!']), (['!', '!'], languageTag)]

def isDirective : Token → Bool
  | .version _ => true
  | .tagHandle _ _ => true
  | .reservedDirective => true
  | _ => false

def dropDocumentEnds : List Token → List Token
  | .documentEnd :: rest => dropDocumentEnds rest
  | rest => rest

end Parse

/-- The node of a text that holds at most one document: none if it is no such text, and none inside if it is
    empty. -/
def Node.ofTokens? (tokens : List Token) : Option (Option Node) :=
  match tokens with
  | [] => some none
  | first :: _ => do
    let isExplicit := Parse.isDirective first || first == .documentStart
    let s ← Parse.directives tokens false { tokens }
    let s ← if isExplicit then if s.atAny [.documentStart] then some s.drop else none else some s
    let s : Parse := { s with handles := s.handles ++ Parse.defaultHandles }
    let isBlank := isExplicit &&
      (s.tokens.isEmpty || s.atAny [.documentStart, .documentEnd] || s.tokens.head?.any Parse.isDirective)
    let (node, s) ← if isBlank then some (Node.empty, s) else Parse.node true false s
    if (Parse.dropDocumentEnds s.tokens).isEmpty then some (some node) else none

end Recordsmith.Yaml
