import Recordsmith.Source.SwiftType

/-!
Reading Swift sources. The tree holds what declarations are made of: attributes, modifiers, names, type parameters,
bodies and the members in them. Statements and expressions are searched for declarations and leave nothing else behind.
-/

namespace Recordsmith.Source.SwiftSource

open Recordsmith.Tree (Node SourceTree)

/-! ### Ends of members -/

/-- Whether a sequence of pieces opens a member on a line of its own. -/
def opensMember : List Piece → Bool
  | p :: rest =>
    p.opensLine && (p.isSymbol "@" || p.word?.any (fun word => word ∈ memberWords || word ∈ modifierWords) ||
      (p.isSymbol "#" && rest.head?.any fun q => q.word?.any (· ∈ directiveWords)))
  | [] => false

/-- Whether an expression goes on after a piece, also on the next line. -/
def continues (p : Piece) : Bool := ["=", "+", "-", "*", "/", ",", "&", "|", ":", "."].any p.isSymbol

/-- The pieces up to the end of the member, and what follows it. A block ends a member that is waiting for one. -/
def throughEnd (blockEnds continued : Bool) : List Piece → List Piece × List Piece
  | [] => ([], [])
  | p :: rest =>
    if p.isSymbol ";" then ([], p :: rest)
    else if opensMember (p :: rest) ∧ !continued then ([], p :: rest)
    else if blockEnds ∧ p.isGroup "\x7b" then ([p], rest)
    else
      let (taken, more) := throughEnd blockEnds (continues p) rest
      (p :: taken, more)

@[grind! .] theorem throughEnd_append (blockEnds continued : Bool) (pieces : List Piece) :
    (throughEnd blockEnds continued pieces).1 ++ (throughEnd blockEnds continued pieces).2 = pieces := by
  fun_induction throughEnd blockEnds continued pieces <;> grind

/-- The pieces on the line of the first piece, and what follows. -/
def restOfLine : List Piece → List Piece × List Piece
  | [] => ([], [])
  | p :: rest =>
    if p.opensLine then ([], p :: rest)
    else
      let (taken, more) := restOfLine rest
      (p :: taken, more)

theorem restOfLine_append (pieces : List Piece) : (restOfLine pieces).1 ++ (restOfLine pieces).2 = pieces := by
  fun_induction restOfLine pieces <;> grind

/-- The expression of a binding: its pieces up to a comma between bindings, and what follows. A comma between type
    arguments separates nothing. -/
def expression (continued : Bool) (pieces : List Piece) : List Piece × List Piece :=
  match pieces with
  | [] => ([], [])
  | p :: rest =>
    if p.isSymbol ";" ∨ p.isSymbol "," ∨ (opensMember (p :: rest) ∧ !continued) then ([], p :: rest)
    else
      let more := if p.isWord then (adjacentArguments p.stop rest).2 else rest
      let found := expression (continues p) more
      (p :: upTo more rest ++ found.1, found.2)
termination_by Piece.weights pieces
decreasing_by grind

theorem expression_append (continued : Bool) (pieces : List Piece) :
    (expression continued pieces).1 ++ (expression continued pieces).2 = pieces := by
  fun_induction expression continued pieces with
  | case1 => rfl
  | case2 => rfl
  | case3 continued p rest _ more found ih =>
    have hmore : more <:+ rest := by grind
    have hfound : found.1 ++ found.2 = more := ih
    simp [hfound, upTo_append hmore]

/-- Where the symbols of an operator's name end, which stand directly together. -/
def operatorEnd : Nat → List Piece → Nat
  | stop, .token t :: rest => if t.kind = .symbol ∧ !t.apart then operatorEnd t.stop rest else stop
  | stop, _ => stop

/-! ### Declarations -/

def BodyKind.kind : BodyKind → String
  | .classBody => "class_body"
  | .enumBody => "enum_class_body"
  | .protocolBody => "protocol_body"

/-- The body that a declaration keyword asks for. -/
def bodyKind? : String → Option BodyKind
  | "struct" => some .classBody
  | "class" => some .classBody
  | "actor" => some .classBody
  | "extension" => some .classBody
  | "enum" => some .enumBody
  | "protocol" => some .protocolBody
  | _ => none

/-- The body of a declaration whose name has been read, with what stands before it and what follows it. A new
    declaration ends the search. -/
def body? (continued : Bool) : List Piece → Option (List Piece × Piece × List Piece × List Piece)
  | [] => none
  | p :: rest =>
    match p.inner? "\x7b" with
    | some inner => some ([], p, inner, rest)
    | none =>
      if p.isSymbol ";" ∨ (opensMember (p :: rest) ∧ !continued) then none
      else (body? (continues p) rest).map fun (before, found) => (p :: before, found)

theorem body?_eq {continued : Bool} {pieces before inner rest : List Piece} {body : Piece}
    (h : body? continued pieces = some (before, body, inner, rest)) :
    pieces = before ++ body :: rest ∧ body.inner? "\x7b" = some inner := by
  fun_induction body? continued pieces generalizing before <;> grind [Option.map_eq_some_iff]

/-- The name after a declaration keyword: where it ends, and what follows. An extension names a whole type. -/
def name? (keyword : String) : List Piece → Option (Piece × Nat × List Piece)
  | p :: rest =>
    if keyword = "extension" then (type? (p :: rest)).map fun (stop, more) => (p, stop, more)
    else if p.isWord ∧ !p.opensLine then some (p, p.stop, rest)
    else none
  | [] => none

theorem name?_suffix {keyword : String} {pieces rest : List Piece} {name : Piece} {stop : Nat}
    (h : name? keyword pieces = some (name, stop, rest)) : rest <:+ pieces := by
  unfold name? at h
  grind [List.suffix_cons, Option.map_eq_some_iff]

/-- The head of a declaration: where it starts, its keyword, the body it asks for, and what follows the keyword. -/
def head? : List Piece → Option (Nat × Piece × String × BodyKind × List Piece)
  | p :: rest =>
    match p.word? with
    | some "indirect" =>
      match rest with
      | q :: more => if q.word? = some "enum" then some (p.start, q, "enum", .enumBody, more) else none
      | [] => none
    | some word => (bodyKind? word).map fun kind => (p.start, p, word, kind, rest)
    | none => none
  | [] => none

theorem head?_shrinks {start : Nat} {keyword : Piece} {word : String} {bodyKind : BodyKind} {pieces rest : List Piece}
    (h : head? pieces = some (start, keyword, word, bodyKind, rest)) : Piece.weights rest < Piece.weights pieces := by
  unfold head? at h
  grind [Option.map_eq_some_iff]

/-- The declaration that opens a sequence of pieces, and what follows it. -/
def declaration? (scope : Scope) (pieces : List Piece) : Option (Part Mode × List Piece) := do
  let marked := marks.take pieces
  let (start, keyword, word, bodyKind, afterKeyword) ← head? marked.2
  let (name, nameStop, afterName) ← name? word afterKeyword
  let parameters := typeParameters afterName
  let (before, body, inner, rest) ← body? false parameters.2
  let nodeKind := if bodyKind = .protocolBody then "protocol_declaration" else "class_declaration"
  let nameNode : Node := ⟨"type_identifier", name.start, nameStop, true, some "name", []⟩
  let bodyNode : Node := ⟨bodyKind.kind, body.start, body.stop, true, some "body", []⟩
  some (.node ⟨nodeKind, Mark.startOf marked.1 start, body.stop, true, none, []⟩
    (scope.markParts marked.1 ++ .whole (keyword.leaf word false (some "declaration_kind")) ::
      .node nameNode [searched (upTo afterName afterKeyword)] :: parameters.1 ++
      [searched before, .node bodyNode [.unread (.members bodyKind) inner]]), rest)

theorem declaration?_shrinks {scope : Scope} {pieces rest : List Piece} {part : Part Mode}
    (h : declaration? scope pieces = some (part, rest)) : part.weight + Piece.weights rest < Piece.weights pieces := by
  obtain ⟨⟨start, keyword, word, bodyKind, afterKeyword⟩, hhead, h⟩ := Option.bind_eq_some_iff.mp h
  obtain ⟨⟨name, nameStop, afterName⟩, hname, h⟩ := Option.bind_eq_some_iff.mp h
  obtain ⟨⟨before, body, inner, more⟩, hbody, h⟩ := Option.bind_eq_some_iff.mp h
  obtain ⟨rfl, rfl⟩ := Prod.mk.inj (Option.some.inj h)
  have hmarks := marks.weight_take pieces
  have hkeyword := head?_shrinks hhead
  have hafterName := Piece.weights_upTo (name?_suffix hname)
  have hparameters := typeParameters_shrinks afterName
  obtain ⟨hsplit, hinner⟩ := body?_eq hbody
  have hinner := Piece.weights_inner hinner
  rw [hsplit] at hparameters
  simp only [Part.weight_node, Part.weights_append, Part.weights_cons, Part.weights_nil, weights_markParts, searched,
    Part.weight_unread, Part.whole, Piece.weights_append, Piece.weights_cons] at hparameters ⊢
  omega

/-! ### Properties -/

/-- The node of a binding's pattern. Only a plain identifier gives it a name. -/
def patternNode (p : Piece) : Node :=
  let inner : List Node :=
    match p.word? with
    | some "_" => [p.leaf "wildcard_pattern" true none]
    | some _ => [p.leaf "simple_identifier" true none]
    | none => []
  ⟨"pattern", p.start, p.stop, true, none, inner⟩

/-- The type annotation of a binding, and what follows it. -/
def declaredType : List Piece → List (Part Mode) × List Piece
  | [] => ([], [])
  | colon :: after =>
    if colon.isSymbol ":" then
      match type? after with
      | some (stop, more) =>
        ([.node ⟨"type_annotation", colon.start, stop, true, none, []⟩ [searched (upTo more after)]], more)
      | none => ([], after)
    else ([], colon :: after)

theorem declaredType_shrinks (pieces : List Piece) :
    Part.weights (declaredType pieces).1 + Piece.weights (declaredType pieces).2 ≤ Piece.weights pieces := by
  unfold declaredType
  grind [searched, Piece.weights_upTo]

/-- The value of a binding, and what follows it. -/
def initialValue : List Piece → List (Part Mode) × List Piece
  | [] => ([], [])
  | sign :: after =>
    if sign.isSymbol "=" then
      let (taken, more) := expression true after
      ([.whole (sign.leaf "=" false none),
        .node ⟨"expression", sign.stop, endOf sign.stop taken, true, none, []⟩ [searched taken]], more)
    else ([], sign :: after)

theorem initialValue_shrinks (pieces : List Piece) :
    Part.weights (initialValue pieces).1 + Piece.weights (initialValue pieces).2 ≤ Piece.weights pieces := by
  unfold initialValue
  grind [searched, expression_append]

/-- Whether a block only observes a stored property. -/
def observes (inner : List Piece) : Bool := inner.head?.any fun p => p.word?.any (· ∈ ["willSet", "didSet"])

/-- The block of a binding, and what follows it. -/
def accessors : List Piece → List (Part Mode) × List Piece
  | [] => ([], [])
  | block :: after =>
    match block.inner? "\x7b" with
    | some inner =>
      let blockKind := if observes inner then "willset_didset_block" else "computed_property"
      ([.node ⟨blockKind, block.start, block.stop, true, none, []⟩ [searched inner]], after)
    | none => ([], block :: after)

theorem accessors_shrinks (pieces : List Piece) :
    Part.weights (accessors pieces).1 + Piece.weights (accessors pieces).2 ≤ Piece.weights pieces := by
  unfold accessors
  grind [searched]

/-- The type, the value and the accessors of a binding, and what follows it. -/
def bindingDetails (pieces : List Piece) : List (Part Mode) × List Piece :=
  let type := declaredType pieces
  let value := initialValue type.2
  let block := accessors value.2
  (type.1 ++ value.1 ++ block.1, block.2)

theorem bindingDetails_shrinks (pieces : List Piece) :
    Part.weights (bindingDetails pieces).1 + Piece.weights (bindingDetails pieces).2 ≤ Piece.weights pieces := by
  have htype := declaredType_shrinks pieces
  have hvalue := initialValue_shrinks (declaredType pieces).2
  have hblock := accessors_shrinks (initialValue (declaredType pieces).2).2
  simp only [bindingDetails, Part.weights_append]
  omega

grind_pattern bindingDetails_shrinks => bindingDetails pieces

/-- The bindings of a property: patterns, each with its details. -/
def bindings (pieces : List Piece) : List (Part Mode) × List Piece :=
  match pieces with
  | [] => ([], [])
  | p :: rest =>
    if p.isWord ∨ p.isGroup "(" then
      let details := bindingDetails rest
      let own := .whole (patternNode p) :: details.1
      match _h : details.2 with
      | comma :: after =>
        if comma.isSymbol "," then
          let found := bindings after
          (own ++ .whole (comma.leaf "," false none) :: found.1, found.2)
        else (own, details.2)
      | [] => (own, [])
    else ([], p :: rest)
termination_by Piece.weights pieces
decreasing_by grind

theorem bindings_shrinks (pieces : List Piece) :
    Part.weights (bindings pieces).1 + Piece.weights (bindings pieces).2 ≤ Piece.weights pieces := by
  fun_induction bindings pieces <;> grind

/-- A property after its keyword. In a protocol it is one requirement, named with its keyword. -/
def property (kind : BodyKind) (found : List Mark) (start : Nat) (keyword : Piece) (rest : List Piece) :
    List (Part Mode) × List Piece :=
  let listed := Mark.listed (.declarations .inner) found
  if kind = .protocolBody then
    let tail := throughEnd true true rest
    let name : List Node := (tail.1.head?.map fun p =>
      (⟨"pattern", keyword.start, p.stop, true, some "name", []⟩ : Node)).toList
    ([.node ⟨"protocol_property_declaration", start, endOf keyword.stop tail.1, true, none, name⟩
      (listed ++ [searched tail.1])], tail.2)
  else
    let bound := bindings rest
    let binding : Node := ⟨"value_binding_pattern", keyword.start, keyword.stop, true, none,
      [keyword.leaf (keyword.word?.getD "") false (some "mutability")]⟩
    ([.node ⟨"property_declaration", start, endOf keyword.stop (upTo bound.2 rest), true, none, []⟩
      (listed ++ .whole binding :: bound.1)], bound.2)

theorem property_shrinks (kind : BodyKind) (found : List Mark) (start : Nat) (keyword : Piece) (rest : List Piece) :
    Part.weights (property kind found start keyword rest).1 + Piece.weights (property kind found start keyword rest).2 ≤
      Mark.weights found + Piece.weights rest := by
  have htail := congrArg Piece.weights (throughEnd_append true true rest)
  have hbound := bindings_shrinks rest
  rw [Piece.weights_append] at htail
  unfold property
  split
  · simp [searched]
    omega
  · simp
    omega

/-! ### Other members -/

/-- The type that a subscript gives, which is its name. -/
def resultName (taken : List Piece) : List Node :=
  match afterArrow? ((taken.dropWhile (!·.isGroup "(")).drop 1) with
  | some (q :: after) =>
    ((type? (q :: after)).map fun (stop, _) => (⟨"type", q.start, stop, true, some "name", []⟩ : Node)).toList
  | _ => []

/-- The name that opens the pieces after a keyword. -/
def leadingName (kind : String) (taken : List Piece) : List Node :=
  (taken.head?.map (·.leaf kind true (some "name"))).toList

/-- A function's name, which may be an operator. -/
def functionName : List Piece → List Node
  | [] => []
  | name :: rest =>
    let stop := if name.isWord then name.stop else operatorEnd name.stop rest
    [⟨"simple_identifier", name.start, stop, true, some "name", []⟩]

/-- A member that ends with `tail`, whose name is found in there. -/
def ending (found : List Mark) (start : Nat) (keyword : Piece) (nodeKind : String) (name : List Piece → List Node)
    (tail : List Piece × List Piece) : List (Part Mode) × List Piece :=
  ([.node ⟨nodeKind, start, endOf keyword.stop tail.1, true, none, name tail.1⟩
    (Mark.listed (.declarations .inner) found ++ [searched tail.1])], tail.2)

/-- A member that is no declaration of a type, after its marks. -/
def member (kind : BodyKind) (found : List Mark) (start : Nat) (pieces : List Piece) : List (Part Mode) × List Piece :=
  match pieces.dropWhile (·.word? == some "indirect") with
  | [] => (Mark.loose (.declarations .inner) found [], [])
  | p :: rest =>
    let other := ending found start p
    let blockEnds := kind ≠ .protocolBody
    match p.word? with
    | some "var" => property kind found start p rest
    | some "let" => property kind found start p rest
    | some "func" => other "function_declaration" functionName (throughEnd blockEnds true rest)
    | some "init" =>
      other "init_declaration" (fun _ => [p.leaf "init" false (some "name")]) (throughEnd blockEnds true rest)
    | some "deinit" => other "deinit_declaration" (fun _ => []) (throughEnd true true rest)
    | some "subscript" => other "subscript_declaration" resultName (throughEnd true true rest)
    | some "case" => other "enum_entry" (leadingName "simple_identifier") (throughEnd false true rest)
    | some "typealias" => other "typealias_declaration" (leadingName "type_identifier") (throughEnd false true rest)
    | some "associatedtype" =>
      other "associatedtype_declaration" (leadingName "type_identifier") (throughEnd false true rest)
    | some _ => other "statement" (fun _ => []) (throughEnd false true rest)
    | none => (Mark.loose (.declarations .inner) found p.contents, rest)

theorem ending_shrinks (found : List Mark) (start : Nat) (keyword : Piece) (nodeKind : String)
    (name : List Piece → List Node) (blockEnds : Bool) (rest : List Piece) :
    Part.weights (ending found start keyword nodeKind name (throughEnd blockEnds true rest)).1 +
        Piece.weights (ending found start keyword nodeKind name (throughEnd blockEnds true rest)).2 =
      Mark.weights found + Piece.weights rest := by
  have htail := congrArg Piece.weights (throughEnd_append blockEnds true rest)
  rw [Piece.weights_append] at htail
  simp [ending, searched]
  omega

theorem member_shrinks (kind : BodyKind) (found : List Mark) (start : Nat) (pieces : List Piece) :
    Part.weights (member kind found start pieces).1 + Piece.weights (member kind found start pieces).2 ≤
      Mark.weights found + (Piece.weights pieces - 1) := by
  have hdrop := Piece.weights_le_of_suffix (List.dropWhile_suffix (l := pieces) (·.word? == some "indirect"))
  unfold member
  split
  · simp
  · rename_i p rest hpieces
    have hproperty := property_shrinks kind found start p rest
    have hending := ending_shrinks found start p
    have hcontents := p.weights_contents
    rw [hpieces, Piece.weights_cons] at hdrop
    split <;> simp only [hending, Mark.weights_loose] <;> omega

/-! ### Steps -/

/-- What opens the members of a body, or what is left of them. -/
def memberStep (kind : BodyKind) (p : Piece) (rest : List Piece) : List (Part Mode) × List Piece :=
  if p.isSymbol ";" then ([], rest)
  else if p.isSymbol "#" ∧ (rest.head?.any fun q => q.word?.any (· ∈ directiveWords)) then
    let line := restOfLine rest
    ([.whole ⟨"directive", p.start, endOf p.stop line.1, true, none, []⟩], line.2)
  else match declaration? .outer (p :: rest) with
    | some (part, more) => ([part], more)
    | none =>
      let marked := marks.take (p :: rest)
      member kind marked.1 (Mark.startOf marked.1 p.start) marked.2

def step : Mode → Piece → List Piece → List (Part Mode) × List Piece
  | .declarations scope => searchStep (.declarations .inner) (declaration? scope)
  | .members kind => memberStep kind

theorem memberStep_shrinks (kind : BodyKind) (p : Piece) (rest : List Piece) :
    Part.weights (memberStep kind p rest).1 + Piece.weights (memberStep kind p rest).2 < Piece.weights (p :: rest) := by
  have hp := p.weight_pos
  unfold memberStep
  split
  · simp
    omega
  split
  · have hline := congrArg Piece.weights (restOfLine_append rest)
    rw [Piece.weights_append] at hline
    simp
    omega
  split
  · rename_i part more hread
    simpa using declaration?_shrinks hread
  · exact Nat.lt_of_le_of_lt (member_shrinks ..) (marks.weight_take_sub_one_lt (List.cons_ne_nil p rest))

theorem step_shrinks (mode : Mode) (p : Piece) (rest : List Piece) :
    Part.weights (step mode p rest).1 + Piece.weights (step mode p rest).2 < Piece.weights (p :: rest) := by
  cases mode with
  | declarations scope => exact searchStep_shrinks declaration?_shrinks _
  | members kind => exact memberStep_shrinks kind p rest

def grammar : Grammar Mode := ⟨step, step_shrinks⟩

/-- The tree of a source. -/
def read : List Char → SourceTree := grammar.tree lexer "source_file" (.declarations .outer)

end Recordsmith.Source.SwiftSource
