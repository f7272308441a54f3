import Recordsmith.Source.Mark

/-!
Reading Java sources. The tree holds what declarations are made of: modifiers, names, type parameters, bodies and the
members in them. Statements and expressions are searched for declarations and leave nothing else behind.
-/

namespace Recordsmith.Source.JavaSource

open Recordsmith.Tree (Node SourceTree)

/-! ### Tokens -/

/-- The characters of a literal up to and with its closing quote. It ends early at the end of its line. -/
def quotedLength (quote : Char) : List Char → Nat
  | [] => 0
  | '\\' :: _ :: rest => quotedLength quote rest + 2
  | c :: rest => if c = quote then 1 else if c = '\n' then 0 else quotedLength quote rest + 1

/-- The characters of a text block up to and with its closing quotes. -/
def blockLength : List Char → Nat
  | [] => 0
  | '\\' :: _ :: rest => blockLength rest + 2
  | '"' :: '"' :: '"' :: _ => 3
  | _ :: rest => blockLength rest + 1

def lexeme (c : Char) (rest : List Char) : Lexeme :=
  match c, rest with
  | '/', '/' :: more => ⟨none, restOfLine more + 1⟩
  | '/', '*' :: more => ⟨none, through ['*', '/'] more + 1⟩
  | '"', '"' :: '"' :: more => ⟨some .literal, blockLength more + 2⟩
  | '"', more => ⟨some .literal, quotedLength '"' more⟩
  | '\'', more => ⟨some .literal, quotedLength '\'' more⟩
  | c, more =>
    if isGap c then ⟨none, 0⟩
    else if c.isDigit then ⟨some .literal, numberLength more⟩
    else if opensWord c then ⟨some .word, (more.takeWhile extendsWord).length⟩
    else ⟨some .symbol, 0⟩

def lexer : Lexer := { lexeme := fun _ => lexeme }

/-! ### Modifiers -/

def modifierWords : List String := [
  "public", "protected", "private", "abstract", "static", "final", "strictfp", "default", "synchronized", "native",
  "transient", "volatile", "sealed"]

/-- An annotation after its sign: its name, and its arguments if it has any. -/
def annotationAfter (sign name : Piece) (rest : List Piece) : Mark × List Piece :=
  let dotted := dottedName name.stop rest
  let nameNode : Node := ⟨"identifier", name.start, dotted.1, true, some "name", []⟩
  let plain : Mark × List Piece :=
    ({ node := ⟨"marker_annotation", sign.start, dotted.1, true, none, [nameNode]⟩ }, dotted.2)
  match dotted.2 with
  | p :: more =>
    if p.isGroup "(" then
      ({ node := ⟨"annotation", sign.start, p.stop, true, none, [nameNode]⟩, arguments := p.contents }, more)
    else plain
  | [] => plain

theorem annotationAfter_suffix (sign name : Piece) (rest : List Piece) : (annotationAfter sign name rest).2 <:+ rest := by
  have hdotted := dottedName_suffix name.stop rest
  unfold annotationAfter
  grind [List.suffix_cons, List.IsSuffix.trans]

theorem annotationAfter_shrinks (sign name : Piece) (rest : List Piece) :
    Piece.weights (annotationAfter sign name rest).1.arguments + Piece.weights (annotationAfter sign name rest).2 ≤
      Piece.weights rest := by
  have hdotted := dottedName_suffix name.stop rest
  unfold annotationAfter
  grind

/-- The modifier or annotation that opens a sequence of pieces. -/
def mark? : List Piece → Option (Mark × List Piece)
  | p :: rest =>
    if p.isSymbol "@" then
      match rest with
      | name :: more =>
        if name.isWord ∧ name.word? ≠ some "interface" then some (annotationAfter p name more) else none
      | [] => none
    else match p.word? with
      | some "non" =>
        match rest with
        | dash :: second :: more =>
          if dash.isSymbol "-" ∧ second.word? = some "sealed" then
            some ({ node := ⟨"non-sealed", p.start, second.stop, false, none, []⟩ }, more)
          else none
        | _ => none
      | some word => if word ∈ modifierWords then some ({ node := p.leaf word false none }, rest) else none
      | none => none
  | [] => none

grind_pattern annotationAfter_suffix => annotationAfter sign name rest
grind_pattern annotationAfter_shrinks => annotationAfter sign name rest

theorem mark?_shrinks {pieces rest : List Piece} {m : Mark} (h : mark? pieces = some (m, rest)) :
    Piece.weights m.arguments + Piece.weights rest < Piece.weights pieces ∧ rest <:+ pieces := by
  unfold mark? at h
  grind [List.suffix_cons, List.IsSuffix.trans]

/-- How modifiers and annotations are read. -/
def marks : MarkReader := ⟨mark?, mark?_shrinks⟩

/-! ### Modes -/

/-- What a body may hold besides nested declarations. -/
inductive BodyKind
  | classBody
  | interfaceBody
  | enumBody
  | attributeBody
  deriving DecidableEq, Repr

/-- What is read: the declarations among statements and expressions, the members of a body, or the constants of an enum
    and what follows them. -/
inductive Mode
  | declarations
  | members (kind : BodyKind)
  | constants
  deriving DecidableEq, Repr

/-- Pieces in which declarations may stand. -/
def searched (pieces : List Piece) : Part Mode := .unread .declarations pieces

/-! ### Types -/

/-- The list of type parameters that may open a sequence of pieces, and what follows it. -/
def typeParameters (pieces : List Piece) : List (Part Mode) × List Piece :=
  typeParameterList marks .declarations (some "type_parameters")
    (fun name => [name.leaf "type_identifier" true none]) pieces

theorem typeParameters_shrinks (pieces : List Piece) :
    Part.weights (typeParameters pieces).1 + Piece.weights (typeParameters pieces).2 ≤ Piece.weights pieces :=
  typeParameterList_shrinks ..

/-- The array dimensions that open a sequence of pieces: where the last one ends, and what follows. -/
def dimensions (stop : Option Nat) (pieces : List Piece) : Option Nat × List Piece :=
  match _h : (marks.take pieces).2 with
  | p :: rest => if p.inner? "[" matches some [] then dimensions (some p.stop) rest else (stop, pieces)
  | [] => (stop, pieces)
termination_by Piece.weights pieces
decreasing_by grind [MarkReader.take_suffix]

theorem dimensions_suffix (stop : Option Nat) (pieces : List Piece) : (dimensions stop pieces).2 <:+ pieces := by
  fun_induction dimensions stop pieces <;> grind [MarkReader.take_suffix, List.suffix_cons, List.IsSuffix.trans]

/-- What may follow the first word of a type: further steps of a qualified name, type arguments and dimensions. -/
def typeTail (stop : Nat) (pieces : List Piece) : Nat × List Piece :=
  match pieces with
  | p :: rest =>
    if p.isSymbol "." then
      match _h : (marks.take rest).2 with
      | q :: more => if q.isWord then typeTail q.stop more else (stop, pieces)
      | [] => (stop, pieces)
    else if p.isSymbol "<" then
      match _h : throughAngle 0 false rest with
      | some (_, close, more) => typeTail close.stop more
      | none => (stop, pieces)
    else
      match dimensions none pieces with
      | (some stop, more) => (stop, more)
      | (none, _) => (stop, pieces)
  | [] => (stop, [])
termination_by Piece.weights pieces
decreasing_by all_goals grind [MarkReader.take_suffix]

theorem typeTail_suffix (stop : Nat) (pieces : List Piece) : (typeTail stop pieces).2 <:+ pieces := by
  fun_induction typeTail stop pieces <;>
    grind [MarkReader.take_suffix, dimensions_suffix, List.suffix_cons, List.IsSuffix.trans]

/-- The type that opens a sequence of pieces: its range, and what follows. -/
def type? : List Piece → Option (Nat × Nat × List Piece)
  | p :: rest =>
    if p.isWord then
      let tail := typeTail p.stop rest
      some (p.start, tail.1, tail.2)
    else none
  | [] => none

theorem type?_suffix {pieces rest : List Piece} {start stop : Nat} (h : type? pieces = some (start, stop, rest)) :
    rest <:+ pieces := by
  unfold type? at h
  grind [typeTail_suffix, List.suffix_cons, List.IsSuffix.trans]

/-! ### Declarations -/

def BodyKind.kind : BodyKind → String
  | .classBody => "class_body"
  | .interfaceBody => "interface_body"
  | .enumBody => "enum_body"
  | .attributeBody => "annotation_type_body"

/-- How the body is read. -/
def BodyKind.mode : BodyKind → Mode
  | .enumBody => .constants
  | kind => .members kind

/-- The head of a declaration: what it declares, its keyword, its name, and what follows the name. -/
def head? : List Piece → Option (String × BodyKind × Piece × Piece × List Piece)
  | first :: second :: rest =>
    let ordinary (kind : String) (body : BodyKind) :=
      if second.isWord then some (kind, body, first, second, rest) else none
    match first.word? with
    | some "class" => ordinary "class_declaration" .classBody
    | some "interface" => ordinary "interface_declaration" .interfaceBody
    | some "enum" => ordinary "enum_declaration" .enumBody
    | some "record" =>
      match rest with
      | third :: _ =>
        if third.isGroup "(" ∨ third.isSymbol "<" then ordinary "record_declaration" .classBody else none
      | [] => none
    | some _ => none
    | none =>
      match rest with
      | name :: more =>
        if first.isSymbol "@" ∧ second.word? = some "interface" ∧ name.isWord then
          some ("annotation_type_declaration", .attributeBody, first, name, more)
        else none
      | [] => none
  | _ => none

/-- The body of a declaration whose name has been read, with what stands before it and what follows it. -/
def body? : List Piece → Option (List Piece × Piece × List Piece × List Piece)
  | [] => none
  | p :: rest =>
    match p.inner? "\x7b" with
    | some inner => some ([], p, inner, rest)
    | none => if p.isSymbol ";" then none else (body? rest).map fun (before, found) => (p :: before, found)

theorem body?_eq {pieces before inner rest : List Piece} {body : Piece}
    (h : body? pieces = some (before, body, inner, rest)) :
    pieces = before ++ body :: rest ∧ body.inner? "\x7b" = some inner := by
  fun_induction body? pieces generalizing before <;> grind [Option.map_eq_some_iff]

theorem head?_shrinks {kind : String} {bodyKind : BodyKind} {keyword name : Piece} {pieces rest : List Piece}
    (h : head? pieces = some (kind, bodyKind, keyword, name, rest)) : Piece.weights rest < Piece.weights pieces := by
  unfold head? at h
  grind

/-- The declaration that opens a sequence of pieces, and what follows it. -/
def declaration? (pieces : List Piece) : Option (Part Mode × List Piece) := do
  let marked := marks.take pieces
  let (kind, bodyKind, keyword, name, afterName) ← head? marked.2
  let parameters := typeParameters afterName
  let (before, body, inner, rest) ← body? parameters.2
  let bodyNode : Node := ⟨bodyKind.kind, body.start, body.stop, true, some "body", []⟩
  some (.node ⟨kind, Mark.startOf marked.1 keyword.start, body.stop, true, none, []⟩
    (Mark.listed .declarations marked.1 ++ .whole (name.leaf "identifier" true (some "name")) :: parameters.1 ++
      [searched before, .node bodyNode [.unread bodyKind.mode inner]]), rest)

theorem declaration?_shrinks {pieces rest : List Piece} {part : Part Mode}
    (h : declaration? pieces = some (part, rest)) : part.weight + Piece.weights rest < Piece.weights pieces := by
  obtain ⟨⟨kind, bodyKind, keyword, name, afterName⟩, hhead, h⟩ := Option.bind_eq_some_iff.mp h
  obtain ⟨⟨before, body, inner, more⟩, hbody, h⟩ := Option.bind_eq_some_iff.mp h
  obtain ⟨rfl, rfl⟩ := Prod.mk.inj (Option.some.inj h)
  have hmarks := marks.weight_take pieces
  have hname := head?_shrinks hhead
  have hparameters := typeParameters_shrinks afterName
  obtain ⟨hsplit, hinner⟩ := body?_eq hbody
  have hinner := Piece.weights_inner hinner
  rw [hsplit] at hparameters
  simp only [Part.weight_node, Part.weights_append, Part.weights_cons, Part.weights_nil, Mark.weights_listed, searched,
    Part.weight_unread, Part.whole, Piece.weights_append, Piece.weights_cons] at hparameters ⊢
  omega

/-! ### Members -/

/-- The pieces of a member up to the block or the semicolon that ends it, and what follows. -/
def throughEnd (blockEnds : Bool) : List Piece → List Piece × List Piece
  | [] => ([], [])
  | p :: rest =>
    if p.isSymbol ";" ∨ (blockEnds ∧ p.isGroup "\x7b") then ([p], rest)
    else
      let (taken, more) := throughEnd blockEnds rest
      (p :: taken, more)

theorem throughEnd_append (blockEnds : Bool) (pieces : List Piece) :
    (throughEnd blockEnds pieces).1 ++ (throughEnd blockEnds pieces).2 = pieces := by
  fun_induction throughEnd blockEnds pieces <;> grind

/-- A method or a constructor after its name, with the parts before that. -/
def callable (kind : BodyKind) (nodeKind : String) (start : Nat) (before : List (Part Mode)) (name : Piece)
    (rest : List Piece) : List (Part Mode) × List Piece :=
  let tail := throughEnd (kind ≠ .attributeBody) rest
  ([.node ⟨nodeKind, start, endOf name.stop tail.1, true, none, []⟩
    (before ++ [.whole (name.leaf "identifier" true (some "name")), searched tail.1])], tail.2)

theorem callable_shrinks (kind : BodyKind) (nodeKind : String) (start : Nat) (before : List (Part Mode)) (name : Piece)
    (rest : List Piece) :
    Part.weights (callable kind nodeKind start before name rest).1 +
        Piece.weights (callable kind nodeKind start before name rest).2 =
      Part.weights before + Piece.weights rest := by
  have htail := congrArg Piece.weights (throughEnd_append (kind ≠ .attributeBody) rest)
  rw [Piece.weights_append] at htail
  simp only [callable, searched, Part.weights_cons, Part.weight_node, Part.weights_append, Part.weight_unread,
    Part.weights_nil] at htail ⊢
  omega

/-- What follows the name of a field: its dimensions, and its value. Further declarators are searched with it. -/
def declaratorParts (tail : List Piece) : List (Part Mode) :=
  let found := dimensions none tail
  let dimensionParts := found.1.toList.map fun stop =>
    Part.node ⟨"dimensions", (tail.head?.map Piece.start).getD stop, stop, true, some "dimensions", []⟩
      [searched (upTo found.2 tail)]
  match found.2 with
  | [] => dimensionParts
  | sign :: more =>
    if sign.isSymbol "=" then
      dimensionParts ++
        [.node ⟨"expression", sign.stop, endOf sign.stop more, true, some "value", []⟩ [searched more]]
    else dimensionParts ++ [searched (sign :: more)]

theorem declaratorParts_shrinks (tail : List Piece) : Part.weights (declaratorParts tail) ≤ Piece.weights tail := by
  have hfound := Piece.weights_upTo (dimensions_suffix none tail)
  have hdimensions : Part.weights ((dimensions none tail).1.toList.map fun stop =>
      Part.node ⟨"dimensions", (tail.head?.map Piece.start).getD stop, stop, true, some "dimensions", []⟩
        [searched (upTo (dimensions none tail).2 tail)]) ≤ Piece.weights (upTo (dimensions none tail).2 tail) := by
    cases (dimensions none tail).1 <;> simp [searched]
  unfold declaratorParts
  grind [searched]

/-- A field after its name, with the parts before that. -/
def field (kind : BodyKind) (start : Nat) (before : List (Part Mode)) (name : Piece) (rest : List Piece) :
    List (Part Mode) × List Piece :=
  let tail := throughEnd false rest
  let declarator : Node := ⟨"variable_declarator", name.start, endOf name.stop tail.1, true, some "declarator", []⟩
  let nodeKind := if kind = .classBody then "field_declaration" else "constant_declaration"
  ([.node ⟨nodeKind, start, endOf name.stop tail.1, true, none, []⟩
    (before ++ [.node declarator
      (.whole (name.leaf "identifier" true (some "name")) :: declaratorParts tail.1)])], tail.2)

theorem field_shrinks (kind : BodyKind) (start : Nat) (before : List (Part Mode)) (name : Piece) (rest : List Piece) :
    Part.weights (field kind start before name rest).1 + Piece.weights (field kind start before name rest).2 ≤
      Part.weights before + Piece.weights rest := by
  have htail := congrArg Piece.weights (throughEnd_append false rest)
  have hparts := declaratorParts_shrinks (throughEnd false rest).1
  rw [Piece.weights_append] at htail
  simp only [field, Part.weights_cons, Part.weight_node, Part.weights_append, Part.weights_nil]
  omega

/-- A member after its marks, and after the type parameters and further marks that are `skipped`. -/
def signature (kind : BodyKind) (found : List Mark) (start : Nat) (skipped pieces : List Piece) :
    List (Part Mode) × List Piece :=
  let before := Mark.listed .declarations found ++ [searched skipped]
  match pieces with
  | [] => (Mark.loose .declarations found (skipped.drop 1), [])
  | p :: rest =>
    if p.isWord ∧ (rest.head?.any fun q => q.isGroup "(" || q.isGroup "\x7b") then
      callable kind "constructor_declaration" start before p rest
    else match type? (p :: rest) with
      | some (typeStart, typeStop, name :: afterName) =>
        let typePieces := upTo (name :: afterName) (p :: rest)
        let before := before ++ [.node ⟨"type", typeStart, typeStop, true, some "type", []⟩ [searched typePieces]]
        if !name.isWord then (Mark.loose .declarations found (skipped ++ typePieces ++ name.contents), afterName)
        else if afterName.head?.any (·.isGroup "(") then callable kind "method_declaration" start before name afterName
        else field kind start before name afterName
      | _ => (Mark.loose .declarations found (skipped ++ p.contents), rest)

theorem signature_shrinks (kind : BodyKind) (found : List Mark) (start : Nat) (skipped pieces : List Piece) :
    Part.weights (signature kind found start skipped pieces).1 +
        Piece.weights (signature kind found start skipped pieces).2 ≤
      Mark.weights found + (Piece.weights skipped + Piece.weights pieces - 1) := by
  unfold signature
  split
  · cases skipped with
    | nil => simp
    | cons p skipped =>
      have hp := p.weight_pos
      simp
      omega
  rename_i p rest
  have hp := p.weight_pos
  split
  · simp [callable_shrinks, searched]
    omega
  split
  · rename_i typeStart typeStop name afterName htype
    have hsplit := Piece.weights_upTo (type?_suffix htype)
    have hname := name.weight_pos
    have hcontents := name.weights_contents
    have hfield := fun before => field_shrinks kind start before name afterName
    simp only [Piece.weights_cons] at hsplit ⊢
    split
    · simp only [Mark.weights_loose, Piece.weights_append]
      omega
    split
    · simp [callable_shrinks, searched]
      omega
    · refine Nat.le_trans (hfield _) ?_
      simp [searched]
      omega
  · have hcontents := p.weights_contents
    simp
    omega

/-- A member that is no declaration of a type, after its marks. -/
def member (kind : BodyKind) (found : List Mark) (start : Nat) (pieces : List Piece) : List (Part Mode) × List Piece :=
  match pieces with
  | [] => (Mark.loose .declarations found [], [])
  | p :: rest =>
    match p.inner? "\x7b" with
    | some inner =>
      ([.node ⟨"block", start, p.stop, true, none, []⟩ (Mark.listed .declarations found ++ [searched inner])], rest)
    | none =>
      let marked := marks.take (typeParameters pieces).2
      signature kind found start (upTo marked.2 pieces) marked.2

theorem member_shrinks (kind : BodyKind) (found : List Mark) (start : Nat) (pieces : List Piece) :
    Part.weights (member kind found start pieces).1 + Piece.weights (member kind found start pieces).2 ≤
      Mark.weights found + (Piece.weights pieces - 1) := by
  unfold member
  split
  · simp
  rename_i p rest
  split
  · rename_i inner hinner
    have hinner := Piece.weights_inner hinner
    simp [searched]
    omega
  · have hsuffix := (marks.take_suffix (typeParameters (p :: rest)).2).trans (typeParameterList_suffix ..)
    have hsplit := Piece.weights_upTo hsuffix
    have hsignature := signature_shrinks kind found start
      (upTo (marks.take (typeParameters (p :: rest)).2).2 (p :: rest)) (marks.take (typeParameters (p :: rest)).2).2
    rwa [hsplit] at hsignature

/-! ### Steps -/

/-- What opens the members of a body, or what is left of them. -/
def memberStep (kind : BodyKind) (p : Piece) (rest : List Piece) : List (Part Mode) × List Piece :=
  if p.isSymbol ";" then ([], rest)
  else match declaration? (p :: rest) with
    | some (part, more) => ([part], more)
    | none =>
      let marked := marks.take (p :: rest)
      member kind marked.1 (Mark.startOf marked.1 p.start) marked.2

/-- The constant that opens the pieces of an enum, or all that follows the constants. -/
def constantStep (p : Piece) (rest : List Piece) : List (Part Mode) × List Piece :=
  if p.isSymbol "," then ([], rest)
  else if p.isSymbol ";" then
    ([.node ⟨"enum_body_declarations", p.start, endOf p.stop rest, true, none, []⟩
      [.unread (.members .classBody) rest]], [])
  else
    let marked := marks.take (p :: rest)
    match marked.2 with
    | [] => (Mark.loose .declarations marked.1 [], [])
    | name :: more =>
      let isDetail (q : Piece) := q.isGroup "(" || q.isGroup "\x7b"
      let details := more.takeWhile isDetail
      let node : Node :=
        ⟨"enum_constant", Mark.startOf marked.1 name.start, endOf name.stop details, true, none, []⟩
      ([.node node (Mark.listed .declarations marked.1 ++
        [.whole (name.leaf "identifier" true (some "name")), searched details])], more.dropWhile isDetail)

def step : Mode → Piece → List Piece → List (Part Mode) × List Piece
  | .declarations => searchStep .declarations declaration?
  | .members kind => memberStep kind
  | .constants => constantStep

/-! ### Progress -/

theorem memberStep_shrinks (kind : BodyKind) (p : Piece) (rest : List Piece) :
    Part.weights (memberStep kind p rest).1 + Piece.weights (memberStep kind p rest).2 < Piece.weights (p :: rest) := by
  have hp := p.weight_pos
  unfold memberStep
  split
  · simp
    omega
  split
  · rename_i part more hread
    simpa using declaration?_shrinks hread
  · exact Nat.lt_of_le_of_lt (member_shrinks ..) (marks.weight_take_sub_one_lt (List.cons_ne_nil p rest))

theorem constantStep_shrinks (p : Piece) (rest : List Piece) :
    Part.weights (constantStep p rest).1 + Piece.weights (constantStep p rest).2 < Piece.weights (p :: rest) := by
  have hp := p.weight_pos
  unfold constantStep
  split
  · simp
    omega
  split
  · simp
    omega
  dsimp only
  have hmarks := marks.weight_take (p :: rest)
  split
  · rename_i htake
    have hlt := marks.weight_take_sub_one_lt (List.cons_ne_nil p rest)
    rw [htake] at hlt
    simpa using hlt
  · rename_i name more htake
    have hname := name.weight_pos
    have hdetails := Piece.weights_takeWhile_add (fun q => q.isGroup "(" || q.isGroup "\x7b") more
    rw [htake, Piece.weights_cons] at hmarks
    simp [searched] at hmarks hdetails ⊢
    omega

theorem step_shrinks (mode : Mode) (p : Piece) (rest : List Piece) :
    Part.weights (step mode p rest).1 + Piece.weights (step mode p rest).2 < Piece.weights (p :: rest) := by
  cases mode with
  | declarations => exact searchStep_shrinks declaration?_shrinks _
  | members kind => exact memberStep_shrinks kind p rest
  | constants => exact constantStep_shrinks p rest

def grammar : Grammar Mode := ⟨step, step_shrinks⟩

/-- The tree of a source. -/
def read : List Char → SourceTree := grammar.tree lexer "program" .declarations

end Recordsmith.Source.JavaSource
