import Recordsmith.Console.Literal
import Recordsmith.Console.Wrap

/-!
Markup in printed texts. A tag in square brackets sets a style and a tag with a slash ends it; on a terminal without
styles both vanish. A backslash in front of a tag keeps it as text. A tag that opens with an at sign names a handler, whose
parameters are read when the tag is ended.
-/

namespace Recordsmith.Console

/-- A closing tag that ends nothing, or the parameters of a handler that are no literal. -/
structure MarkupError where
  tag : String
  deriving DecidableEq, Repr

/-- The characters that open a tag after its bracket. -/
def opensTag (c : Char) : Bool := ('a' ≤ c && c ≤ 'z') || c == '#' || c == '/' || c == '@'

/-- The tag whose opening bracket has been read, and what follows its closing one. -/
def tag? : List Char → Option (List Char × List Char)
  | [] => none
  | c :: rest =>
    if opensTag c then
      let body := rest.takeWhile fun d => d != '[' && d != ']'
      match rest.drop body.length with
      | ']' :: more => some (c :: body, more)
      | _ => none
    else none

theorem length_of_tag? {text body more : List Char} (h : tag? text = some (body, more)) : more.length < text.length := by
  cases text with
  | nil => cases h
  | cons c rest =>
    simp only [tag?] at h
    split at h
    · split at h
      · rename_i after hdrop
        obtain ⟨-, rfl⟩ := Prod.mk.inj (Option.some.inj h)
        have hlength := congrArg List.length hdrop
        rw [List.length_drop, List.length_cons] at hlength
        rw [List.length_cons]
        omega
      · cases h
    · cases h

/-- The tag at the start of a text behind a run of backslashes: how many there are, the tag, and what follows. -/
def escapedTag? (text : List Char) : Option (Nat × List Char × List Char) :=
  let slashes := (text.takeWhile (· == '\\')).length
  match text.drop slashes with
  | '[' :: rest => (tag? rest).map fun (body, more) => (slashes, body, more)
  | _ => none

theorem length_of_escapedTag? {slashes : Nat} {text body more : List Char}
    (h : escapedTag? text = some (slashes, body, more)) : more.length < text.length := by
  simp only [escapedTag?] at h
  split at h
  · rename_i rest hdrop
    obtain ⟨⟨body', more'⟩, htag, heq⟩ := Option.map_eq_some_iff.mp h
    obtain ⟨-, -, rfl⟩ : _ ∧ body' = body ∧ more' = more := by simpa using heq
    have hlength := congrArg List.length hdrop
    rw [List.length_drop, List.length_cons] at hlength
    have := length_of_tag? htag
    omega
  · cases h

inductive Segment
  | char (c : Char)
  | tag (body : List Char)
  deriving DecidableEq, Repr

/-- The first character of a text that opens with no tag, and what follows it. A backslash before a bracket is dropped. -/
def untagged (c : Char) (rest : List Char) : Char × List Char :=
  match c, rest with
  | '\\', '[' :: more => ('[', more)
  | _, _ => (c, rest)

theorem length_untagged_le (c : Char) (rest : List Char) : (untagged c rest).2.length ≤ rest.length := by
  unfold untagged
  split
  · exact Nat.le_succ _
  · exact Nat.le_refl _

/-- The characters and tags of a text. Each pair of backslashes before a tag is one backslash, and one more makes the
    tag a text. -/
def segments : List Char → List Segment
  | [] => []
  | c :: rest =>
    match _h : escapedTag? (c :: rest) with
    | some (slashes, body, more) =>
      let kept := List.replicate (slashes / 2) (Segment.char '\\')
      let own := if slashes % 2 = 1 then ('[' :: body ++ [']']).map Segment.char else [Segment.tag body]
      kept ++ own ++ segments more
    | none => .char (untagged c rest).1 :: segments (untagged c rest).2
termination_by text => text.length
decreasing_by
  · exact length_of_escapedTag? _h
  · exact Nat.lt_succ_of_le (length_untagged_le c rest)

/-! ### Styles -/

/-- Short and long names of text attributes, in the order in which a style lists them. -/
def attributeNames : List (String × String) := [
  ("bold", "b"), ("dim", "d"), ("italic", "i"), ("underline", "u"), ("blink", "blink"), ("blink2", "blink2"),
  ("reverse", "r"), ("conceal", "c"), ("strike", "s"), ("underline2", "uu"), ("frame", "frame"),
  ("encircle", "encircle"), ("overline", "o")]

def colorNames : List String := [
  "black", "red", "green", "yellow", "blue", "magenta", "cyan", "white", "default", "bright_black", "bright_red",
  "bright_green", "bright_yellow", "bright_blue", "bright_magenta", "bright_cyan", "bright_white"]

/-- The long name of an attribute. -/
def attributeName? (word : String) : Option String :=
  (attributeNames.find? fun names => names.1 == word || names.2 == word).map (·.1)

/-- One name for all ways to write a style. What is no style stands for itself, in lower case. -/
def styleName (text : List Char) : String :=
  let words := (Text.words text).map fun word => (String.ofList word).toLower
  if !words.isEmpty && words.all fun word => (attributeName? word).isSome || colorNames.contains word then
    let found := words.filterMap attributeName?
    let attributes := (attributeNames.map (·.1)).filter found.contains
    let color := (words.filter colorNames.contains).getLast?
    Text.join " " (attributes ++ color.toList)
  else (String.ofList (Text.trim text)).toLower

/-- The name of a tag, without its parameters. -/
def tagName (body : List Char) : List Char := body.takeWhile (· != '=')

/-- The parameters of a tag, after an equals sign. -/
def tagParameters (body : List Char) : List Char := body.drop ((tagName body).length + 1)

/-- A style that is set: its name, and the parameters of its tag. -/
structure Style where
  name : String
  parameters : List Char := []
  deriving DecidableEq, Repr

def Style.ofTag (body : List Char) : Style := ⟨styleName (tagName body), tagParameters body⟩

/-- Whether a text is the name of a function, with anything between brackets behind it or not. -/
def isCall (text : List Char) : Bool :=
  match text.dropWhile fun c => Text.extendsIdentifier c || c == '.' with
  | [] => true
  | '(' :: arguments => arguments.getLast? == some ')' && !arguments.contains '\n'
  | _ => false

/-- The text between the brackets of a call, with them; for a name alone a pair of brackets. -/
def bracketsOf (text : List Char) : List Char :=
  match text.dropWhile (· != '(') with
  | [] => ['(', ')']
  | arguments => arguments

/-- Whether a style can be ended: the parameters of a handler, if it has any, are a call or a literal. -/
def Style.isReadable (s : Style) : Bool :=
  let text := Text.trim s.parameters
  s.name.toList.head? != some '@' || s.parameters == [] ||
    isLiteral (if isCall text then bracketsOf text else text)

/-- Ends the innermost style that `p` holds of. -/
def endStyle (p : Style → Bool) (styles : List Style) : Option (List Style) :=
  (styles.find? p).bind fun s => if s.isReadable then some (styles.eraseP p) else none

/-- The text that segments print, given the styles that are set, innermost first. -/
def printed : List Style → List Segment → Except MarkupError (List Char)
  | _, [] => .ok []
  | styles, .char c :: rest => do return c :: (← printed styles rest)
  | styles, .tag body :: rest =>
    match tagName body with
    | '/' :: name =>
      let closed := styleName name
      match endStyle (fun s => closed == "" || s.name == closed) styles with
      | some outer => printed outer rest
      | none => .error ⟨String.ofList body⟩
    | _ => printed (.ofTag body :: styles) rest

/-- The text that a marked-up text prints. -/
def render (markup : List Char) : Except MarkupError (List Char) :=
  if markup.contains '[' then
    (printed [] (segments markup)).map withoutControls
  else .ok (withoutControls markup)

/-- A text as markup that prints it, with its tags escaped. -/
def escapeTags : List Char → List Char
  | [] => []
  | c :: rest =>
    match _h : escapedTag? (c :: rest) with
    | some (slashes, body, more) =>
      List.replicate (2 * slashes + 1) '\\' ++ '[' :: body ++ ']' :: escapeTags more
    | none => c :: escapeTags rest
termination_by text => text.length
decreasing_by
  · exact length_of_escapedTag? _h
  · simp only [List.length_cons]; omega

/-- A text as markup that prints it. A single backslash at the end is doubled, so that it escapes nothing after it. -/
def escape (text : List Char) : List Char :=
  let escaped := escapeTags text
  match escaped.reverse with
  | '\\' :: '\\' :: _ => escaped
  | '\\' :: _ => escaped ++ ['\\']
  | _ => escaped

end Recordsmith.Console
