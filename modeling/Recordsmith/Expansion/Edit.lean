import Recordsmith.Record.Declaration
import Recordsmith.Text.Lines
import Recordsmith.Text.Slice

/-! Edits of a text, and the edit that adds members to a declaration's body. -/

namespace Recordsmith

/-- Replaces what stands from `start` up to `stop`. -/
structure Edit where
  start : Int
  stop : Int
  replacement : List Char
  deriving DecidableEq, Repr, Inhabited

namespace Edit

def apply (text : List Char) (e : Edit) : List Char :=
  Text.upTo text e.start ++ e.replacement ++ Text.startingAt text e.stop

/-- Later edits are applied first, so that none moves the text that another one speaks of. -/
def applyAll (text : List Char) (edits : List Edit) : List Char :=
  (edits.mergeSort fun a b => b.start ≤ a.start).foldl apply text

end Edit

/-- How much deeper a declaration's members are indented than itself; the default where they are not. -/
def Declaration.indentUnit (d : Declaration) : String :=
  match d.span with
  | none => defaultIndent
  | some span =>
    let base := span.baseIndent.toList
    let inner := span.memberIndent.toList
    if base.isPrefixOf inner ∧ base.length < inner.length then String.ofList (inner.drop base.length)
    else defaultIndent

/-- The members as they stand in the body: indented, with an empty line between each two. -/
def Span.block (span : Span) (rendered : List String) : List Char :=
  Text.joinWith ['\n', '\n'] (rendered.map fun text => Text.indentBlock text.toList span.memberIndent.toList)

/-- Puts the members between the end of the body's text and its closing brace, an empty line after what stands there
    already. Line breaks are written as in the source. -/
def Span.insertion (span : Span) (source : List Char) (rendered : List String) : Edit :=
  let head := Text.trimEnd (Text.upTo source span.bodyClose)
  let separator := if head.getLast? = some '\x7b' then ['\n'] else ['\n', '\n']
  let text := separator ++ span.block rendered ++ '\n' :: span.baseIndent.toList ++ ['\x7d']
  { start := head.length
    stop := span.bodyClose + 1
    replacement := Text.withBreaks (Text.lineBreak source) text }

end Recordsmith
