import Recordsmith.Text.Blank

/-!
Paths of files. A path is kept in a normal form: no empty steps and no steps to the same place. Steps to the parent
stay, since what they lead to depends on the file system.
-/

namespace Recordsmith

/-- How a path is anchored. Two slashes in front, not more, are an anchor of their own. -/
inductive Anchor
  | here
  | root
  | doubleRoot
  deriving DecidableEq, Repr, Inhabited

def Anchor.text : Anchor → String
  | .here => ""
  | .root => "/"
  | .doubleRoot => "//"

structure Path where
  anchor : Anchor
  steps : List String
  deriving DecidableEq, Repr, Inhabited

namespace Path

def anchorOf : List Char → Anchor
  | '/' :: '/' :: '/' :: _ => .root
  | '/' :: '/' :: _ => .doubleRoot
  | '/' :: _ => .root
  | _ => .here

def ofText (text : String) : Path where
  anchor := anchorOf text.toList
  steps := ((Text.splitAt (· == '/') text.toList).filter fun step => step ≠ [] ∧ step ≠ ['.']).map String.ofList

/-- The path without any step is written `.` unless it is anchored. -/
def text (p : Path) : String :=
  if p.anchor = .here ∧ p.steps = [] then "." else p.anchor.text ++ Text.join "/" p.steps

/-- The last step. -/
def name (p : Path) : String := p.steps.getLast?.getD ""

/-- The path without its last step. -/
def parent (p : Path) : Path := { p with steps := p.steps.dropLast }

/-- The last point of a name and what follows it, if something follows and something stands before it. -/
def suffixOf (name : List Char) : List Char :=
  let tail := Text.afterLast '.' name
  let stem := name.take (name.length - tail.length - 1)
  if tail = [] ∨ tail.length = name.length ∨ stem = [] then [] else '.' :: tail

def suffix (p : Path) : String := String.ofList (suffixOf p.name.toList)

end Path

end Recordsmith
