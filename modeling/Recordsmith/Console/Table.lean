import Recordsmith.Console.Wrap

/-! Tables with a heavy line under their heading. -/

namespace Recordsmith.Console

structure Column where
  header : List Char
  justify : Justify
  deriving DecidableEq, Repr

/-- A table with a title above it. The cells of a row stand in the order of the columns. -/
structure Table where
  title : List Char
  columns : List Column
  rows : List (List (List Char))
  deriving DecidableEq, Repr

/-- Characters that divide the lines of a cell when its width is measured. -/
def dividesLines (c : Char) : Bool := [10, 11, 12, 13, 28, 29, 30, 0x85, 0x2028, 0x2029].contains c.toNat

/-- The columns that the widest line of a cell takes. -/
def cellWidth (cell : List Char) : Nat := ((Text.splitAt dividesLines cell).map Text.textWidth).foldl max 0

namespace Table

/-- The inner width of each column. -/
def widths (t : Table) : List Nat :=
  t.columns.mapIdx fun i column =>
    (t.rows.map fun row => cellWidth (row[i]?.getD [])).foldl max (cellWidth column.header)

/-- The width of the whole table: each column has a space on both sides and a line on its left, and the last one also
    on its right. -/
def width (t : Table) : Nat := total (t.widths.map (· + 3)) + 1

/-- A horizontal line with its corners and crossings. -/
def rule (widths : List Nat) (left fill cross right : Char) : List Char :=
  left :: Text.joinWith [cross] (widths.map fun w => List.replicate (w + 2) fill) ++ [right]

/-- A line of cells between vertical lines. -/
def cellLine (edge divider : Char) (parts : List (List Char)) : List Char :=
  edge :: Text.joinWith [divider] (parts.map fun part => ' ' :: part ++ [' ']) ++ [edge]

/-- The lines of a row. Cells with fewer lines than others are filled up below. -/
def rowLines (edge divider : Char) (columns : List Column) (widths : List Nat) (cells : List (List Char)) :
    List (List Char) :=
  let parts := (columns.zip widths).mapIdx fun i (column, width) =>
    (width, wrap column.justify false width (cells[i]?.getD []))
  let height := (parts.map (·.2.length)).foldl max 1
  (List.range height).map fun n =>
    cellLine edge divider (parts.map fun (width, lines) => padRight width (lines[n]?.getD []))

/-- The lines of a table. -/
def lines (t : Table) : List (List Char) :=
  let widths := t.widths
  let title := wrap .center true t.width t.title
  title ++
    [rule widths '┏' '━' '┳' '┓'] ++ rowLines '┃' '┃' t.columns widths (t.columns.map (·.header)) ++
    [rule widths '┡' '━' '╇' '┩'] ++ t.rows.flatMap (rowLines '│' '│' t.columns widths) ++
    [rule widths '└' '─' '┴' '┘']

end Table

/-- Text in a box with rounded corners and a title in its upper edge. -/
structure Panel where
  title : List Char
  text : List Char
  deriving DecidableEq, Repr

/-- The lines of a panel of a given width. -/
def Panel.lines (p : Panel) (width : Nat) : List (List Char) :=
  let title := ' ' :: p.title ++ [' ']
  let spare := width - 4 - Text.textWidth title
  let top := List.replicate (spare / 2 + 1) '─' ++ title ++ List.replicate (spare - spare / 2 + 1) '─'
  [('╭' :: top) ++ ['╮']] ++ (wrap .left true (width - 4) p.text).map (Table.cellLine '│' '│' [·]) ++
    [('╰' :: List.replicate (width - 2) '─') ++ ['╯']]

end Recordsmith.Console
