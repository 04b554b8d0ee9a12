import SdkGlue.Markup
import SdkGlue.Table.Columns
import SdkGlue.Text.Wrap

/-!
# Tables

A table has a title and columns, each with a header and cells.  Titles,
headers and cells are marked up.  The table is as wide as its columns, within
the width of the screen.
-/

namespace SdkGlue

/-- A column: its header and the cells below it. -/
structure Table.Column where
  header : String
  cells : List String
  deriving DecidableEq, Repr

/-- A table to print. -/
structure Table where
  title : String
  columns : List Table.Column
  deriving DecidableEq, Repr

namespace Table

/-- The number of cells in a line of the screen. -/
def screenWidth : Nat := 80

/-- The spaces beside the content of a cell, both sides together. -/
def padding : Nat := 2

/-- The width that a column would like to have. -/
def naturalWidth (contents : List (List Char)) : Nat :=
  largest (contents.map Text.widest) + padding

def room (columns : Nat) : Nat := screenWidth - (columns + 1)

/-- The widths of columns with the given contents. -/
def columnWidths (columns : List (List (List Char))) : List Nat :=
  let natural := columns.map fun c => min (room columns.length) (naturalWidth c)
  if total natural ≤ room columns.length then natural
  else (columns.zip (shrink (room columns.length) natural)).map fun c => min c.2 (naturalWidth c.1)

/-- A line of a cell, cut or padded to a width. -/
def cellLine (width : Nat) (s : List Char) : List Char :=
  let s := Text.trimExcess width s
  if Text.width s ≤ width then Text.padTo width s else Text.fitTo (width - 1) s ++ ['…']

/-- A line of a cell has the width of its place. -/
theorem width_cellLine {width : Nat} (h : 0 < width) (s : List Char) :
    Text.width (cellLine width s) = width := by
  have hmark : Text.charWidth '…' = 1 := by decide +kernel
  unfold cellLine
  simp only
  split
  · next hs => exact Text.width_padTo hs
  · simp only [Text.width_append, Text.width_fitTo, Text.width_cons, Text.width_nil, hmark]
    omega

/-- The lines of a cell, within a column of the given width. -/
def cellLines (width : Nat) (content : List Char) : List (List Char) :=
  let inner := width - padding
  ((Text.screenLines content).flatMap (Text.wrap inner false)).map fun s =>
    [' '] ++ cellLine inner s ++ [' ']

def titleLine (width : Nat) (s : List Char) : List Char :=
  let s := Text.trimEnd s
  let s := if Text.width s ≤ width then s else Text.fitTo width s
  Text.padTo width (List.replicate ((width - Text.width s) / 2) ' ' ++ s)

def titleLines (width : Nat) (title : List Char) : List (List Char) :=
  ((Text.screenLines title).flatMap (Text.wrap width true)).map (titleLine width)

/-- The characters of a line: at the left, between columns, and at the right. -/
structure Border where
  left : Char
  divider : Char
  right : Char
  deriving DecidableEq, Repr

/-- A line of pieces, one a column, inside a border. -/
def bordered (b : Border) (pieces : List (List Char)) : List Char :=
  [b.left] ++ [b.divider].intercalate pieces ++ [b.right]

def rule (b : Border) (fill : Char) (widths : List Nat) : List Char :=
  bordered b (widths.map (List.replicate · fill))

/-- The lines of a row: as many as its tallest cell has. -/
def rowLines (b : Border) (widths : List Nat) (cells : List (List Char)) : List (List Char) :=
  let columns := (widths.zip cells).map fun c => (c.1, cellLines c.1 c.2)
  (List.range (largest (columns.map (·.2.length)))).map fun i =>
    bordered b (columns.map fun c => c.2.getD i (List.replicate c.1 ' '))

/-- The contents of a row, the header being row zero. -/
def rowAt (columns : List (List (List Char))) (i : Nat) : List (List Char) :=
  columns.map (·.getD i [])

def layOut (title : List Char) (columns : List (List (List Char))) : List (List Char) :=
  let widths := columnWidths columns
  let height := largest (columns.map List.length)
  titleLines (total widths + columns.length + 1) title ++
    [rule ⟨'┏', '┳', '┓'⟩ '━' widths] ++
    rowLines ⟨'┃', '┃', '┃'⟩ widths (rowAt columns 0) ++
    [rule ⟨'┡', '╇', '┩'⟩ '━' widths] ++
    (List.range (height - 1)).flatMap (fun i =>
      rowLines ⟨'│', '│', '│'⟩ widths (rowAt columns (i + 1))) ++
    [rule ⟨'└', '┴', '┘'⟩ '─' widths]

def ofLines (lines : List (List Char)) : String := String.ofList (lines.flatMap (· ++ ['\n']))

/-- The text of a table, or the first fault of its markup, the cells by
columns before the title. -/
def render (t : Table) (d : Markup.Dialect := .small) : Except Markup.Fault String := do
  let columns ← t.columns.mapM fun c => (c.header :: c.cells).mapM (Markup.plain d)
  let title ← Markup.plain d t.title
  return ofLines (layOut title columns)

/-- The text of lines that are marked up and not wrapped. -/
def renderLine (d : Markup.Dialect) (s : String) : Except Markup.Fault String := do
  return ofLines (Text.screenLines (← Markup.plain d s))

end Table

end SdkGlue
