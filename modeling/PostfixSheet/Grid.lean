import PostfixSheet.Address
import PostfixSheet.Text.Fields
import PostfixSheet.Text.Lines
import PostfixSheet.Text.Quoted
import PostfixSheet.Text.Sign

/-!
Grids of cells. Rows may differ in length; a cell is any text. A grid remembers the separator that
it was read with and is written with.
-/

namespace PostfixSheet

structure Grid where
  rows : List (List Text)
  separator : Separator
deriving DecidableEq

namespace Grid

/-- Why a grid could not be made: its separator is empty. -/
inductive Error
  | emptySeparator
deriving DecidableEq, Repr

def Error.message : Error → Text
  | .emptySeparator => "Separator must be a non-empty string".toList

def ofRows (rows : List (List Text)) (separator : Text) : Except Error Grid :=
  match Separator.ofText? separator with
  | some separator => .ok ⟨rows, separator⟩
  | none => .error .emptySeparator

/-- The lines of a text after its line ends are made one kind and its ends are stripped. -/
def sourceLines (text : Text) : List Text := Text.lines (Text.strip (Text.unifyLineEnds text))

def ofText (text : Text) (separator : Text) : Except Error Grid :=
  match Separator.ofText? separator with
  | some separator => .ok ⟨(sourceLines text).map (Text.fields separator), separator⟩
  | none => .error .emptySeparator

/-- Reads a grid with a separator that need not be a text. One that is none stands in no line, so
each line is a cell, and no two cells are in one row. -/
def ofSource (text : Text) (separator : Signs) : Except Error Grid :=
  match separator.text? with
  | some separator => ofText text separator
  | none => .ok ⟨(sourceLines text).map ([·]), Separator.comma⟩

def get? (grid : Grid) (a : Address) : Option Text := do
  let cells ← grid.rows[a.row]?
  cells[a.column]?

/-- The grid with another text in one cell; nothing if the row or the column of the cell lies
outside. -/
def set? (grid : Grid) (a : Address) (value : Text) : Option Grid :=
  if grid.rows.length ≤ a.row ∨ ((grid.rows[a.row]?).getD []).length ≤ a.column then none
  else some { grid with rows := grid.rows.modify a.row (·.set a.column value) }

def addresses (grid : Grid) : List Address :=
  grid.rows.zipIdx.flatMap fun (cells, row) =>
    (List.range cells.length).map fun column => ⟨column, row⟩

def width (grid : Grid) : Nat := grid.rows.foldl (fun longest cells => max longest cells.length) 0

def height (grid : Grid) : Nat := grid.rows.length

/-- Writes a grid: the cells of a row with the separator between them, a line for each row. -/
def render (grid : Grid) : Text :=
  Text.joinLines (grid.rows.map (Text.joinFields grid.separator))

/-- A grid by its columns, each under the letters that name it. Where a row is too short for a
column, the column has a hole. -/
structure Frame where
  columns : List (Text × List (Option Text))
deriving DecidableEq

/-- The number of rows of a frame. Without columns there is nothing to count. -/
def Frame.height (frame : Frame) : Nat :=
  match frame.columns with
  | [] => 0
  | (_, entries) :: _ => entries.length

def frame (grid : Grid) : Frame :=
  ⟨(List.range grid.width).map fun column =>
    (Column.letters column, grid.rows.map (·[column]?))⟩

def describe (grid : Grid) : Text :=
  "Grid(rows=".toList ++ Text.ofNat grid.height ++ ", cols=".toList ++ Text.ofNat grid.width
    ++ ", separator=".toList ++ Text.quoted grid.separator.text ++ [')']

end Grid
end PostfixSheet
