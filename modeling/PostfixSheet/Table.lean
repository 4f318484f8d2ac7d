import PostfixSheet.Grid
import PostfixSheet.Table.Width

/-!
Tables: the columns of a grid as a box of lines. A table is never wider than a line of the console
is long, and shows no more than the first and the last of many columns and rows; of a long text it
shows the beginning. Every character takes one place of a line.
-/

namespace PostfixSheet.Table

def nameMark : Text := "---".toList

def kindMark : Text := "str".toList

def hole : Text := "null".toList

def gapMark : Text := ['…']

def textLimit : Nat := 30

def columnLimit : Nat := 8

def rowLimit : Nat := 10

def lineWidth : Nat := 100

/-- The beginning of a text, followed by a mark if that is not all of it. -/
def shortened (text : Text) : Text :=
  if text.length ≤ textLimit then text else text.take textLimit ++ gapMark

/-- The first and the last of some things, with a mark for those between them if they are more than
a limit. -/
def excerpt (limit : Nat) (mark : α) (things : List α) : List α :=
  if things.length ≤ limit then things
  else things.take ((limit + 1) / 2) ++ mark :: things.drop (things.length - limit / 2)

def entryLines (entry : Option Text) : List Text :=
  Text.splitWhere (· == '\n') (shortened (entry.getD hole))

def columnOf (name : Text) (entries : List (Option Text)) : Column :=
  ⟨[shortened name, nameMark, kindMark], excerpt rowLimit [gapMark] (entries.map entryLines)⟩

def gapColumn (rows : Nat) : Column :=
  ⟨[gapMark], List.replicate (min rows (rowLimit + 1)) [gapMark]⟩

def columnsOf (frame : Grid.Frame) : List Column :=
  excerpt columnLimit (gapColumn frame.height)
    (frame.columns.map fun (name, entries) => columnOf name entries)

def pad (width : Nat) (line : Text) : Text :=
  ' ' :: line ++ List.replicate (width + 1 - line.length) ' '

def across (first between last : Char) (parts : List Text) : Text :=
  first :: [between].intercalate parts ++ [last]

def rule (first mark between last : Char) (widths : List Nat) : Text :=
  across first between last (widths.map fun width => List.replicate (width + 2) mark)

/-- The lines of texts side by side, each by its lines and the width of its column. They take as
many lines as the longest of them. -/
def row (cells : List (List Text × Nat)) : List Text :=
  let cells := cells.map fun (lines, width) => (lines.flatMap (fitted width), width)
  let height := (cells.map (·.1.length)).foldl max 0
  (List.range height).map fun index =>
    across '│' '┆' '│' (cells.map fun (lines, width) => pad width ((lines[index]?).getD []))

/-- The space that so many columns have between them for their texts: without the lines around each
and a blank on either side. -/
def spaceFor (count : Nat) : Nat := lineWidth - (count + 1) - 2 * count

def linesOf (columns : List Column) (height : Nat) : List Text :=
  let columns := arrange (spaceFor columns.length) columns
  let widths := columns.map (·.2)
  [rule '┌' '─' '┬' '┐' widths]
    ++ row (columns.map fun (column, width) => (column.heading, width))
    ++ [rule '╞' '═' '╪' '╡' widths]
    ++ (List.range height).flatMap (fun index => row (columns.map fun (column, width) =>
        ((column.entries[index]?).getD [], width)))
    ++ [rule '└' '─' '┴' '┘' widths]

def grouped (n : Nat) : Text :=
  if n < 1000 then Text.ofNat n
  else grouped (n / 1000) ++ '_' :: (Text.ofNat (1000 + n % 1000)).drop 1
termination_by n
decreasing_by omega

def shape (frame : Grid.Frame) : Text :=
  "shape: (".toList ++ grouped frame.height ++ ", ".toList ++ grouped frame.columns.length ++ [')']

def ofFrame (frame : Grid.Frame) : Text :=
  Text.joinLines (shape frame :: linesOf (columnsOf frame) (min frame.height (rowLimit + 1)))

end PostfixSheet.Table
