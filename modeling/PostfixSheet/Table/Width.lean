import PostfixSheet.Table.Line

/-!
The widths of columns that have to share a limited space. A column that needs no more than an equal
share is as wide as its widest line. Of the others, one that stays clearly below its share when its
lines are broken is as wide as the pieces. What is left is shared equally, and the columns to the
left are wider by one where it does not come out even.
-/

namespace PostfixSheet.Table

structure Column where
  heading : List Text
  entries : List (List Text)

def widest (lines : List Text) : Nat := (lines.map List.length).foldl max 0

namespace Column

def lines (column : Column) : List Text := (column.heading :: column.entries).flatten

def width (column : Column) : Nat := widest column.lines

/-- The width that the pieces need when lines are broken at a width. -/
def brokenWidth (column : Column) (width : Nat) : Nat :=
  widest (column.lines.flatMap (fitted width))

end Column

structure Placed where
  column : Column
  width? : Option Nat

def remaining (space : Nat) (columns : List Placed) : Nat × Nat :=
  (columns.foldl (fun space placed => space - placed.width?.getD 0) space,
    (columns.filter (·.width?.isNone)).length)

def share? (space : Nat) (columns : List Placed) : Option Nat :=
  match remaining space columns with
  | (_, 0) => none
  | (left, count + 1) => some (left / (count + 1))

def settleFirst (rule : Column → Option Nat) : List Placed → List Placed
  | [] => []
  | ⟨column, some width⟩ :: columns => ⟨column, some width⟩ :: settleFirst rule columns
  | ⟨column, none⟩ :: columns => match rule column with
      | some width => ⟨column, some width⟩ :: columns
      | none => ⟨column, none⟩ :: settleFirst rule columns

/-- Settles one column after the other by a rule that depends on the share. Every step settles one
column or none, so `steps` has to be the number of columns. -/
def settle (space : Nat) (rule : (share : Nat) → Column → Option Nat) :
    (steps : Nat) → List Placed → List Placed
  | 0, columns => columns
  | steps + 1, columns => match share? space columns with
      | some share => settle space rule steps (settleFirst (rule share) columns)
      | none => columns

def wholeRule (share : Nat) (column : Column) : Option Nat :=
  if column.width ≤ share then some column.width else none

def leastGain : Nat := 3

/-- A column that stays clearly below its share with broken lines is as wide as the pieces. -/
def brokenRule (share : Nat) (column : Column) : Option Nat :=
  let width := column.brokenWidth share
  if width + leastGain ≤ share then some width else none

/-- The columns with their widths, where those that are not settled yet have the same width and the
first `excess` of them one more. -/
def equalize (share : Nat) : (excess : Nat) → List Placed → List (Column × Nat)
  | _, [] => []
  | excess, ⟨column, some width⟩ :: columns => (column, width) :: equalize share excess columns
  | 0, ⟨column, none⟩ :: columns => (column, share) :: equalize share 0 columns
  | excess + 1, ⟨column, none⟩ :: columns => (column, share + 1) :: equalize share excess columns

def arrange (space : Nat) (columns : List Column) : List (Column × Nat) :=
  let placed := columns.map fun column => ⟨column, none⟩
  let placed := settle space wholeRule columns.length placed
  let placed := settle space brokenRule columns.length placed
  let (left, count) := remaining space placed
  equalize (left / count) (left % count) placed

end PostfixSheet.Table
