import PostfixSheet.Column

/-!
Cell addresses and the labels that name them. An address counts columns and rows from zero; a label
is the letters of the column followed by the number of the row counted from one.
-/

namespace PostfixSheet

structure Address where
  column : Nat
  row : Nat
deriving DecidableEq, Repr, Hashable

namespace Address

/-- Row by row, and from left to right in a row. -/
def before (a b : Address) : Bool := a.row < b.row || (a.row == b.row && a.column < b.column)

instance : LT Address := ⟨fun a b => a.before b = true⟩

instance : LE Address := ⟨fun a b => a.before b = true ∨ a = b⟩

instance (a b : Address) : Decidable (a < b) := inferInstanceAs (Decidable (a.before b = true))

instance (a b : Address) : Decidable (a ≤ b) :=
  inferInstanceAs (Decidable (a.before b = true ∨ a = b))

def sort (addresses : List Address) : List Address :=
  addresses.mergeSort fun a b => decide (a ≤ b)

/-- The label of an address, in upper case and without leading zeros. -/
def label (a : Address) : Text := Column.letters a.column ++ Text.ofNat (a.row + 1)

/-- Why an address goes by no label: the number of its row has too many digits. -/
structure RowTooLong where
  digits : Nat
deriving DecidableEq, Repr

/-- An address that is to be spoken of by its label. It is refused if the number of its row, counted
from one, has more digits than an integer may have in text. -/
def labelled (a : Address) : Except RowTooLong Address :=
  let digits := (Text.ofNat (a.row + 1)).length
  if Text.integerLimit < digits then .error ⟨digits⟩ else .ok a

/-- The letters and the rest of a text, if the text is letters followed by digits with at least one
of each. Only ASCII counts. -/
def labelParts? (text : Text) : Option (Text × Text) :=
  let letters := text.takeWhile Char.isAlpha
  let digits := text.dropWhile Char.isAlpha
  if !letters.isEmpty && !digits.isEmpty && digits.all Char.isDigit then some (letters, digits)
  else none

/-- Whether a text has the shape of a label. Not every such text names a cell. -/
def hasLabelShape (text : Text) : Bool := (labelParts? text).isSome

/-- The address that a label names. The label is put in upper case first; there is no row zero, and
a row number with more digits than can be turned into an integer names nothing. -/
def ofLabel? (label : Text) : Option Address :=
  match labelParts? (Text.upper label) with
  | none => none
  | some (letters, digits) =>
      if Text.integerLimit < digits.length then none
      else match Text.decimal digits with
        | 0 => none
        | row + 1 => some ⟨(Column.ofLetters letters).toNat, row⟩

inductive Axis
  | column
  | row
deriving DecidableEq, Repr

/-- What can be wrong with a number that is to be part of an address. -/
inductive AxisFault
  | missing
  | negative
deriving DecidableEq, Repr

def axisFault? : Option Int → Option AxisFault
  | none => some .missing
  | some n => if n < 0 then some .negative else none

/-- An address from two integers, or all that is wrong with them, the column first. -/
def ofInts (column row : Option Int) : Except (List (Axis × AxisFault)) Address :=
  let faults := ((axisFault? column).map (Axis.column, ·)).toList
    ++ ((axisFault? row).map (Axis.row, ·)).toList
  if faults.isEmpty then .ok ⟨(column.getD 0).toNat, (row.getD 0).toNat⟩ else .error faults

def describe (a : Address) : Text :=
  "Coord(".toList ++ a.label ++ ": column=".toList ++ Text.ofNat a.column ++ ", row=".toList
    ++ Text.ofNat a.row ++ [')']

end Address
end PostfixSheet
