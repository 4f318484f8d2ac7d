import PostfixSheet.Decimal.Layout

/-!
How a sheet shows a number: whole numbers below 10¹⁶ by their digits alone, all others by the
shortest decimal that reads back.
-/

namespace PostfixSheet.Number

open Binary64

/-- The layout of the numbers that are not whole or too large to be shown as whole. -/
def layout : Decimal.Layout := ⟨[], "inf".toList, "nan".toList⟩

def isPlainWhole (bits : Nat) : Bool :=
  units bits % unitsPerOne == 0 && units bits < Nat.pow 10 16 * unitsPerOne

/-- The text of a number in a sheet. Zero keeps its sign. -/
def text (x : Float) : Text :=
  let bits := magnitude x
  if isPlainWhole bits then
    (if negative x then ['-'] else []) ++ Text.ofNat (units bits / unitsPerOne)
  else layout.text x

end PostfixSheet.Number
