import PostfixSheet.Decimal.Shortest

/-!
Where the point goes. Numbers from 10⁻⁴ up to 10¹⁶ are written in full, smaller and larger ones with
a power of ten whose exponent has a sign and two digits or more.
-/

namespace PostfixSheet.Decimal

/-- The texts in which one way of writing numbers differs from another: what follows the digits of a
whole number written in full, and the names of the values that have no digits. -/
structure Layout where
  wholeEnd : Text
  infinity : Text
  notANumber : Text

/-- The digits with the point among them, and zeros where the point lies beyond them. -/
def positional (layout : Layout) (number : Expansion) : Text :=
  let length : Int := number.digits.length
  if number.point ≤ 0 then
    ['0', '.'] ++ List.replicate (-number.point).toNat '0' ++ number.digits
  else if number.point < length then
    number.digits.take number.point.toNat ++ ['.'] ++ number.digits.drop number.point.toNat
  else number.digits ++ List.replicate (number.point - length).toNat '0' ++ layout.wholeEnd

/-- An exponent with its sign and at least two digits. -/
def exponentText (exponent : Int) : Text :=
  let digits := Text.ofNat exponent.natAbs
  (if exponent < 0 then '-' else '+') :: (if digits.length < 2 then '0' :: digits else digits)

/-- The digits with the point after the first of them, and the power of ten. -/
def scientific (number : Expansion) : Text :=
  number.digits.take 1
    ++ (if number.digits.length ≤ 1 then [] else '.' :: number.digits.drop 1)
    ++ 'e' :: exponentText (number.point - 1)

def Layout.write (layout : Layout) (number : Expansion) : Text :=
  if -4 < number.point ∧ number.point ≤ 16 then positional layout number else scientific number

def Layout.text (layout : Layout) (x : Float) : Text :=
  let bits := Binary64.magnitude x
  if Binary64.infinity < bits then layout.notANumber
  else
    (if Binary64.negative x then ['-'] else [])
      ++ if bits = Binary64.infinity then layout.infinity
        else if bits = 0 then '0' :: layout.wholeEnd
        else layout.write (shortest bits)

end PostfixSheet.Decimal
