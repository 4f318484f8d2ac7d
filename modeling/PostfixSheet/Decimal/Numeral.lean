import PostfixSheet.Decimal.Binary64

/-!
Decimal numerals: a sign, digits with a point somewhere among them, and a power of ten. A numeral
stands for the double nearest to it. What a text starts with is taken as far as it goes.
-/

namespace PostfixSheet

/-- A numeral by its parts: `digits`, of which the last `fraction` stand after the point, times ten
to the power `exponent`. -/
structure Numeral where
  negative : Bool
  digits : Text
  fraction : Nat
  exponent : Int
deriving DecidableEq, Repr

namespace Numeral

/-- Whether a text starts with a minus sign, and the text after a sign. -/
def sign : Text → Bool × Text
  | '-' :: rest => (true, rest)
  | '+' :: rest => (false, rest)
  | rest => (false, rest)

/-- The power of ten at the end of a numeral, if the whole text is one; no text is the power zero.
-/
def exponent? : Text → Option Int
  | [] => some 0
  | c :: rest =>
      if c = 'e' ∨ c = 'E' then
        let (negative, digits) := sign rest
        if !digits.isEmpty && digits.all Char.isDigit then
          some (if negative then -(Text.decimal digits : Int) else Text.decimal digits)
        else none
      else none

/-- Reads a whole text as a numeral. There is a digit before or after the point. -/
def ofText? (text : Text) : Option Numeral :=
  let (negative, unsigned) := sign text
  let whole := unsigned.takeWhile Char.isDigit
  let (fraction, rest) := match unsigned.dropWhile Char.isDigit with
    | '.' :: rest => (rest.takeWhile Char.isDigit, rest.dropWhile Char.isDigit)
    | rest => ([], rest)
  if whole.isEmpty && fraction.isEmpty then none
  else (exponent? rest).map fun exponent =>
    ⟨negative, whole ++ fraction, fraction.length, exponent⟩

def leadingDigits (text : Text) : Text := text.takeWhile Char.isDigit

def leadingSign : Text → Text
  | '+' :: _ => ['+']
  | '-' :: _ => ['-']
  | _ => []

/-- The power of ten at the start of a text: nothing unless at least one digit follows the letter.
-/
def leadingExponent : Text → Text
  | [] => []
  | c :: rest =>
      if c = 'e' ∨ c = 'E' then
        let sign := leadingSign rest
        let digits := leadingDigits (rest.drop sign.length)
        if digits.isEmpty then [] else c :: sign ++ digits
      else []

/-- The bits of the double nearest to a run of digits times a power of ten. Powers far out of the
range of doubles are not computed: they leave infinity or zero. -/
def magnitude (digits : Text) (power : Int) : Nat :=
  let whole := Text.decimal digits
  if whole = 0 then 0
  else if 400 < power then Binary64.infinity
  else if power + digits.length < -400 then 0
  else if 0 ≤ power then Binary64.nearest (whole * Nat.pow 10 power.toNat) 1
  else Binary64.nearest whole (Nat.pow 10 (-power).toNat)

/-- The double nearest to a numeral, with the numeral's sign also at zero. -/
def toFloat (n : Numeral) : Float :=
  Binary64.toFloat n.negative (magnitude n.digits (n.exponent - n.fraction))

end Numeral
end PostfixSheet
