import PostfixSheet.Decimal.Binary64
import PostfixSheet.Json.Value
import PostfixSheet.Text.Blank

/-!
Values that stand for integers. Beside the integers themselves these are the truth values, doubles
without a fraction, and texts of decimal digits. A text may have a sign and leading zeros, hold
single underscores between its digits and end in a point with zeros after it, and nothing but zeros.
-/

namespace PostfixSheet.Json

inductive WholeFault
  /-- values of this kind stand for no number -/
  | notNumber
  /-- the text is no integer -/
  | unreadable
  /-- the integer lies out of the range that is taken -/
  | outOfRange
  | fractional
  | notFinite
deriving DecidableEq, Repr

namespace Whole

/-- A text of which a zero was passed, from its first other digit on. Zeros and underscores before
it are passed too; where none follows them, the one passed last is kept. A minus sign may stand
after the zeros. -/
def passZeros (kept : Char) : Text → Option Text
  | [] => some [kept]
  | c :: rest =>
      if c = '0' ∨ c = '_' then passZeros c rest
      else if c.isDigit ∨ c = '-' then some (c :: rest)
      else if c = '.' then some (kept :: c :: rest)
      else none

/-- A text that starts with a digit, without its leading zeros. -/
def withoutZeros : Text → Option Text
  | '0' :: rest => passZeros '0' rest
  | c :: rest => if c.isDigit then some (c :: rest) else none
  | [] => none

/-- A text without a point that has zeros after it, and nothing but zeros. -/
def withoutFraction (text : Text) : Text :=
  let whole := text.takeWhile (· != '.')
  let fraction := text.drop (whole.length + 1)
  if !fraction.isEmpty && fraction.all (· == '0') then whole else text

/-- What is to be read of a text: no plus sign, no leading zeros and no fraction. -/
def core : Text → Option Text
  | '+' :: '-' :: _ => none
  | '+' :: rest => (withoutZeros rest).map withoutFraction
  | '-' :: rest => (withoutZeros rest).map fun text => '-' :: withoutFraction text
  | text => (withoutZeros text).map withoutFraction

/-- A text without its underscores. They stand neither at the ends nor side by side. -/
def withoutUnderscores (text : Text) : Option Text :=
  let pieces := Text.splitWhere (· == '_') text
  if pieces.any List.isEmpty then none else some pieces.flatten

/-- The integer that a text is in decimal digits, without leading zeros and after a minus sign if it
is negative. Too many digits are found before what may follow them; the sign counts as one. -/
def ofDigits (text : Text) : Except WholeFault Int :=
  let unsigned := if text.head? = some '-' then text.drop 1 else text
  let digits := unsigned.takeWhile Char.isDigit
  let sign := text.length - unsigned.length
  if digits != ['0'] && !digits.head?.any (· != '0') then .error .unreadable
  else if Text.integerLimit < sign + digits.length then .error .outOfRange
  else if digits.length < unsigned.length then .error .unreadable
  else .ok (if sign = 0 then Text.decimal digits else -(Text.decimal digits : Int))

/-- The integer that a text stands for. White space at the ends does not count. What cannot be read
as it is may be readable without underscores, but then it may not be out of range either. -/
def ofText (text : Text) : Except WholeFault Int :=
  match core (Text.trim Text.isSpace text) with
  | none => .error .unreadable
  | some text => match ofDigits text, withoutUnderscores text with
      | .error .unreadable, some digits => (ofDigits digits).mapError fun _ => .unreadable
      | result, _ => result

/-- Doubles beyond this limit or its opposite stand for no integer. -/
def floatLimit : Nat := Nat.pow 2 63

/-- The integer that a double is. The limit itself stands for the integer before it. -/
def ofFloat (x : Float) : Except WholeFault Int :=
  match Binary64.signedUnits? x with
  | none => .error .notFinite
  | some units =>
      let whole := units.tdiv Binary64.unitsPerOne
      if whole * Binary64.unitsPerOne ≠ units then .error .fractional
      else if floatLimit < whole.natAbs then .error .outOfRange
      else .ok (min whole (floatLimit - 1))

end Whole

def whole : Json → Except WholeFault Int
  | .integer n => .ok n
  | .bool b => .ok (if b then 1 else 0)
  | .float x => Whole.ofFloat x
  | .string signs => match signs.text? with
      | some text => Whole.ofText text
      | none => .error .unreadable
  | .null | .array _ | .object _ | .foreign _ _ => .error .notNumber

end PostfixSheet.Json
