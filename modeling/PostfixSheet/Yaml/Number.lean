import PostfixSheet.Decimal.Numeral
import PostfixSheet.Text.Blank
import PostfixSheet.Yaml.Tag

/-!
The numbers that scalars stand for. What is said to be a number by a tag need not be spelled like
one, so every text is read, and may turn out to have no value.
-/

namespace PostfixSheet.Yaml.Number

def withoutUnderscores (text : Text) : Text := text.filter (· != '_')

def letterOf? (base : Nat) : Option Char := [(2, 'b'), (8, 'o'), (16, 'x')].lookup base

def withoutLetter (base : Nat) : Text → Text
  | '0' :: c :: digits => if letterOf? base = some c.toLower then digits else '0' :: c :: digits
  | digits => digits

def natural? (base : Nat) (digits : Text) : Option Nat :=
  if digits.isEmpty then none
  else digits.foldlM (fun n c => match Text.hexDigit? c with
    | some digit => if digit < base then some (base * n + digit) else none
    | none => none) 0

/-- The integer that a text is in a base, after a sign perhaps. In base ten the number of digits is
limited. -/
def inBase (base : Nat) (text : Text) : Except Fault Int :=
  let (negative, digits) := Numeral.sign (Text.strip text)
  let digits := withoutLetter base digits
  if base = 10 ∧ digits.all Char.isDigit ∧ Text.integerLimit < digits.length then
    .error (.integerTooLong digits.length)
  else if base = 10 ∧ digits.all Char.isDigit ∧ !digits.isEmpty then
    .ok (if negative then -(Text.decimal digits : Int) else Text.decimal digits)
  else match natural? base digits with
    | some n => .ok (if negative then -(n : Int) else n)
    | none => .error (.noInteger base text)

def unsignedInteger (text : Text) : Except Fault Int :=
  match text with
  | [] => .error .emptyNumber
  | ['0'] => .ok 0
  | '0' :: 'b' :: digits => inBase 2 digits
  | '0' :: 'x' :: digits => inBase 16 digits
  | '0' :: _ => inBase 8 text
  | _ =>
      if text.contains ':' then
        (Text.splitWhere (· == ':') text).foldlM
          (fun n part => (inBase 10 part).map (60 * n + ·)) 0
      else inBase 10 text

def integer (text : Text) : Except Fault Int :=
  match withoutUnderscores text with
  | [] => .error .emptyNumber
  | text =>
      let (negative, unsigned) := Numeral.sign text
      (unsignedInteger unsigned).map fun n => if negative then -n else n

def words : List (Text × Float) :=
  [("inf".toList, 1 / 0), ("infinity".toList, 1 / 0), ("nan".toList, 0 / 0)]

def decimal (text : Text) : Except Fault Float :=
  let number := Text.strip text
  let (negative, unsigned) := Numeral.sign number
  match words.lookup unsigned, Numeral.ofText? number with
  | some x, _ => .ok (if negative then -x else x)
  | none, some numeral => .ok numeral.toFloat
  | none, none => .error (.noDouble text)

def powerOfSixty (exponent : Nat) : Except Fault Float :=
  let bits := Binary64.nearest (Nat.pow 60 exponent) 1
  if bits = Binary64.infinity then .error .tooManyGroups else .ok (Binary64.toFloat false bits)

/-- The double that groups of sixty are. It is added up from the last group on. -/
def sixties (groups : List Text) : Except Fault Float := do
  let values ← groups.mapM decimal
  values.reverse.zipIdx.foldlM
    (fun sum (value, exponent) => (powerOfSixty exponent).map (sum + value * ·)) 0

def double (text : Text) : Except Fault Float :=
  match (withoutUnderscores text).map Char.toLower with
  | [] => .error .emptyNumber
  | text =>
      let (negative, unsigned) := Numeral.sign text
      let magnitude : Except Fault Float :=
        if unsigned = ".inf".toList then .ok (1 / 0)
        else if unsigned = ".nan".toList then .ok (0 / 0)
        else if unsigned.contains ':' then sixties (Text.splitWhere (· == ':') unsigned)
        else decimal unsigned
      magnitude.map fun x => if negative then -x else x

end PostfixSheet.Yaml.Number
