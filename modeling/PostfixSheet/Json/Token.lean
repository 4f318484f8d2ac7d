import PostfixSheet.Json.Value
import PostfixSheet.Decimal.Layout
import PostfixSheet.Decimal.Numeral

/-!
The tokens of JSON text: how each is spelled, and the scan that finds them. Everything spelled is
printable ASCII. The scan reads more spellings than are ever written: every escape, characters
beyond ASCII as they are, and blanks between any two tokens.
-/

namespace PostfixSheet.Json

open Numeral (leadingDigits leadingExponent)

/-- A token of JSON text. A number is kept by its characters until a value is made of it. -/
inductive Token
  | openArray
  | closeArray
  | openObject
  | closeObject
  | comma
  | colon
  | null
  | bool (value : Bool)
  | notANumber
  | infinity (negative : Bool)
  | number (spelling : Text)
  | string (signs : Signs)
  /-- something that no token is spelled like; the scan ends here -/
  | bad
deriving DecidableEq, Repr

def unitEscape (n : Nat) : Text := '\\' :: 'u' :: Text.hex 4 n

/-- How a character is written in a string. A character with more than sixteen bits is written as
the two halves of a pair. -/
def escape (c : Char) : Text :=
  let n := c.toNat
  if c = '\x22' ∨ c = '\\' then ['\\', c]
  else if c = '\n' then ['\\', 'n']
  else if c = '\r' then ['\\', 'r']
  else if c = '\t' then ['\\', 't']
  else if c = '\x08' then ['\\', 'b']
  else if c = '\x0c' then ['\\', 'f']
  else if 32 ≤ n ∧ n < 127 then [c]
  else if n < 0x10000 then unitEscape n
  else
    unitEscape (0xd800 + (n - 0x10000) / 0x400) ++ unitEscape (0xdc00 + (n - 0x10000) % 0x400)

def escapeSign : Sign → Text
  | .char c => escape c
  | .half n => unitEscape (Sign.half n).code

def Token.text : Token → Text
  | .openArray => ['[']
  | .closeArray => [']']
  | .openObject => ['\x7b']
  | .closeObject => ['\x7d']
  | .comma => [',']
  | .colon => [':']
  | .null => "null".toList
  | .bool true => "true".toList
  | .bool false => "false".toList
  | .notANumber => "NaN".toList
  | .infinity false => "Infinity".toList
  | .infinity true => "-Infinity".toList
  | .number spelling => spelling
  | .string signs => '\x22' :: signs.flatMap escapeSign ++ ['\x22']
  | .bad => []

/-- The layout of doubles: a whole number keeps a point and a zero to be told from an integer. -/
def layout : Decimal.Layout := ⟨['.', '0'], "Infinity".toList, "NaN".toList⟩

def Token.ofFloat (x : Float) : Token :=
  let bits := Binary64.magnitude x
  if Binary64.infinity < bits then .notANumber
  else if bits = Binary64.infinity then .infinity (Binary64.negative x)
  else .number (layout.text x)

/-- Puts the halves of pairs together. A half without its other half stays a half. -/
def ofUnits : List Nat → Signs
  | [] => []
  | [n] => [Sign.ofCode n]
  | high :: low :: rest =>
      if 0xd800 ≤ high ∧ high < 0xdc00 ∧ 0xdc00 ≤ low ∧ low < 0xe000 then
        .char (Char.ofNat (0x10000 + (high - 0xd800) * 0x400 + (low - 0xdc00))) :: ofUnits rest
      else Sign.ofCode high :: ofUnits (low :: rest)

def isSpace (c : Char) : Bool := c == ' ' || c == '\t' || c == '\n' || c == '\r'

/-- The point and the digits after it at the start of a text; nothing unless there is a digit. -/
def leadingFraction : Text → Text
  | '.' :: rest =>
      let digits := leadingDigits rest
      if digits.isEmpty then [] else '.' :: digits
  | _ => []

/-- The longest number at the start of a text. A number with more than one digit before the point
does not start with a zero, so of such digits only the zero is taken. -/
def leadingNumber? (text : Text) : Option Text :=
  let minus := match text with
    | '-' :: _ => ['-']
    | _ => []
  let whole := match text.drop minus.length with
    | '0' :: _ => ['0']
    | rest => leadingDigits rest
  if whole.isEmpty then none
  else
    let rest := text.drop (minus.length + whole.length)
    let fraction := leadingFraction rest
    some (minus ++ whole ++ fraction ++ leadingExponent (rest.drop fraction.length))

def fixedTokens : List Token :=
  [.openArray, .closeArray, .openObject, .closeObject, .comma, .colon, .null, .bool true,
    .bool false, .notANumber, .infinity false, .infinity true]

def Token.first? (text : Text) : Option Token :=
  match fixedTokens.find? (·.text.isPrefixOf text) with
  | some token => some token
  | none => (leadingNumber? text).map .number

/-- What a character stands for after a backslash, if it stands for another character. -/
def escaped? (c : Char) : Option Char :=
  if c = '\x22' ∨ c = '\\' ∨ c = '/' then some c
  else if c = 'n' then some '\n'
  else if c = 'r' then some '\r'
  else if c = 't' then some '\t'
  else if c = 'b' then some '\x08'
  else if c = 'f' then some '\x0c'
  else none

/-- Where a scan stands: between tokens, inside a token of which `left` characters are still to
come, or inside a string, whose characters so far are kept by their numbers, the last one first. -/
inductive Position
  | between
  | inToken (left : Nat)
  | inString (done : List Nat)
  | afterBackslash (done : List Nat)
  | inEscape (done : List Nat) (left value : Nat)

def scanFrom : Position → Text → List Token
  | .between, [] | .inToken _, [] => []
  | .inString _, [] | .afterBackslash _, [] | .inEscape _ _ _, [] => [.bad]
  | .inToken (left + 1), _ :: rest => scanFrom (.inToken left) rest
  | .inToken 0, c :: rest | .between, c :: rest =>
      if isSpace c then scanFrom .between rest
      else if c = '\x22' then scanFrom (.inString []) rest
      else match Token.first? (c :: rest) with
        | some token => token :: scanFrom (.inToken (token.text.length - 1)) rest
        | none => [.bad]
  | .inString done, c :: rest =>
      if c = '\x22' then .string (ofUnits done.reverse) :: scanFrom .between rest
      else if c = '\\' then scanFrom (.afterBackslash done) rest
      else if c.toNat < 32 then [.bad]
      else scanFrom (.inString (c.toNat :: done)) rest
  | .afterBackslash done, c :: rest =>
      if c = 'u' then scanFrom (.inEscape done 3 0) rest
      else match escaped? c with
        | some c => scanFrom (.inString (c.toNat :: done)) rest
        | none => [.bad]
  | .inEscape done left value, c :: rest => match Text.hexDigit? c with
      | none => [.bad]
      | some digit => match left with
          | 0 => scanFrom (.inString ((16 * value + digit) :: done)) rest
          | left + 1 => scanFrom (.inEscape done left (16 * value + digit)) rest

def Token.scan (text : Text) : List Token := scanFrom .between text

end PostfixSheet.Json
