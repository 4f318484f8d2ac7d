import PostfixSheet.Address
import PostfixSheet.Decimal.Numeral
import PostfixSheet.Text.Blank

/-!
The tokens of a postfix expression: numbers, the four operators and references to cells. The words
of a text that are none of these are kept as unrecognized tokens and have no effect.
-/

namespace PostfixSheet

inductive Operator
  | plus
  | minus
  | times
  | over
deriving DecidableEq, Repr

namespace Operator

def char : Operator → Char
  | .plus => '+'
  | .minus => '-'
  | .times => '*'
  | .over => '/'

def text (op : Operator) : Text := [op.char]

def ofText? : Text → Option Operator
  | ['+'] => some .plus
  | ['-'] => some .minus
  | ['*'] => some .times
  | ['/'] => some .over
  | _ => none

end Operator

/-- A token. A number comes with the double it stands for. A reference comes with its label in upper
case and the address that the label names, if it names one: `A0` does not. -/
inductive Token
  | number (text : Text) (value : Float)
  | operator (op : Operator)
  | reference (label : Text) (address : Option Address)
  | unrecognized (text : Text)

namespace Token

def ofText (text : Text) : Token :=
  match Operator.ofText? text with
  | some op => .operator op
  | none =>
      if Address.hasLabelShape text then .reference (Text.upper text) (Address.ofLabel? text)
      else match Numeral.ofText? text with
        | some numeral => .number text numeral.toFloat
        | none => .unrecognized text

def text : Token → Text
  | .number text _ => text
  | .operator op => op.text
  | .reference label _ => label
  | .unrecognized text => text

/-- The tokens of a text, one for each of its words. -/
def scan (text : Text) : List Token := (Text.words text).map ofText

end Token
end PostfixSheet
