import PostfixSheet.Infix.Expression
import PostfixSheet.Infix.Lexeme
import PostfixSheet.Text.Quoted

/-!
Reading infix expressions. Multiplication and division bind tighter than addition and subtraction,
all four group to the left, and a minus sign before an operand binds tightest. The lexemes are read
one by one: what has been read so far is an expression in the making, and a lexeme that cannot go on
with it is refused on the spot.
-/

namespace PostfixSheet.Infix

inductive Waiting
  | group
  | negation
  | binary (op : Operator) (left : Expression)
deriving DecidableEq, Repr

/-- An expression in the making: what waits, the innermost first, and the operand that has just been
completed, if the last lexeme completed one. -/
structure Partial where
  waiting : List Waiting
  operand : Option Expression
deriving DecidableEq, Repr

namespace Partial

def start : Partial := ⟨[], none⟩

/-- Hands a complete operand to the minus signs right before it. -/
def settle : List Waiting → Expression → Partial
  | .negation :: rest, e => settle rest (.negate e)
  | waiting, e => ⟨waiting, some e⟩

/-- Hands an operand to the operators before it that satisfy `tight`, the innermost first. -/
def finish (tight : Operator → Bool) : List Waiting → Expression → List Waiting × Expression
  | .binary op left :: rest, e =>
      if tight op then finish tight rest (.binary op left e) else (.binary op left :: rest, e)
  | waiting, e => (waiting, e)

/-- Whether an operator takes the operand between it and the next operator. -/
def bindsBefore (next op : Operator) : Bool :=
  match next with
  | .plus | .minus => true
  | .times | .over => op == .times || op == .over

/-- What one more lexeme makes of an expression in the making; nothing if the lexeme cannot go on
with it. -/
def read (p : Partial) (lexeme : Lexeme) : Option Partial :=
  match p.operand with
  | none => match lexeme with
      | .number literal => some (settle p.waiting (.number literal))
      | .label text => some (settle p.waiting (.cell text))
      | .operator .minus => some ⟨.negation :: p.waiting, none⟩
      | .opening => some ⟨.group :: p.waiting, none⟩
      | _ => none
  | some e => match lexeme with
      | .operator op =>
          let (waiting, left) := finish (bindsBefore op) p.waiting e
          some ⟨.binary op left :: waiting, none⟩
      | .closing => match finish (fun _ => true) p.waiting e with
          | (.group :: waiting, e) => some (settle waiting e)
          | _ => none
      | _ => none

def result? (p : Partial) : Option Expression :=
  match p.operand with
  | none => none
  | some e => match finish (fun _ => true) p.waiting e with
      | ([], e) => some e
      | _ => none

end Partial

inductive Fault
  | noLexeme (c : Char) (spot : Spot)
  | unexpected (lexeme : Lexeme) (spot : Spot)
  /-- the text ends before the expression does; the place is that of the last lexeme -/
  | unexpectedEnd (spot : Spot)
deriving DecidableEq, Repr

namespace Fault

def position : Fault → Nat
  | .noLexeme _ spot | .unexpected _ spot | .unexpectedEnd spot => spot.column

def unexpectedText (className text : Text) (spot : Spot) : Text :=
  "Unexpected token Token('".toList ++ className ++ "', ".toList ++ Text.quoted text
    ++ ") at line ".toList ++ Text.ofNat spot.line ++ ", column ".toList ++ Text.ofNat spot.column
    ++ ['.']

def message (fault : Fault) : Text :=
  "Infix parse error: ".toList ++ match fault with
    | .noLexeme c spot =>
        "No terminal matches '".toList ++ [c] ++ "' in the current parser context, at line ".toList
          ++ Text.ofNat spot.line ++ " col ".toList ++ Text.ofNat spot.column
    | .unexpected lexeme spot => unexpectedText lexeme.className lexeme.text spot
    | .unexpectedEnd spot => unexpectedText "$END".toList [] spot

end Fault

/-- Reads lexemes one by one; `last` is the place of the lexeme read last. -/
def readFrom (p : Partial) (last : Spot) (stop : Option (Char × Spot)) :
    List Placed → Except Fault Expression
  | [] => match stop with
      | some (c, spot) => .error (.noLexeme c spot)
      | none => match p.result? with
          | some e => .ok e
          | none => .error (.unexpectedEnd last)
  | placed :: rest => match p.read placed.lexeme with
      | some p => readFrom p placed.spot stop rest
      | none => .error (.unexpected placed.lexeme placed.spot)

def Expression.ofText (text : Text) : Except Fault Expression :=
  let scan := scan text
  readFrom Partial.start Spot.start scan.stop scan.lexemes

def inPostfix (text : Text) : Except Fault Text :=
  (Expression.ofText text).map fun e => [' '].intercalate e.inPostfix

end PostfixSheet.Infix
