import PostfixSheet.Token

/-!
Infix expressions as trees, and the postfix order of a tree.
-/

namespace PostfixSheet.Infix

inductive Expression
  | number (literal : Text)
  | cell (label : Text)
  | negate (operand : Expression)
  | binary (op : Operator) (left right : Expression)
deriving DecidableEq, Repr

namespace Expression

def startsWithDigit : Text → Bool
  | c :: _ => c.isDigit
  | [] => false

/-- The operand's texts after a minus sign: a lone literal that starts with a digit takes the sign,
anything else is subtracted from zero. -/
def negated : List Text → List Text
  | [literal] => if startsWithDigit literal then ['-' :: literal] else [['0'], literal, ['-']]
  | operand => ['0'] :: operand ++ [['-']]

def inPostfix : Expression → List Text
  | .number literal => [literal]
  | .cell label => [Text.upper label]
  | .negate operand => negated operand.inPostfix
  | .binary op left right => left.inPostfix ++ right.inPostfix ++ [op.text]

end Expression
end PostfixSheet.Infix
