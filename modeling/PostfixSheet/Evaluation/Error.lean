import PostfixSheet.Token

/-!
Why an expression has no value.
-/

namespace PostfixSheet

inductive EvalError
  /-- a cell is part of what it is computed from; the cells on the way round, the first one again at
  the end -/
  | cycle (path : List Address)
  /-- the chain of cells became longer than allowed, at the given number of cells -/
  | tooDeep (cells : Nat)
  /-- the call stack ran out, at the given number of cells -/
  | exhausted (cells : Nat)
  | noValue
  | missingOperand (op : Operator)
  /-- more than one value was left at the end of the expression -/
  | leftOver (count : Nat)
  /-- a reference to a cell that the grid does not have -/
  | missingCell (label : Text)
  | divisionByZero
deriving DecidableEq, Repr

namespace EvalError

/-- The name of the kind of an error, as reports and journals give it. -/
def kind : EvalError → Text
  | .cycle _ | .tooDeep _ | .exhausted _ => "recursion_exceeded".toList
  | .noValue | .missingOperand _ => "not_enough_operands".toList
  | .leftOver _ => "too_many_operands".toList
  | .missingCell _ => "cell_not_found".toList
  | .divisionByZero => "division_by_zero".toList

/-- The labels of the cells on a cycle, none for any other error. -/
def cycleLabels : EvalError → List Text
  | .cycle path => path.map Address.label
  | _ => []

def message : EvalError → Text
  | .cycle path =>
      "Circular cell reference: ".toList ++ " -> ".toList.intercalate (path.map Address.label)
  | .tooDeep cells | .exhausted cells =>
      "Recursion depth exceeded (".toList ++ Text.ofNat cells ++ [')']
  | .noValue => "Expression produced no value".toList
  | .missingOperand op => "Not enough operands for '".toList ++ op.text ++ ['\x27']
  | .leftOver count => "Expression left ".toList ++ Text.ofNat count ++ " values, expected 1".toList
  | .missingCell label => "Cell not found: ".toList ++ label
  | .divisionByZero => "Division by zero".toList

end EvalError
end PostfixSheet
