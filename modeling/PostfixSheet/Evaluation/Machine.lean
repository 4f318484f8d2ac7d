import PostfixSheet.Evaluation.Error

/-!
The stack machine. It goes through the tokens of an expression from left to right: a number puts its
value on the stack, an operator takes two values off and puts one on. What a reference stands for is
left open, so that the machine can be spoken of without a grid.
-/

namespace PostfixSheet.Machine

/-- What the machine asks for when it meets a reference: the label, and the address if there is one.
-/
abbrev Answer := Text → Option Address → Except EvalError Float

/-- The value of an operator. Division by either zero is refused; by anything else it follows the
rules of doubles. -/
def apply (op : Operator) (left right : Float) : Except EvalError Float :=
  match op with
  | .plus => .ok (left + right)
  | .minus => .ok (left - right)
  | .times => .ok (left * right)
  | .over => if right == 0 then .error .divisionByZero else .ok (left / right)

/-- The stack after one more token, its top first. -/
def step (answer : Answer) (stack : List Float) : Token → Except EvalError (List Float)
  | .number _ value => .ok (value :: stack)
  | .reference label address => (answer label address).map (· :: stack)
  | .operator op => match stack with
      | right :: left :: rest => (apply op left right).map (· :: rest)
      | _ => .error (.missingOperand op)
  | .unrecognized _ => .ok stack

/-- The value of an expression from the stack at its end: there has to be exactly one. -/
def result : List Float → Except EvalError Float
  | [] => .error .noValue
  | [value] => .ok value
  | stack => .error (.leftOver stack.length)

def runFrom (answer : Answer) : List Float → List Token → Except EvalError (List Float)
  | stack, [] => .ok stack
  | stack, token :: tokens => match step answer stack token with
      | .ok stack => runFrom answer stack tokens
      | .error error => .error error

def run (answer : Answer) (tokens : List Token) : Except EvalError Float :=
  match runFrom answer [] tokens with
  | .ok stack => result stack
  | .error error => .error error

theorem run_from_append (answer : Answer) (stack : List Float) (front back : List Token) :
    runFrom answer stack (front ++ back) =
      match runFrom answer stack front with
      | .ok stack => runFrom answer stack back
      | .error error => .error error := by
  induction front generalizing stack with
  | nil => simp [runFrom]
  | cons token front induction =>
    simp only [List.cons_append, runFrom]
    cases step answer stack token with
    | ok stack => simpa using induction stack
    | error error => simp

end PostfixSheet.Machine
