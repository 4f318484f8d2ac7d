import PostfixSheet.Evaluation.Machine

/-!
# What the outcome of a run depends on

The machine asks for the references of an expression from left to right and stops at the first one
that has no value. A run with a value has therefore had a value for every reference; a run that
fails has either failed by itself or passed on the error of one reference, with a value for every
reference before it. Answers that agree at the references of an expression give runs that agree, and
tokens with other names give a run that differs in the names of its error alone.
-/

namespace PostfixSheet.Operator

/-- The value of an operator by the rules of doubles, for every divisor. -/
def onDoubles (op : Operator) (left right : Float) : Float :=
  match op with
  | .plus => left + right
  | .minus => left - right
  | .times => left * right
  | .over => left / right

end PostfixSheet.Operator

namespace PostfixSheet.Machine

/-- The errors that the machine finds by itself, whatever the references stand for. -/
def IsOwn : EvalError → Prop
  | .noValue | .missingOperand _ | .leftOver _ | .divisionByZero => True
  | .cycle _ | .tooDeep _ | .exhausted _ | .missingCell _ => False

def refuses (op : Operator) (right : Float) : Bool := op == .over && right == 0

theorem apply_eq (op : Operator) (left right : Float) :
    apply op left right =
      if refuses op right then .error .divisionByZero else .ok (op.onDoubles left right) := by
  cases op <;> simp [apply, refuses, Operator.onDoubles]

theorem step_operator_eq (answer : Answer) (op : Operator) (left right : Float)
    (rest : List Float) :
    step answer (right :: left :: rest) (.operator op) =
      if refuses op right then .error .divisionByZero
      else .ok (op.onDoubles left right :: rest) := by
  cases refused : refuses op right <;> simp [step, apply_eq, refused, Except.map]

theorem step_operator_error_is_own {answer : Answer} {stack : List Float} {op : Operator}
    {error : EvalError} (failed : step answer stack (.operator op) = .error error) :
    IsOwn error := by
  rcases stack with _ | ⟨right, _ | ⟨left, rest⟩⟩
  · cases failed
    trivial
  · cases failed
    trivial
  · rw [step_operator_eq] at failed
    split at failed
    · cases failed
      trivial
    · cases failed

theorem result_error_is_own {stack : List Float} {error : EvalError}
    (failed : result stack = .error error) : IsOwn error := by
  rcases stack with _ | ⟨value, _ | ⟨second, rest⟩⟩
  · cases failed
    trivial
  · cases failed
  · cases failed
    trivial

theorem step_reference_error_iff {answer : Answer} {stack : List Float} {label : Text}
    {address : Option Address} {error : EvalError} :
    step answer stack (.reference label address) = .error error ↔
      answer label address = .error error := by
  cases answered : answer label address <;> simp [step, answered, Except.map]

theorem step_reference_ok_iff {answer : Answer} {stack next : List Float} {label : Text}
    {address : Option Address} :
    step answer stack (.reference label address) = .ok next ↔
      ∃ value, answer label address = .ok value ∧ value :: stack = next := by
  cases answered : answer label address <;> simp [step, answered, Except.map]

/-- The run comes to a reference that fails, having had a value for every one before it. -/
def FailsAt (answer : Answer) (stack : List Float) (tokens : List Token) (error : EvalError) :
    Prop :=
  ∃ front label address back reached,
    tokens = front ++ .reference label address :: back ∧
      runFrom answer stack front = .ok reached ∧ answer label address = .error error

theorem FailsAt.cons {answer : Answer} {stack next : List Float} {token : Token}
    {tokens : List Token} {error : EvalError} (stepped : step answer stack token = .ok next)
    (later : FailsAt answer next tokens error) : FailsAt answer stack (token :: tokens) error := by
  obtain ⟨front, label, address, back, reached, split, before, failed⟩ := later
  refine ⟨token :: front, label, address, back, reached, by rw [split]; rfl, ?_, failed⟩
  simp only [runFrom, stepped]
  exact before

theorem run_from_error_cases {answer : Answer} {stack : List Float} {tokens : List Token}
    {error : EvalError} (failed : runFrom answer stack tokens = .error error) :
    IsOwn error ∨ FailsAt answer stack tokens error := by
  induction tokens generalizing stack with
  | nil => cases failed
  | cons token tokens induction =>
      simp only [runFrom] at failed
      cases stepped : step answer stack token with
      | ok next =>
          rw [stepped] at failed
          exact (induction failed).imp_right (FailsAt.cons stepped)
      | error found =>
          rw [stepped] at failed
          cases failed
          cases token with
          | number text value => cases stepped
          | unrecognized text => cases stepped
          | operator op => exact .inl (step_operator_error_is_own stepped)
          | reference label address =>
              have answered := step_reference_error_iff.mp stepped
              exact .inr ⟨[], label, address, tokens, stack, rfl, rfl, answered⟩

/-- An expression fails by itself, or with the error of the first reference that has no value. -/
theorem run_error_cases {answer : Answer} {tokens : List Token} {error : EvalError}
    (failed : run answer tokens = .error error) :
    IsOwn error ∨ FailsAt answer [] tokens error := by
  simp only [run] at failed
  cases ran : runFrom answer [] tokens with
  | ok stack =>
      rw [ran] at failed
      exact .inl (result_error_is_own failed)
  | error found =>
      rw [ran] at failed
      cases failed
      exact run_from_error_cases ran

theorem run_from_append_error {answer : Answer} {stack : List Float} {front back : List Token}
    {error : EvalError} (failed : runFrom answer stack front = .error error) :
    runFrom answer stack (front ++ back) = .error error := by
  rw [run_from_append, failed]

theorem run_append_error {answer : Answer} {front back : List Token} {error : EvalError}
    (failed : runFrom answer [] front = .error error) :
    run answer (front ++ back) = .error error := by
  rw [run, run_from_append_error failed]

theorem run_error_of_fails_at {answer : Answer} {tokens : List Token} {error : EvalError}
    (stopped : FailsAt answer [] tokens error) : run answer tokens = .error error := by
  obtain ⟨front, label, address, back, reached, split, before, failed⟩ := stopped
  have after : runFrom answer reached (.reference label address :: back) = .error error := by
    simp only [runFrom, step_reference_error_iff.mpr failed]
  rw [run, split, run_from_append, before]
  simp only [after]

theorem run_from_ok_answers {answer : Answer} {stack final : List Float} {tokens : List Token}
    (ran : runFrom answer stack tokens = .ok final) {label : Text} {address : Option Address}
    (member : .reference label address ∈ tokens) : ∃ value, answer label address = .ok value := by
  induction tokens generalizing stack with
  | nil => cases member
  | cons token tokens induction =>
      simp only [runFrom] at ran
      cases stepped : step answer stack token with
      | error found =>
          rw [stepped] at ran
          cases ran
      | ok next =>
          rw [stepped] at ran
          rcases List.mem_cons.mp member with same | member
          · subst same
            obtain ⟨value, answered, _⟩ := step_reference_ok_iff.mp stepped
            exact ⟨value, answered⟩
          · exact induction ran member

theorem run_from_ok_of_run_ok {answer : Answer} {tokens : List Token} {value : Float}
    (ran : run answer tokens = .ok value) : runFrom answer [] tokens = .ok [value] := by
  simp only [run] at ran
  cases final : runFrom answer [] tokens with
  | error found =>
      rw [final] at ran
      cases ran
  | ok stack =>
      rw [final] at ran
      rcases stack with _ | ⟨first, _ | ⟨second, rest⟩⟩
      · cases ran
      · cases ran
        rfl
      · cases ran

/-- An expression has a value only if every reference in it has one. -/
theorem run_ok_answers {answer : Answer} {tokens : List Token} {value : Float}
    (ran : run answer tokens = .ok value) {label : Text} {address : Option Address}
    (member : .reference label address ∈ tokens) : ∃ inner, answer label address = .ok inner :=
  run_from_ok_answers (run_from_ok_of_run_ok ran) member

/-- Two outcomes are the same, unless the first is an error of one kind or the second an error of
another kind. -/
def Agree {Value : Type} (left right : EvalError → Prop) (first second : Except EvalError Value) :
    Prop :=
  first = second ∨ (∃ error, first = .error error ∧ left error) ∨
    ∃ error, second = .error error ∧ right error

theorem Agree.eq_of_other {Value : Type} {kind : EvalError → Prop}
    {first second : Except EvalError Value} (agree : Agree kind (fun _ => False) first second)
    (other : ∀ error, kind error → first ≠ .error error) : second = first := by
  rcases agree with same | ⟨error, failed, known⟩ | ⟨_, _, never⟩
  · exact same.symm
  · exact absurd failed (other error known)
  · exact never.elim

section Agreement

variable {left right : EvalError → Prop} {answer other : Answer}

theorem step_agree {stack : List Float} {token : Token}
    (agree : ∀ label address, token = .reference label address →
      Agree left right (answer label address) (other label address)) :
    Agree left right (step answer stack token) (step other stack token) := by
  cases token with
  | number text value => exact .inl rfl
  | operator op => exact .inl rfl
  | unrecognized text => exact .inl rfl
  | reference label address =>
      rcases agree label address rfl with same | ⟨error, failed, kind⟩ | ⟨error, failed, kind⟩
      · exact .inl (by simp only [step, same])
      · exact .inr (.inl ⟨error, step_reference_error_iff.mpr failed, kind⟩)
      · exact .inr (.inr ⟨error, step_reference_error_iff.mpr failed, kind⟩)

theorem run_from_agree {stack : List Float} {tokens : List Token}
    (agree : ∀ label address, .reference label address ∈ tokens →
      Agree left right (answer label address) (other label address)) :
    Agree left right (runFrom answer stack tokens) (runFrom other stack tokens) := by
  induction tokens generalizing stack with
  | nil => exact .inl rfl
  | cons token tokens induction =>
      have first : Agree left right (step answer stack token) (step other stack token) :=
        step_agree fun label address same => agree label address (by simp [same])
      rcases first with same | ⟨error, failed, kind⟩ | ⟨error, failed, kind⟩
      · simp only [runFrom, same]
        cases step other stack token with
        | error error => exact .inl rfl
        | ok next =>
            exact induction fun label address member => agree label address (by simp [member])
      · exact .inr (.inl ⟨error, by simp only [runFrom, failed], kind⟩)
      · exact .inr (.inr ⟨error, by simp only [runFrom, failed], kind⟩)

/-- Answers that agree at every reference of an expression give runs that agree. -/
theorem run_agree {tokens : List Token}
    (agree : ∀ label address, .reference label address ∈ tokens →
      Agree left right (answer label address) (other label address)) :
    Agree left right (run answer tokens) (run other tokens) := by
  have ran : Agree left right (runFrom answer [] tokens) (runFrom other [] tokens) :=
    run_from_agree agree
  rcases ran with same | ⟨error, failed, kind⟩ | ⟨error, failed, kind⟩
  · exact .inl (by simp only [run, same])
  · exact .inr (.inl ⟨error, by simp only [run, failed], kind⟩)
  · exact .inr (.inr ⟨error, by simp only [run, failed], kind⟩)

end Agreement

/-- An expression does not see what is answered to references that do not stand in it. -/
theorem run_congr {answer other : Answer} {tokens : List Token}
    (same : ∀ label address, .reference label address ∈ tokens →
      answer label address = other label address) : run answer tokens = run other tokens := by
  have agree : Agree (fun _ => False) (fun _ => False) (run answer tokens) (run other tokens) :=
    run_agree fun label address member => .inl (same label address member)
  exact (agree.eq_of_other fun _ never => never.elim).symm

section Renaming

variable {answer other : Answer} {change : Token → Token} {rename : EvalError → EvalError}

/-- If tokens are changed so that every step ends as before, up to the names in errors, so does a
run. -/
theorem run_from_rename {tokens : List Token}
    (steps : ∀ token ∈ tokens, ∀ stack,
      step other stack (change token) = (step answer stack token).mapError rename)
    (stack : List Float) :
    runFrom other stack (tokens.map change) = (runFrom answer stack tokens).mapError rename := by
  induction tokens generalizing stack with
  | nil => rfl
  | cons token tokens induction =>
      rw [List.map_cons, runFrom, runFrom, steps token (by simp)]
      cases step answer stack token with
      | error error => rfl
      | ok next => exact induction (fun later member => steps later (by simp [member])) next

theorem run_rename {tokens : List Token} (own : ∀ error, IsOwn error → rename error = error)
    (steps : ∀ token ∈ tokens, ∀ stack,
      step other stack (change token) = (step answer stack token).mapError rename) :
    run other (tokens.map change) = (run answer tokens).mapError rename := by
  rw [run, run, run_from_rename steps]
  cases runFrom answer [] tokens with
  | error error => rfl
  | ok stack =>
      change result stack = (result stack).mapError rename
      cases ended : result stack with
      | ok value => rfl
      | error error =>
          have kept := own error (result_error_is_own ended)
          exact congrArg Except.error kept.symm

end Renaming

end PostfixSheet.Machine
