import PostfixSheet.Proofs.Machine.Outcome

/-!
# When a run has a value

Over given values for the cells, whether an expression has a value is decided by three things that
can be told apart: every reference names a cell, the number of values on the stack works out, and no
division meets a zero. The value is then that of plain arithmetic on doubles, which refuses nothing.
-/

namespace PostfixSheet.Machine

/-- References stand for given values. -/
def lookUp (values : Address → Float) : Answer :=
  fun label address => match address with
    | none => .error (.missingCell label)
    | some a => .ok (values a)

def AllNamed (tokens : List Token) : Prop := ∀ label, .reference label none ∉ tokens

/-- The number of values on the stack after one more token; nothing if an operator finds fewer than
two. -/
def heightStep (height : Nat) : Token → Option Nat
  | .number _ _ | .reference _ _ => some (height + 1)
  | .operator _ => if height < 2 then none else some (height - 1)
  | .unrecognized _ => some height

def heightFrom : Nat → List Token → Option Nat
  | height, [] => some height
  | height, token :: tokens => (heightStep height token).bind (heightFrom · tokens)

/-- Every operator finds two values, and one value is left at the end. -/
def Balanced (tokens : List Token) : Prop := heightFrom 0 tokens = some 1

def freeStep (values : Address → Float) (stack : List Float) : Token → List Float
  | .number _ value => value :: stack
  | .reference _ address => (address.map values).getD 0 :: stack
  | .operator op => match stack with
      | right :: left :: rest => op.onDoubles left right :: rest
      | _ => stack
  | .unrecognized _ => stack

def freeStack (values : Address → Float) : List Float → List Token → List Float
  | stack, [] => stack
  | stack, token :: tokens => freeStack values (freeStep values stack token) tokens

/-- The value of an expression by arithmetic that refuses nothing. -/
def freeValue (values : Address → Float) (tokens : List Token) : Float :=
  (freeStack values [] tokens).headD 0

def meetsZero : List Float → Token → Bool
  | right :: _ :: _, .operator op => refuses op right
  | _, _ => false

/-- Whether some division on the way has a right operand that equals zero. -/
def dividesByZero (values : Address → Float) : List Float → List Token → Bool
  | _, [] => false
  | stack, token :: tokens =>
      meetsZero stack token || dividesByZero values (freeStep values stack token) tokens

theorem step_look_up_ok_iff {values : Address → Float} {stack next : List Float} {token : Token} :
    step (lookUp values) stack token = .ok next ↔
      (∀ label, token ≠ .reference label none) ∧ (heightStep stack.length token).isSome ∧
        meetsZero stack token = false ∧ freeStep values stack token = next := by
  cases token with
  | number text value => simp [step, heightStep, meetsZero, freeStep]
  | unrecognized text => simp [step, heightStep, meetsZero, freeStep]
  | reference label address =>
      cases address with
      | none => simp [step, lookUp, Except.map]
      | some a => simp [step, lookUp, Except.map, heightStep, meetsZero, freeStep]
  | operator op =>
      rcases stack with _ | ⟨right, _ | ⟨left, rest⟩⟩
      · simp [step, heightStep]
      · simp [step, heightStep]
      · rw [step_operator_eq]
        cases refused : refuses op right <;> simp [heightStep, meetsZero, freeStep, refused]

theorem free_step_length {values : Address → Float} {stack : List Float} {token : Token}
    {height : Nat} (counted : heightStep stack.length token = some height) :
    (freeStep values stack token).length = height := by
  cases token with
  | number text value => exact Option.some.inj counted
  | unrecognized text => exact Option.some.inj counted
  | reference label address => exact Option.some.inj counted
  | operator op =>
      rcases stack with _ | ⟨right, _ | ⟨left, rest⟩⟩
      · cases counted
      · cases counted
      · exact Option.some.inj counted

theorem free_stack_length {values : Address → Float} {stack : List Float} {tokens : List Token}
    {height : Nat} (counted : heightFrom stack.length tokens = some height) :
    (freeStack values stack tokens).length = height := by
  induction tokens generalizing stack with
  | nil => exact Option.some.inj counted
  | cons token tokens induction =>
      obtain ⟨next, first, later⟩ := Option.bind_eq_some_iff.mp counted
      rw [← free_step_length first] at later
      exact induction later

theorem all_named_cons {token : Token} {tokens : List Token} :
    AllNamed (token :: tokens) ↔ (∀ label, token ≠ .reference label none) ∧ AllNamed tokens := by
  simp only [AllNamed, List.mem_cons, not_or, forall_and, ne_comm]

theorem run_from_look_up_ok_iff {values : Address → Float} {stack final : List Float}
    {tokens : List Token} :
    runFrom (lookUp values) stack tokens = .ok final ↔
      AllNamed tokens ∧ heightFrom stack.length tokens = some final.length ∧
        dividesByZero values stack tokens = false ∧ freeStack values stack tokens = final := by
  induction tokens generalizing stack with
  | nil =>
      simp only [runFrom, AllNamed, heightFrom, dividesByZero, freeStack, Except.ok.injEq]
      constructor
      · rintro rfl
        simp
      · exact fun decided => decided.2.2.2
  | cons token tokens induction =>
      simp only [runFrom, heightFrom, dividesByZero, freeStack, Bool.or_eq_false_iff,
        all_named_cons]
      cases stepped : step (lookUp values) stack token with
      | error error =>
          simp only [reduceCtorEq, false_iff]
          rintro ⟨⟨known, _⟩, counted, ⟨nonzero, _⟩, _⟩
          obtain ⟨height, first, _⟩ := Option.bind_eq_some_iff.mp counted
          have finds := Option.isSome_of_eq_some first
          rw [step_look_up_ok_iff.mpr ⟨known, finds, nonzero, rfl⟩] at stepped
          cases stepped
      | ok next =>
          obtain ⟨known, finds, nonzero, rfl⟩ := step_look_up_ok_iff.mp stepped
          obtain ⟨height, first⟩ := Option.isSome_iff_exists.mp finds
          have reached : (freeStep values stack token).length = height := free_step_length first
          simp [induction, known, first, nonzero, reached]

/-- Over given values, an expression has a value exactly if its references are named, its stack
works out and it divides by no zero. -/
theorem run_look_up_ok_iff {values : Address → Float} {tokens : List Token} {value : Float} :
    run (lookUp values) tokens = .ok value ↔
      AllNamed tokens ∧ Balanced tokens ∧ dividesByZero values [] tokens = false ∧
        freeValue values tokens = value := by
  constructor
  · intro ran
    obtain ⟨named, counted, nonzero, reached⟩ :=
      run_from_look_up_ok_iff.mp (run_from_ok_of_run_ok ran)
    exact ⟨named, counted, nonzero, by rw [freeValue, reached]; rfl⟩
  · rintro ⟨named, balanced, nonzero, rfl⟩
    have single : (freeStack values [] tokens).length = 1 := free_stack_length balanced
    obtain ⟨value, reached⟩ := List.length_eq_one_iff.mp single
    have ran : runFrom (lookUp values) [] tokens = .ok [value] :=
      run_from_look_up_ok_iff.mpr ⟨named, balanced, nonzero, reached⟩
    rw [run, ran, freeValue, reached]
    rfl

theorem free_stack_congr {values other : Address → Float} {stack : List Float} {tokens : List Token}
    (same : ∀ label a, .reference label (some a) ∈ tokens → values a = other a) :
    freeStack values stack tokens = freeStack other stack tokens := by
  induction tokens generalizing stack with
  | nil => rfl
  | cons token tokens induction =>
      have first : freeStep values stack token = freeStep other stack token := by
        cases token with
        | number _ _ | operator _ | unrecognized _ => rfl
        | reference label address =>
            cases address with
            | none => rfl
            | some a => simp only [freeStep, Option.map_some, same label a (by simp)]
      rw [freeStack, freeStack, first]
      exact induction fun label a member => same label a (by simp [member])

theorem free_value_congr {values other : Address → Float} {tokens : List Token}
    (same : ∀ label a, .reference label (some a) ∈ tokens → values a = other a) :
    freeValue values tokens = freeValue other tokens := by
  rw [freeValue, freeValue, free_stack_congr same]

end PostfixSheet.Machine
