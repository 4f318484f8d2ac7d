import PostfixSheet.Proofs.Evaluation.Composition
import Mathlib.Data.List.Induction

/-!
# Values and operators add up

A value puts one number on the stack, and an operator leaves one fewer than it finds. So as long as
every reference has a value and no division meets a zero, the height of the stack is the number of
values read less the number of operators, and the kinds of the tokens alone decide how an expression
ends: at the first operator that finds fewer than two, or else by the height at the end. An operator
leaves what it computed, so once there was a value the stack is never empty again.
-/

namespace PostfixSheet

namespace Token

def isValue : Token → Bool
  | .number _ _ | .reference _ _ => true
  | .operator _ | .unrecognized _ => false

def isOperator : Token → Bool
  | .operator _ => true
  | .number _ _ | .reference _ _ | .unrecognized _ => false

end Token

namespace Machine

def valueCount (tokens : List Token) : Nat := tokens.countP Token.isValue

def operatorCount (tokens : List Token) : Nat := tokens.countP Token.isOperator

/-- How many more values than operators there are. -/
def surplus (tokens : List Token) : Int := valueCount tokens - operatorCount tokens

/-- Before every operator there are at least two values more than operators. -/
def Covered (tokens : List Token) : Prop :=
  ∀ front op back, tokens = front ++ .operator op :: back → 2 ≤ surplus front

/-- The operator is the first before which there are not two values more than operators. -/
def FirstShort (tokens : List Token) (op : Operator) : Prop :=
  ∃ front back, tokens = front ++ .operator op :: back ∧ surplus front < 2 ∧ Covered front

/-- Every reference has a value. -/
def AllAnswered (answer : Answer) (tokens : List Token) : Prop :=
  ∀ label address, .reference label address ∈ tokens → ∃ value, answer label address = .ok value

/-- No division that the run comes to has a right operand that equals zero. -/
def NoZeroReached (answer : Answer) (tokens : List Token) : Prop :=
  ∀ front back right left rest, tokens = front ++ .operator .over :: back →
    runFrom answer [] front = .ok (right :: left :: rest) → (right == 0) = false

theorem value_count_concat (front : List Token) (token : Token) :
    valueCount (front ++ [token]) = valueCount front + if token.isValue then 1 else 0 := by
  simp [valueCount, List.countP_append, List.countP_singleton]

theorem operator_count_concat (front : List Token) (token : Token) :
    operatorCount (front ++ [token]) =
      operatorCount front + if token.isOperator then 1 else 0 := by
  simp [operatorCount, List.countP_append, List.countP_singleton]

theorem Covered.front {front back : List Token} (covered : Covered (front ++ back)) :
    Covered front := by
  rintro before op after rfl
  exact covered before op (after ++ back) (by simp)

theorem FirstShort.append {front : List Token} {op : Operator} (short : FirstShort front op)
    (back : List Token) : FirstShort (front ++ back) op := by
  obtain ⟨before, after, rfl, few, covered⟩ := short
  exact ⟨before, after ++ back, by simp, few, covered⟩

/-- A row that goes on with one more token is covered if that token is, in case it is an operator. -/
theorem Covered.concat {front : List Token} (covered : Covered front) {token : Token}
    (enough : ∀ op, token = .operator op → 2 ≤ surplus front) : Covered (front ++ [token]) := by
  intro before op after cut
  rcases List.eq_nil_or_concat after with rfl | ⟨further, last, rfl⟩
  · obtain ⟨rfl, same⟩ := List.append_inj' cut rfl
    exact enough op (List.singleton_inj.mp same)
  · have regrouped : front ++ [token] = (before ++ .operator op :: further) ++ [last] := by
      rw [cut]
      simp
    obtain ⟨rfl, _⟩ := List.append_inj' regrouped rfl
    exact covered before op further rfl

theorem covered_or_first_short (tokens : List Token) :
    Covered tokens ∨ ∃ op, FirstShort tokens op := by
  induction tokens using List.reverseRecOn with
  | nil =>
      left
      intro front op back cut
      simp at cut
  | append_singleton front token induction =>
      rcases induction with covered | ⟨op, short⟩
      · by_cases enough : ∀ op, token = .operator op → 2 ≤ surplus front
        · exact .inl (covered.concat enough)
        · push Not at enough
          obtain ⟨op, rfl, few⟩ := enough
          exact .inr ⟨op, front, [], rfl, few, covered⟩
      · exact .inr ⟨op, short.append [token]⟩

section Run

variable {answer : Answer}

def isAnswered (answer : Answer) : Token → Bool
  | .reference label address => (answer label address).isOk
  | .number _ _ | .operator _ | .unrecognized _ => true

theorem all_answered_iff {tokens : List Token} :
    tokens.all (isAnswered answer) = true ↔ AllAnswered answer tokens := by
  rw [List.all_eq_true]
  constructor
  · intro all label address member
    have known : (answer label address).isOk = true := all _ member
    cases answered : answer label address with
    | ok value => exact ⟨value, rfl⟩
    | error error =>
        rw [answered] at known
        cases known
  · intro answered token member
    cases token with
    | number text value => rfl
    | operator op => rfl
    | unrecognized text => rfl
    | reference label address =>
        obtain ⟨value, known⟩ := answered label address member
        rw [isAnswered, known]
        rfl

instance (tokens : List Token) : Decidable (AllAnswered answer tokens) :=
  decidable_of_iff _ all_answered_iff

/-- A run that does not end with a division by zero has come to none. -/
theorem no_zero_reached_of_run {tokens : List Token}
    (other : run answer tokens ≠ .error .divisionByZero) : NoZeroReached answer tokens := by
  intro front back right left rest cut ran
  by_contra zero
  apply other
  have refused : refuses .over right = true := by simpa [refuses] using zero
  have stopped : runFrom answer [] (front ++ [.operator .over]) = .error .divisionByZero := by
    rw [run_from_append, ran]
    simp only [runFrom, step_operator_eq, refused, if_true]
  have whole : tokens = (front ++ [.operator .over]) ++ back := by simp [cut]
  rw [whole]
  exact run_append_error stopped

theorem AllAnswered.front {front back : List Token} (answered : AllAnswered answer (front ++ back)) :
    AllAnswered answer front :=
  fun label address member => answered label address (List.mem_append_left back member)

theorem NoZeroReached.front {front back : List Token}
    (free : NoZeroReached answer (front ++ back)) : NoZeroReached answer front := by
  rintro before after right left rest rfl
  exact free before (after ++ back) right left rest (by simp)

theorem run_from_concat {stack : List Float} {front : List Token} {token : Token}
    (ran : runFrom answer [] front = .ok stack) :
    runFrom answer [] (front ++ [token]) = step answer stack token := by
  rw [run_from_append, ran]
  simp only [runFrom]
  cases step answer stack token <;> rfl

/-- The stack is as high as the counts say, and it is not empty once there was a value. -/
structure Counts (stack : List Float) (tokens : List Token) : Prop where
  height : (stack.length : Int) = surplus tokens
  some : 0 < valueCount tokens → stack ≠ []

theorem Counts.value {stack : List Float} {front : List Token} {token : Token}
    (counts : Counts stack front) (value : Float) (isValue : token.isValue = true)
    (isOperator : token.isOperator = false) : Counts (value :: stack) (front ++ [token]) := by
  refine ⟨?_, fun _ => List.cons_ne_nil _ _⟩
  have height := counts.height
  rw [surplus] at height
  rw [surplus, value_count_concat, operator_count_concat, isValue, isOperator, List.length_cons]
  simp only [if_true, Bool.false_eq_true, if_false]
  omega

theorem Counts.operator {right left value : Float} {rest : List Float} {front : List Token}
    (counts : Counts (right :: left :: rest) front) (op : Operator) :
    Counts (value :: rest) (front ++ [.operator op]) := by
  refine ⟨?_, fun _ => List.cons_ne_nil _ _⟩
  have height := counts.height
  rw [surplus, List.length_cons, List.length_cons] at height
  rw [surplus, value_count_concat, operator_count_concat, List.length_cons]
  simp only [Token.isValue, Token.isOperator, if_true, Bool.false_eq_true, if_false]
  omega

theorem Counts.unrecognized {stack : List Float} {front : List Token}
    (counts : Counts stack front) (text : Text) :
    Counts stack (front ++ [.unrecognized text]) := by
  have values := value_count_concat front (.unrecognized text)
  have operators := operator_count_concat front (.unrecognized text)
  refine ⟨?_, ?_⟩
  · rw [surplus, values, operators]
    exact counts.height
  · rw [values]
    exact counts.some

theorem Counts.two_of_enough {stack : List Float} {front : List Token}
    (counts : Counts stack front) (enough : 2 ≤ surplus front) :
    ∃ right left rest, stack = right :: left :: rest := by
  rw [← counts.height] at enough
  rcases stack with _ | ⟨right, _ | ⟨left, rest⟩⟩
  · simp at enough
  · simp at enough
  · exact ⟨right, left, rest, rfl⟩

theorem Counts.step {stack : List Float} {front : List Token} {token : Token}
    (counts : Counts stack front)
    (answered : ∀ label address, token = .reference label address →
      ∃ value, answer label address = .ok value)
    (free : ∀ right left rest, token = .operator .over → stack = right :: left :: rest →
      (right == 0) = false)
    (enough : ∀ op, token = .operator op → 2 ≤ surplus front) :
    ∃ next, step answer stack token = .ok next ∧ Counts next (front ++ [token]) := by
  cases token with
  | number text value => exact ⟨value :: stack, rfl, counts.value value rfl rfl⟩
  | unrecognized text => exact ⟨stack, rfl, counts.unrecognized text⟩
  | reference label address =>
      obtain ⟨value, known⟩ := answered label address rfl
      exact ⟨value :: stack, step_reference_ok_iff.mpr ⟨value, known, rfl⟩,
        counts.value value rfl rfl⟩
  | operator op =>
      obtain ⟨right, left, rest, rfl⟩ := counts.two_of_enough (enough op rfl)
      have accepted : refuses op right = false := by
        rw [refuses]
        by_cases division : op = .over
        · rw [division]
          exact free right left rest (by rw [division]) rfl
        · rw [beq_eq_false_iff_ne.mpr division, Bool.false_and]
      refine ⟨op.onDoubles left right :: rest, ?_, counts.operator op⟩
      rw [step_operator_eq, accepted]
      rfl

/-- As long as every operator finds two values, the run goes on and its stack is counted. -/
theorem run_from_covered {tokens : List Token} (answered : AllAnswered answer tokens)
    (free : NoZeroReached answer tokens) (covered : Covered tokens) :
    ∃ stack, runFrom answer [] tokens = .ok stack ∧ Counts stack tokens := by
  induction tokens using List.reverseRecOn with
  | nil => exact ⟨[], rfl, rfl, fun some => absurd some (Nat.lt_irrefl 0)⟩
  | append_singleton front token induction =>
      obtain ⟨stack, ran, counts⟩ := induction answered.front free.front covered.front
      rw [run_from_concat ran]
      apply counts.step
      · rintro label address rfl
        exact answered label address (by simp)
      · rintro right left rest rfl rfl
        exact free front [] right left rest rfl ran
      · rintro op rfl
        exact covered front op [] rfl

/-- The first operator that finds fewer than two values ends the run. -/
theorem run_first_short {tokens : List Token} {op : Operator}
    (answered : AllAnswered answer tokens) (free : NoZeroReached answer tokens)
    (short : FirstShort tokens op) : run answer tokens = .error (.missingOperand op) := by
  obtain ⟨front, back, rfl, few, covered⟩ := short
  obtain ⟨stack, ran, counts⟩ := run_from_covered answered.front free.front covered
  have stepped : step answer stack (.operator op) = .error (.missingOperand op) := by
    rw [← counts.height] at few
    rcases stack with _ | ⟨right, _ | ⟨left, rest⟩⟩
    · rfl
    · rfl
    · rw [List.length_cons, List.length_cons] at few
      omega
  have stops : runFrom answer [] (front ++ [.operator op]) = .error (.missingOperand op) := by
    rw [run_from_concat ran, stepped]
  have whole : front ++ .operator op :: back = (front ++ [.operator op]) ++ back := by simp
  rw [whole]
  exact run_append_error stops

/-- How a run ends is how high its stack is in the end. -/
theorem run_covered {tokens : List Token} (answered : AllAnswered answer tokens)
    (free : NoZeroReached answer tokens) (covered : Covered tokens) :
    (valueCount tokens = 0 ∧ surplus tokens = 0 ∧ run answer tokens = .error .noValue) ∨
      (0 < valueCount tokens ∧ surplus tokens = 1 ∧ ∃ value, run answer tokens = .ok value) ∨
      (0 < valueCount tokens ∧ 2 ≤ surplus tokens ∧
        run answer tokens = .error (.leftOver (surplus tokens).toNat)) := by
  obtain ⟨stack, ran, height, some⟩ := run_from_covered answered free covered
  have ended : run answer tokens = result stack := by rw [run, ran]
  have balance : surplus tokens = valueCount tokens - operatorCount tokens := rfl
  rw [ended, ← height]
  rcases stack with _ | ⟨first, _ | ⟨second, rest⟩⟩
  · left
    refine ⟨?_, rfl, rfl⟩
    by_contra given
    exact some (Nat.pos_of_ne_zero given) rfl
  · rw [List.length_singleton] at height
    exact .inr (.inl ⟨by omega, rfl, first, rfl⟩)
  · rw [List.length_cons, List.length_cons] at height ⊢
    exact .inr (.inr ⟨by omega, by omega, rfl⟩)

end Run

end Machine

namespace Evaluation

open Machine (valueCount operatorCount surplus)

/-- Where every reference has a value and no division comes to a zero, an expression runs short at
the first operator before which there are not two values more than operators. If there is no such
operator, it ends without a value exactly if it holds no value, with the surplus left over exactly if
that is two or more, and with a value exactly if there is one value more than operators. -/
theorem outcome_is_counted [CallStack] {grid : Grid} {ceiling : Ceiling} {text : Text}
    (answered : Machine.AllAnswered (cellAnswer grid ceiling) (Token.scan text))
    (free : Machine.NoZeroReached (cellAnswer grid ceiling) (Token.scan text)) :
    (∀ op, expression grid ceiling text = .error (.missingOperand op) ↔
      Machine.FirstShort (Token.scan text) op) ∧
    ((∀ op, ¬Machine.FirstShort (Token.scan text) op) →
      (expression grid ceiling text = .error .noValue ↔ valueCount (Token.scan text) = 0) ∧
      (∀ count : Nat, expression grid ceiling text = .error (.leftOver count) ↔
        2 ≤ surplus (Token.scan text) ∧ count = surplus (Token.scan text)) ∧
      ((∃ value, expression grid ceiling text = .ok value) ↔
        valueCount (Token.scan text) = operatorCount (Token.scan text) + 1) ∧
      (valueCount (Token.scan text) = 0 ∨ 2 ≤ surplus (Token.scan text) ∨
        valueCount (Token.scan text) = operatorCount (Token.scan text) + 1)) := by
  have asked : expression grid ceiling text =
      Machine.run (cellAnswer grid ceiling) (Token.scan text) := rfl
  rw [asked]
  generalize Token.scan text = tokens at answered free
  have balance : surplus tokens = valueCount tokens - operatorCount tokens := rfl
  refine ⟨?_, ?_⟩
  · intro op
    constructor
    · intro failed
      rcases Machine.covered_or_first_short tokens with covered | ⟨other, short⟩
      · rcases Machine.run_covered answered free covered with
          ⟨_, _, ended⟩ | ⟨_, _, value, ended⟩ | ⟨_, _, ended⟩
        all_goals
          rw [ended] at failed
          cases failed
      · have ended := Machine.run_first_short answered free short
        rw [ended] at failed
        cases failed
        exact short
    · exact Machine.run_first_short answered free
  · intro noneShort
    have covered : Machine.Covered tokens :=
      (Machine.covered_or_first_short tokens).resolve_right fun found => found.elim noneShort
    rcases Machine.run_covered answered free covered with
      ⟨values, height, ended⟩ | ⟨values, height, value, ended⟩ | ⟨values, height, ended⟩
    · rw [ended]
      refine ⟨iff_of_true rfl values, ?_, iff_of_false (by simp) (by omega), .inl values⟩
      intro count
      exact iff_of_false (by simp) (by omega)
    · have one : valueCount tokens = operatorCount tokens + 1 := by omega
      rw [ended]
      refine ⟨iff_of_false (by simp) (by omega), ?_, iff_of_true ⟨value, rfl⟩ one, .inr (.inr one)⟩
      intro count
      exact iff_of_false (by simp) (by omega)
    · rw [ended]
      refine ⟨iff_of_false (by simp) (by omega), ?_, iff_of_false (by simp) (by omega),
        .inr (.inl height)⟩
      intro count
      constructor
      · intro same
        cases same
        exact ⟨height, Int.toNat_of_nonneg (by omega)⟩
      · rintro ⟨_, same⟩
        rw [← same, Int.toNat_natCast]

/-- A share of six, and what is left of it. -/
def shareSheet : Grid := ⟨[["6".toList, "A1 4 -".toList]], .comma⟩

theorem share_runs_short :
    Machine.AllAnswered (cellAnswer shareSheet .standard)
        (Token.scan "a1 B1 / each 3 - + 1 *".toList) ∧
      Machine.NoZeroReached (cellAnswer shareSheet .standard)
        (Token.scan "a1 B1 / each 3 - + 1 *".toList) ∧
      expression shareSheet .standard "a1 B1 / each 3 - + 1 *".toList =
        .error (.missingOperand .plus) ∧
      Machine.FirstShort (Token.scan "a1 B1 / each 3 - + 1 *".toList) .plus := by
  have ended : expression shareSheet .standard "a1 B1 / each 3 - + 1 *".toList =
      .error (.missingOperand .plus) := by decide +kernel
  have answered : Machine.AllAnswered (cellAnswer shareSheet .standard)
      (Token.scan "a1 B1 / each 3 - + 1 *".toList) := by decide +kernel
  have free : Machine.NoZeroReached (cellAnswer shareSheet .standard)
      (Token.scan "a1 B1 / each 3 - + 1 *".toList) := by
    apply Machine.no_zero_reached_of_run
    decide +kernel
  exact ⟨answered, free, ended, ((outcome_is_counted answered free).1 .plus).mp ended⟩

end Evaluation
end PostfixSheet
