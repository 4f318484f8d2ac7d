import PostfixSheet.Proofs.Evaluation.Reference
import PostfixSheet.Proofs.Machine.Outcome

/-!
# How far the path and the limits matter

The path, the number of cells that may still be entered and the room for their texts decide only
whether an evaluation is stopped by the recursion guard. Two evaluations of a cell that are not
stopped end alike, whatever they run under. A value is therefore a property of the cell; below a cell
with a value every referenced cell has one, so no cycle can be reached from it.
-/

namespace PostfixSheet.EvalError

/-- The errors of a path that has become too long, for the ceiling or for the call stack. -/
def IsLimit : EvalError → Prop
  | .tooDeep _ | .exhausted _ => True
  | .cycle _ | .noValue | .missingOperand _ | .leftOver _ | .missingCell _ | .divisionByZero => False

/-- The errors of the recursion guard. -/
def IsRecursion : EvalError → Prop
  | .cycle _ | .tooDeep _ | .exhausted _ => True
  | .noValue | .missingOperand _ | .leftOver _ | .missingCell _ | .divisionByZero => False

theorem IsRecursion.cases {error : EvalError} (guard : error.IsRecursion) :
    (∃ cells, error = .cycle cells) ∨ error.IsLimit := by
  cases error with
  | cycle cells => exact .inl ⟨cells, rfl⟩
  | tooDeep _ | exhausted _ => exact .inr trivial
  | noValue | missingOperand _ | leftOver _ | missingCell _ | divisionByZero => exact guard.elim

theorem IsLimit.cases {error : EvalError} (limit : error.IsLimit) :
    (∃ depth, error = .tooDeep depth) ∨ ∃ depth, error = .exhausted depth := by
  cases error with
  | tooDeep depth => exact .inl ⟨depth, rfl⟩
  | exhausted depth => exact .inr ⟨depth, rfl⟩
  | cycle _ | noValue | missingOperand _ | leftOver _ | missingCell _ | divisionByZero =>
      exact limit.elim

theorem IsLimit.is_recursion {error : EvalError} (limit : error.IsLimit) : error.IsRecursion := by
  rcases limit.cases with ⟨_, rfl⟩ | ⟨_, rfl⟩ <;> trivial

theorem eq_cycle_of_labels {error : EvalError} (cyclic : error.cycleLabels ≠ []) :
    ∃ cells, error = .cycle cells := by
  cases error with
  | cycle cells => exact ⟨cells, rfl⟩
  | tooDeep _ | exhausted _ | noValue | missingOperand _ | leftOver _ | missingCell _
  | divisionByZero => exact absurd rfl cyclic

theorem not_is_recursion_of_is_own {error : EvalError} (own : Machine.IsOwn error) :
    ¬error.IsRecursion := by
  cases error <;> simp_all [Machine.IsOwn, IsRecursion]

end PostfixSheet.EvalError

namespace PostfixSheet.Evaluation

open Relation (ReflTransGen TransGen)

variable {grid : Grid} {room : Room}

/-- The guard stops a text only at one of its references. -/
theorem run_recursion_error {remaining : Nat} {path : List Address} {tokens : List Token}
    {error : EvalError}
    (failed : Machine.run (answerOnPath grid room remaining path) tokens = .error error)
    (guard : error.IsRecursion) :
    ∃ label a, .reference label (some a) ∈ tokens ∧
      cellOnPath grid room remaining path a = .error error := by
  rcases Machine.run_error_cases failed with own | stopped
  · exact absurd guard (EvalError.not_is_recursion_of_is_own own)
  · obtain ⟨front, label, address, back, _, split, _, failed⟩ := stopped
    cases address with
    | none =>
        rw [answer_on_path_none] at failed
        cases failed
        exact guard.elim
    | some a => exact ⟨label, a, by simp [split], failed⟩

theorem answer_on_path_agree {left right : EvalError → Prop} {otherRoom : Room} {remaining other : Nat}
    {path second : List Address}
    (cells : ∀ a, Machine.Agree left right (cellOnPath grid room remaining path a)
      (cellOnPath grid otherRoom other second a)) (label : Text) (address : Option Address) :
    Machine.Agree left right (answerOnPath grid room remaining path label address)
      (answerOnPath grid otherRoom other second label address) := by
  cases address with
  | none => exact .inl rfl
  | some a => exact cells a

/-- A cell that is met again on the path is not looked up. -/
theorem cell_on_path_again {other : Grid} {path : List Address} {a : Address} (again : a ∈ path)
    (remaining more : Nat) (otherRoom : Room) :
    cellOnPath grid room remaining path a = cellOnPath other otherRoom more path a := by
  rw [cell_on_path_of_mem again, cell_on_path_of_mem again]

/-- Two evaluations of a cell end alike unless the recursion guard stops one of them. -/
theorem cell_on_path_agree (otherRoom : Room) (remaining other : Nat) (path second : List Address)
    (a : Address) :
    Machine.Agree EvalError.IsRecursion EvalError.IsRecursion
      (cellOnPath grid room remaining path a) (cellOnPath grid otherRoom other second a) := by
  induction remaining generalizing other path second a with
  | zero =>
      by_cases again : a ∈ path
      · exact .inr (.inl ⟨_, cell_on_path_of_mem again, trivial⟩)
      · exact .inr (.inl ⟨_, cell_on_path_zero again, trivial⟩)
  | succ remaining induction =>
      by_cases again : a ∈ path
      · exact .inr (.inl ⟨_, cell_on_path_of_mem again, trivial⟩)
      by_cases againSecond : a ∈ second
      · exact .inr (.inr ⟨_, cell_on_path_of_mem againSecond, trivial⟩)
      cases other with
      | zero => exact .inr (.inr ⟨_, cell_on_path_zero againSecond, trivial⟩)
      | succ other =>
          rw [cell_on_path_succ again, cell_on_path_succ againSecond]
          cases grid.get? a with
          | none => exact .inl rfl
          | some text =>
              by_cases space : path.length < room.bound (Token.scan text)
              · by_cases spaceSecond : second.length < otherRoom.bound (Token.scan text)
                · simp only [space, spaceSecond, if_true]
                  apply Machine.run_agree
                  intro label address _
                  apply answer_on_path_agree
                  exact induction other (path ++ [a]) (second ++ [a])
                · exact .inr (.inr ⟨_, if_neg spaceSecond, trivial⟩)
              · exact .inr (.inl ⟨_, if_neg space, trivial⟩)

theorem cell_on_path_ok {remaining : Nat} {path : List Address} {a : Address} {value : Float}
    (evaluated : cellOnPath grid room remaining path a = .ok value) :
    ∃ below text, remaining = below + 1 ∧ a ∉ path ∧ grid.get? a = some text ∧
      path.length < room.bound (Token.scan text) ∧
      Machine.run (answerOnPath grid room below (path ++ [a])) (Token.scan text) = .ok value := by
  by_cases again : a ∈ path
  · rw [cell_on_path_of_mem again] at evaluated
    cases evaluated
  cases remaining with
  | zero =>
      rw [cell_on_path_zero again] at evaluated
      cases evaluated
  | succ below =>
      rw [cell_on_path_succ again] at evaluated
      cases found : grid.get? a with
      | none =>
          rw [found] at evaluated
          cases evaluated
      | some text =>
          rw [found] at evaluated
          by_cases space : path.length < room.bound (Token.scan text)
          · exact ⟨below, text, rfl, again, rfl, space, (if_pos space).symm.trans evaluated⟩
          · cases (if_neg space).symm.trans evaluated

theorem answer_on_path_ok {remaining : Nat} {path : List Address} {label : Text}
    {address : Option Address} {value : Float}
    (answered : answerOnPath grid room remaining path label address = .ok value) :
    ∃ a, address = some a ∧ cellOnPath grid room remaining path a = .ok value := by
  cases address with
  | none => cases answered
  | some a => exact ⟨a, rfl, answered⟩

/-- Below a cell with a value, a reference is followed with one cell less to go. -/
theorem cell_on_path_ok_next {remaining : Nat} {path : List Address} {a b : Address} {value : Float}
    (evaluated : cellOnPath grid room remaining path a = .ok value) (refers : References grid a b) :
    ∃ below inner, remaining = below + 1 ∧ path.length < room.cells ∧
      cellOnPath grid room below (path ++ [a]) b = .ok inner := by
  obtain ⟨below, text, rfl, _, found, space, ran⟩ := cell_on_path_ok evaluated
  obtain ⟨same, label, foundAgain, member⟩ := refers
  obtain rfl : text = same := Option.some.inj (found.symm.trans foundAgain)
  obtain ⟨inner, answered⟩ := Machine.run_ok_answers ran member
  rw [Room.bound_of_reference member] at space
  exact ⟨below, inner, rfl, space, answered⟩

/-- A cell has a value if some evaluation of it ends with that value. -/
def HasValue (grid : Grid) (a : Address) (value : Float) : Prop :=
  ∃ room remaining path, cellOnPath grid room remaining path a = .ok value

/-- A cell with a value has that value under every path, unless the recursion guard stops it. -/
theorem HasValue.cell_on_path {a : Address} {value : Float} (worth : HasValue grid a value)
    (room : Room) (remaining : Nat) (path : List Address) :
    cellOnPath grid room remaining path a = .ok value ∨
      ∃ error, cellOnPath grid room remaining path a = .error error ∧ error.IsRecursion := by
  obtain ⟨otherRoom, other, second, evaluated⟩ := worth
  have agree : Machine.Agree EvalError.IsRecursion EvalError.IsRecursion
      (cellOnPath grid otherRoom other second a) (cellOnPath grid room remaining path a) :=
    cell_on_path_agree room other remaining second path a
  rcases agree with same | ⟨error, failed, _⟩ | stopped
  · exact .inl (same.symm.trans evaluated)
  · rw [evaluated] at failed
    cases failed
  · exact .inr stopped

/-- Every cell of a chain has been entered. -/
theorem chains_within_of_ok {remaining : Nat} {path : List Address} {a : Address} {value : Float}
    (evaluated : cellOnPath grid room remaining path a = .ok value) :
    ChainsWithin grid remaining a := by
  intro rest chain
  induction rest generalizing remaining path a value with
  | nil =>
      obtain ⟨below, _, rfl, _⟩ := cell_on_path_ok evaluated
      simp
  | cons b rest induction =>
      obtain ⟨refers, chain⟩ := List.isChain_cons_cons.mp chain
      obtain ⟨below, inner, rfl, _, evaluatedNext⟩ := cell_on_path_ok_next evaluated refers
      have shorter := induction evaluatedNext chain
      simp only [List.length_cons] at shorter ⊢
      omega

/-- The text of the last cell of a chain has been read, however long the chain is. -/
theorem read_of_ok {remaining : Nat} {path cells : List Address} {a last : Address} {value : Float}
    (evaluated : cellOnPath grid room remaining path a = .ok value)
    (starts : (cells ++ [last]).head? = some a)
    (chain : (cells ++ [last]).IsChain (References grid)) {text : Text}
    (found : grid.get? last = some text) :
    path.length + cells.length < room.bound (Token.scan text) := by
  induction cells generalizing remaining path a value with
  | nil =>
      obtain rfl : last = a := Option.some.inj starts
      obtain ⟨_, same, _, _, foundAgain, space, _⟩ := cell_on_path_ok evaluated
      obtain rfl : text = same := Option.some.inj (found.symm.trans foundAgain)
      exact space
  | cons first cells induction =>
      obtain rfl : first = a := Option.some.inj starts
      obtain ⟨refers, chain⟩ := List.isChain_cons.mp chain
      obtain ⟨b, second⟩ := exists_head_append cells last
      obtain ⟨_, _, rfl, _, evaluatedNext⟩ := cell_on_path_ok_next evaluated (refers b second)
      have further := induction evaluatedNext second chain
      simp only [List.length_append, List.length_cons, List.length_nil] at further ⊢
      omega

/-- No cycle can be reached from a cell with a value. -/
theorem HasValue.not_reaches_cycle {a : Address} {value : Float} (worth : HasValue grid a value) :
    ¬ReachesCycle grid a := by
  obtain ⟨room, remaining, path, evaluated⟩ := worth
  exact (chains_within_of_ok evaluated).not_reaches_cycle

end PostfixSheet.Evaluation
