import PostfixSheet.Proofs.Evaluation.Calls
import PostfixSheet.Proofs.Evaluation.Ceiling
import PostfixSheet.Proofs.Grid.Cells
import PostfixSheet.Proofs.Text.Pieces
import PostfixSheet.Proofs.Token.Kind

/-!
# An evaluator in use

One evaluator is asked for texts and for cells, and between the requests its grid is edited. A text
that stands in no cell is run by the evaluator itself; its references lead into cells one after the
other, and each call begins with the cells in progress that the one before has left. A call leaves
none, whether it ends with a value or with an error from deep inside. Where the call stack has run
out some may be left on the stack of cells, but the evaluator clears both before it answers, so no
request sees anything of those before it but what they made of the grid.
-/

namespace PostfixSheet

open Evaluation (Asks Progress)

namespace Evaluation

variable [CallStack]

/-- A text that stands in no cell is run with some values on the stack. -/
inductive Runs (grid : Grid) (ceiling : Ceiling) :
    Progress → List Float → List Token → Except EvalError Float → Progress → Prop
  | done {p : Progress} {values : List Float} :
      Runs grid ceiling p values [] (Machine.result values) p
  | answered {p q r : Progress} {values : List Float} {label : Text} {a : Address}
      {rest : List Token} {value : Float} {result : Except EvalError Float}
      (led : Evaluator.Leads grid CallStack.roomInText ceiling ⟨p, [], .call a⟩
        ⟨q, [], .ended (.ok value)⟩)
      (further : Runs grid ceiling q (value :: values) rest result r) :
      Runs grid ceiling p values (.reference label (some a) :: rest) result r
  | refused {p : Progress} {values : List Float} {label : Text} {a : Address}
      {rest : List Token} {error : EvalError} {e : Evaluator}
      (led : Evaluator.Leads grid CallStack.roomInText ceiling ⟨p, [], .call a⟩ e)
      (answers : e.answer? = some (.error error)) :
      Runs grid ceiling p values (.reference label (some a) :: rest) (.error error) e.progress
  | taken {p r : Progress} {values next : List Float} {token : Token} {rest : List Token}
      {result : Except EvalError Float} (own : ∀ label a, token ≠ .reference label (some a))
      (stepped : Machine.step Evaluator.noCell values token = .ok next)
      (further : Runs grid ceiling p next rest result r) :
      Runs grid ceiling p values (token :: rest) result r
  | failed {p : Progress} {values : List Float} {token : Token} {rest : List Token}
      {error : EvalError} (own : ∀ label a, token ≠ .reference label (some a))
      (stepped : Machine.step Evaluator.noCell values token = .error error) :
      Runs grid ceiling p values (token :: rest) (.error error) p

/-- An evaluator is asked for a text, whatever it holds: that is cleared before and after. -/
inductive AsksText (grid : Grid) (ceiling : Ceiling) (expression : Text) :
    Progress → Except EvalError Float → Progress → Prop
  | asked {before left : Progress} {result : Except EvalError Float}
      (ran : Runs grid ceiling .none [] (Token.scan expression) result left) :
      AsksText grid ceiling expression before result .none

variable {grid : Grid} {ceiling : Ceiling}

def LeavesNone (result : Except EvalError Float) (left : Progress) : Prop :=
  left.cells = ∅ ∧ (left.stack = [] ∨ result = .error (.exhausted (CallStack.roomInText.cells + 1)))

/-- Every call in a text begins with no cell in progress. -/
theorem runs_result {p left : Progress} (idle : Progress.none.Same p)
    (shallow : p.deepest ≤ CallStack.roomInText.cells + 1) {values : List Float}
    {tokens : List Token} {result : Except EvalError Float} (ran : Runs grid ceiling p values tokens result left) :
    result = Evaluator.resultFrom (cellAnswer grid ceiling) values tokens ∧
      LeavesNone result left := by
  induction ran with
  | done => exact ⟨rfl, idle.cells, .inl idle.stack⟩
  | @answered p q r values label a rest value result led further induction =>
      obtain ⟨e, ledToo, comes⟩ := leads_answer grid _ ceiling idle shallow a
      obtain rfl := Evaluator.eq_of_leads_answer led rfl ledToo comes.answer
      rw [Evaluator.result_from_reference, cellAnswer, answer_on_path_some]
      generalize cellOnPath grid CallStack.roomInText ceiling.cells [] a = answer at comes
      cases comes with
      | ended same shallow => exact induction same shallow
  | @refused p values label a rest error e led answers =>
      obtain ⟨e, ledToo, comes⟩ := leads_answer grid _ ceiling idle shallow a
      obtain rfl := Evaluator.eq_of_leads_answer led answers ledToo comes.answer
      have same := comes.answer.symm.trans answers
      rw [Evaluator.result_from_reference, cellAnswer, answer_on_path_some]
      generalize cellOnPath grid CallStack.roomInText ceiling.cells [] a = answer at comes same
      obtain rfl := Option.some.inj same
      cases comes with
      | ended same _ => exact ⟨rfl, same.cells, .inl same.stack⟩
      | givenUp cells _ => exact ⟨rfl, cells, .inr rfl⟩
  | taken own stepped further induction =>
      rw [Evaluator.result_from_own own fun _ => rfl, stepped]
      exact induction idle shallow
  | failed own stepped =>
      rw [Evaluator.result_from_own own fun _ => rfl, stepped]
      exact ⟨rfl, idle.cells, .inl idle.stack⟩

theorem exists_run (grid : Grid) (ceiling : Ceiling) {p : Progress} (idle : Progress.none.Same p)
    (shallow : p.deepest ≤ CallStack.roomInText.cells + 1) (values : List Float)
    (tokens : List Token) :
    ∃ result left, Runs grid ceiling p values tokens result left := by
  induction tokens generalizing p values with
  | nil => exact ⟨_, _, .done⟩
  | cons token rest induction =>
      by_cases called : ∃ label a, token = .reference label (some a)
      · obtain ⟨label, a, rfl⟩ := called
        obtain ⟨e, led, comes⟩ := leads_answer grid _ ceiling idle shallow a
        have answers := comes.answer
        generalize cellOnPath grid CallStack.roomInText ceiling.cells [] a = answer
          at comes answers
        cases answer with
        | error error => exact ⟨_, _, .refused led answers⟩
        | ok value =>
            cases comes with
            | ended same shallow =>
                obtain ⟨result, left, further⟩ := induction same shallow (value :: values)
                exact ⟨result, left, .answered led further⟩
      · have own : ∀ label a, token ≠ .reference label (some a) := by
          intro label a same
          exact called ⟨label, a, same⟩
        cases stepped : Machine.step Evaluator.noCell values token with
        | error error => exact ⟨_, _, .failed own stepped⟩
        | ok next =>
            obtain ⟨result, left, further⟩ := induction idle shallow next
            exact ⟨result, left, .taken own stepped further⟩

theorem runs_expression {text : Text} {left : Progress} {result : Except EvalError Float}
    (ran : Runs grid ceiling .none [] (Token.scan text) result left) :
    result = expression grid ceiling text ∧ LeavesNone result left :=
  runs_result (.refl .none) (Nat.zero_le _) ran

theorem asks_text_iff {text : Text} {before after : Progress} {result : Except EvalError Float} :
    AsksText grid ceiling text before result after ↔
      result = expression grid ceiling text ∧ after = .none := by
  constructor
  · rintro ⟨ran⟩
    exact ⟨(runs_expression ran).1, rfl⟩
  · rintro ⟨rfl, rfl⟩
    obtain ⟨result, left, ran⟩ :=
      exists_run grid ceiling (.refl .none) (Nat.zero_le _) [] (Token.scan text)
    obtain rfl := (runs_expression ran).1
    exact .asked ran

theorem none_left_of_ended {a : Address} {left : Progress} {result : Except EvalError Float}
    (led : Evaluator.Leads grid CallStack.room ceiling ⟨.none, [], .call a⟩
      ⟨left, [], .ended result⟩) : left.cells = ∅ ∧ left.stack = [] := by
  obtain ⟨e, ledToo, comes⟩ :=
    leads_answer grid CallStack.room ceiling (.refl .none) (Nat.zero_le _) a
  have same := Evaluator.eq_of_leads_answer led rfl ledToo comes.answer
  generalize cellOnPath grid CallStack.room ceiling.cells [] a = answer at comes
  cases comes with
  | ended idle _ =>
      obtain rfl : left = _ := congrArg Evaluator.progress same
      exact ⟨idle.cells, idle.stack⟩
  | givenUp _ _ => cases congrArg Evaluator.control same

theorem expression_label {a : Address} (nameable : a.Nameable) :
    expression grid ceiling a.label =
      cellOnPath grid CallStack.roomInText ceiling.cells [] a :=
  run_label (cellAnswer grid ceiling) nameable

/-- A cell that a label asks for stands deeper than one that is asked for itself, and ends alike if
the call stack holds that too. -/
theorem expression_label_cases (grid : Grid) (ceiling : Ceiling) {a : Address}
    (nameable : a.Nameable) :
    expression grid ceiling a.label = cell grid ceiling a ∨
      CallStack.roomInText.cells < grid.addresses.length ∧
        expression grid ceiling a.label = .error (.exhausted (CallStack.roomInText.cells + 1)) := by
  rw [expression_label nameable]
  rcases cell_answer_agree grid ceiling a.label a with same | ⟨_, failed, depth, rfl⟩ | ⟨_, _, never⟩
  · exact .inl same
  · obtain ⟨rfl, bound⟩ := exhausted_within_cells failed
    exact .inr ⟨bound, failed⟩
  · exact never.elim

end Evaluation

/-- What an evaluator is asked for, or an edit of its grid in between. -/
inductive Request
  | text (expression : Text)
  | cell (a : Address)
  | edit (a : Address) (value : Text)

namespace Request

/-- The grid after a request. An edit of a cell that is not there changes nothing. -/
def gridAfter (grid : Grid) : Request → Grid
  | .text _ | .cell _ => grid
  | .edit a value => (grid.set? a value).getD grid

def answer [CallStack] (grid : Grid) (ceiling : Ceiling) : Request → Option (Except EvalError Float)
  | .text expression => some (Evaluation.expression grid ceiling expression)
  | .cell a => some (Evaluation.cell grid ceiling a)
  | .edit _ _ => none

end Request

/-- An evaluator with the grid that it reads and with the cells in progress that it holds. -/
structure InUse where
  grid : Grid
  progress : Progress

namespace InUse

def new (grid : Grid) : InUse := ⟨grid, .none⟩

section Serving

variable [CallStack]

inductive Serves (ceiling : Ceiling) :
    InUse → Request → Option (Except EvalError Float) → InUse → Prop
  | text {grid : Grid} {p left : Progress} {expression : Text} {result : Except EvalError Float}
      (asked : Evaluation.AsksText grid ceiling expression p result left) :
      Serves ceiling ⟨grid, p⟩ (.text expression) (some result) ⟨grid, left⟩
  | cell {grid : Grid} {p left : Progress} {a : Address} {result : Except EvalError Float}
      (asked : Asks grid ceiling a p result left) :
      Serves ceiling ⟨grid, p⟩ (.cell a) (some result) ⟨grid, left⟩
  | edit {grid : Grid} {p : Progress} {a : Address} {value : Text} :
      Serves ceiling ⟨grid, p⟩ (.edit a value) none ⟨(grid.set? a value).getD grid, p⟩

/-- A history of requests with the answers to them, the first one first. -/
inductive Follows (ceiling : Ceiling) :
    InUse → List Request → List (Option (Except EvalError Float)) → InUse → Prop
  | nil {s : InUse} : Follows ceiling s [] [] s
  | cons {s t u : InUse} {request : Request} {requests : List Request}
      {answer : Option (Except EvalError Float)} {answers : List (Option (Except EvalError Float))}
      (served : Serves ceiling s request answer t) (further : Follows ceiling t requests answers u) :
      Follows ceiling s (request :: requests) (answer :: answers) u

variable {grid : Grid} {ceiling : Ceiling}

theorem serves_new_iff {request : Request} {answer : Option (Except EvalError Float)} {t : InUse} :
    Serves ceiling (new grid) request answer t ↔
      answer = request.answer grid ceiling ∧ t = new (request.gridAfter grid) := by
  constructor
  · intro served
    cases served with
    | text asked =>
        obtain ⟨rfl, rfl⟩ := Evaluation.asks_text_iff.mp asked
        exact ⟨rfl, rfl⟩
    | cell asked =>
        obtain ⟨rfl, rfl⟩ := Evaluation.asks_iff.mp asked
        exact ⟨rfl, rfl⟩
    | edit => exact ⟨rfl, rfl⟩
  · rintro ⟨rfl, rfl⟩
    cases request with
    | text expression => exact .text (Evaluation.asks_text_iff.mpr ⟨rfl, rfl⟩)
    | cell a => exact .cell (Evaluation.asks_iff.mpr ⟨rfl, rfl⟩)
    | edit a value => exact .edit

def answersFrom (ceiling : Ceiling) :
    Grid → List Request → List (Option (Except EvalError Float))
  | _, [] => []
  | grid, request :: requests =>
      request.answer grid ceiling :: answersFrom ceiling (request.gridAfter grid) requests

theorem get_answers_from (grid : Grid) (history : List Request) (i : Nat) :
    (answersFrom ceiling grid history)[i]? = history[i]?.map fun request =>
      request.answer ((history.take i).foldl Request.gridAfter grid) ceiling := by
  induction history generalizing grid i with
  | nil => rfl
  | cons request history induction =>
      cases i with
      | zero => rfl
      | succ i =>
          rw [answersFrom, List.getElem?_cons_succ, List.getElem?_cons_succ, List.take_succ_cons,
            List.foldl_cons]
          exact induction (request.gridAfter grid) i

theorem follows_new_iff {history : List Request}
    {answers : List (Option (Except EvalError Float))} {t : InUse} :
    Follows ceiling (new grid) history answers t ↔
      answers = answersFrom ceiling grid history ∧
        t = new (history.foldl Request.gridAfter grid) := by
  induction history generalizing grid answers with
  | nil =>
      constructor
      · rintro ⟨⟩
        exact ⟨rfl, rfl⟩
      · rintro ⟨rfl, rfl⟩
        exact .nil
  | cons request history induction =>
      constructor
      · intro followed
        cases followed with
        | cons served further =>
            obtain ⟨rfl, rfl⟩ := serves_new_iff.mp served
            obtain ⟨rfl, rfl⟩ := induction.mp further
            exact ⟨rfl, rfl⟩
      · rintro ⟨rfl, rfl⟩
        exact .cons (serves_new_iff.mpr ⟨rfl, rfl⟩) (induction.mpr ⟨rfl, rfl⟩)

end Serving

/-- Two cells that refer to each other, and one that divides by zero. -/
def brokenSheet : Grid := ⟨[["B1 1 +".toList, "A1 2 *".toList, "4 0 /".toList]], .comma⟩

/-- A cycle and a division by zero are met before the third cell is mended and asked for. -/
def mending : List Request :=
  [.cell ⟨0, 0⟩, .text "2 C1 +".toList, .edit ⟨2, 0⟩ "5".toList, .text "c1 2 *".toList]

end InUse
end PostfixSheet
