import PostfixSheet.Proofs.Evaluation.Agreement
import PostfixSheet.Proofs.Sheet.Snapshot
import PostfixSheet.Proofs.Token.Condensed

/-!
# Only recognized tokens matter

An evaluation sees of every cell that it enters only the recognized tokens. Grids that have the same
ones in every cell are worth the same there, so any of the cells can be condensed: every cell and
every expression ends as before, with the same value or the same error, and a pass shows, records and
reports the same.
-/

namespace PostfixSheet

namespace Evaluation

/-- In every cell the texts of two grids have the same recognized tokens. -/
def SameTokens (grid other : Grid) : Prop :=
  ∀ a, (other.get? a).map Token.recognized = (grid.get? a).map Token.recognized

variable {grid other : Grid}

theorem run_of_same_tokens {answer : Machine.Answer} {text otherText : Text}
    (same : Token.recognized otherText = Token.recognized text) :
    Machine.run answer (Token.scan otherText) = Machine.run answer (Token.scan text) := by
  rw [← Machine.run_recognized answer otherText, same, Machine.run_recognized]

/-- Words that mean nothing refer to nothing. -/
theorem bound_of_same_tokens {text otherText : Text}
    (same : Token.recognized otherText = Token.recognized text) (room : Room) :
    room.bound (Token.scan otherText) = room.bound (Token.scan text) := by
  have asks : ∀ token : Token, (token.isRecognized && token.asks) = token.asks := by
    intro token
    cases token <;> rfl
  have recognized : ∀ text, (Token.recognized text).any Token.asks =
      (Token.scan text).any Token.asks := by
    intro text
    simp only [Token.recognized, List.any_filter, asks]
  rw [Room.bound, Room.bound, ← recognized otherText, same, recognized text]

theorem answer_on_path_congr {room : Room} {remaining : Nat} {path : List Address}
    (cells : ∀ a, cellOnPath other room remaining path a = cellOnPath grid room remaining path a) :
    answerOnPath other room remaining path = answerOnPath grid room remaining path := by
  funext label address
  cases address with
  | none => rfl
  | some next => exact cells next

theorem cell_on_path_of_same_tokens (same : SameTokens grid other) (room : Room) (remaining : Nat)
    (path : List Address) (a : Address) :
    cellOnPath other room remaining path a = cellOnPath grid room remaining path a := by
  induction remaining generalizing path a with
  | zero =>
      by_cases again : a ∈ path
      · exact cell_on_path_again again 0 0 room
      · rw [cell_on_path_zero again, cell_on_path_zero again]
  | succ remaining induction =>
      by_cases again : a ∈ path
      · exact cell_on_path_again again (remaining + 1) (remaining + 1) room
      · have here := same a
        rw [cell_on_path_succ again, cell_on_path_succ again,
          answer_on_path_congr (induction (path ++ [a]))]
        cases found : grid.get? a with
        | none =>
            rw [found, Option.map_none, Option.map_eq_none_iff] at here
            rw [here]
        | some text =>
            rw [found, Option.map_some] at here
            obtain ⟨otherText, foundOther, sameTokens⟩ := Option.map_eq_some_iff.mp here
            rw [foundOther]
            simp only [run_of_same_tokens sameTokens, bound_of_same_tokens sameTokens]

theorem cell_of_same_tokens [CallStack] (same : SameTokens grid other) (ceiling : Ceiling)
    (a : Address) : cell other ceiling a = cell grid ceiling a :=
  cell_on_path_of_same_tokens same CallStack.room ceiling.cells [] a

theorem expression_of_same_tokens [CallStack] (same : SameTokens grid other) (ceiling : Ceiling)
    {text otherText : Text} (sameText : Token.recognized otherText = Token.recognized text) :
    expression other ceiling otherText = expression grid ceiling text := by
  rw [expression, expression, cellAnswer, cellAnswer,
    answer_on_path_congr (cell_on_path_of_same_tokens same _ ceiling.cells [])]
  exact run_of_same_tokens sameText

end Evaluation

namespace Grid

/-- The grid with some of its cells condensed. -/
def condensedAt (grid : Grid) (cells : List Address) : Grid :=
  grid.putEach (fun a => Token.condensed ((grid.get? a).getD [])) cells

theorem get_condensed_at (grid : Grid) (cells : List Address) (a : Address) :
    (grid.condensedAt cells).get? a =
      if a ∈ cells then (grid.get? a).map Token.condensed else grid.get? a := by
  rw [condensedAt, get_put_each]
  cases grid.get? a <;> rfl

theorem same_tokens_condensed_at (grid : Grid) (cells : List Address) :
    Evaluation.SameTokens grid (grid.condensedAt cells) := by
  intro a
  rw [get_condensed_at]
  split
  · rw [Option.map_map]
    congr 1
    funext text
    exact Token.recognized_condensed text
  · rfl

theorem height_of_shape {one other : Grid} (same : one.shape = other.shape) :
    one.height = other.height := by
  simpa [shape, height] using congrArg List.length same

theorem width_of_shape {one other : Grid} (same : one.shape = other.shape) :
    one.width = other.width := by
  have longest : ∀ grid : Grid, grid.width = grid.shape.foldl max 0 := by
    intro grid
    rw [width, shape, List.foldl_map]
  rw [longest, longest, same]

theorem get_is_some_of_shape {one other : Grid} (same : one.shape = other.shape) (a : Address) :
    (one.get? a).isSome = (other.get? a).isSome := by
  rw [Bool.eq_iff_iff, Option.isSome_iff_exists, Option.isSome_iff_exists, ← mem_addresses_iff,
    ← mem_addresses_iff, addresses_of_shape same]

end Grid

namespace Sheet

/-- Two passes leave and report the same. -/
structure Pass.Same (one other : Pass) : Prop where
  output : one.output = other.output
  failures : one.sheet.failures = other.sheet.failures
  reports : one.reports = other.reports

/-- A pass makes no use of the texts of the grid but through what the cells are worth. -/
theorem pass_same [CallStack] {one other : Sheet}
    (separator : one.grid.separator = other.grid.separator)
    (shape : one.grid.shape = other.grid.shape) (errorToken : one.errorToken = other.errorToken)
    (evaluate : ∀ a, one.evaluate a = other.evaluate a) : one.pass.Same other.pass := by
  have results : one.results = other.results := by
    rw [Sheet.results, Sheet.results, Grid.addresses_of_shape shape, funext evaluate]
  refine ⟨?_, congrArg failuresOf results, ?_⟩
  · apply Grid.eq_of_get
    · rw [pass_output, pass_output, Grid.separator_put_each, Grid.separator_put_each, separator]
    · rw [pass_output, pass_output, Grid.shape_put_each, Grid.shape_put_each, shape]
    · intro a
      have display : one.display a = other.display a := by
        rw [Sheet.display, Sheet.display, evaluate]
        unfold textOf
        rw [errorToken]
      have inside := Grid.get_is_some_of_shape shape a
      rw [get_output, get_output, display]
      cases found : one.grid.get? a <;> cases foundOther : other.grid.get? a <;> simp_all
  · have start : startReport one.grid = startReport other.grid := by
      rw [startReport, startReport, Grid.height_of_shape shape, Grid.width_of_shape shape]
    change (one.passOf one.results).reports = (other.passOf other.results).reports
    rw [passOf, passOf, results, start]

end Sheet

example : Token.condensed "  a1 plus b007\t* ".toList = "A1 B007 *".toList := by decide +kernel

end PostfixSheet
