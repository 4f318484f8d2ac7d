import PostfixSheet.Evaluation.Cell
import PostfixSheet.Journal.Event
import PostfixSheet.Number

/-!
Working out a whole sheet. Every cell is evaluated on the grid as it was read, and the results go
into a grid of their own, so no cell sees the result of another and the order of the cells does not
matter. A cell without a value shows the error token; it never stops the pass.
-/

namespace PostfixSheet

/-- A grid with the rules for working it out, and the cells that had no value in the last pass. -/
structure Sheet where
  grid : Grid
  ceiling : Ceiling
  errorToken : Text
  failures : List (Address × EvalError)

namespace Sheet

/-- The text that stands for a failed cell where no other is asked for. -/
def standardErrorToken : Text := "#ERR".toList

/-- A sheet on which no pass has been made. -/
def ofGrid (grid : Grid) (ceiling : Ceiling) (errorToken : Text) : Sheet :=
  ⟨grid, ceiling, errorToken, []⟩

def evaluate [CallStack] (sheet : Sheet) (a : Address) : Except EvalError Float :=
  Evaluation.cell sheet.grid sheet.ceiling a

def textOf (sheet : Sheet) : Except EvalError Float → Text
  | .ok value => Number.text value
  | .error _ => sheet.errorToken

def display [CallStack] (sheet : Sheet) (a : Address) : Text := sheet.textOf (sheet.evaluate a)

/-- The sheet with another text in one cell of its grid; nothing if there is no such cell. -/
def set? (sheet : Sheet) (a : Address) (value : Text) : Option Sheet :=
  (sheet.grid.set? a value).map fun grid => { sheet with grid }

/-- All cells with their results, row by row and from left to right. -/
def results [CallStack] (sheet : Sheet) : List (Address × Except EvalError Float) :=
  sheet.grid.addresses.map fun a => (a, sheet.evaluate a)

/-- The grid of what the cells show. -/
def outputOf (sheet : Sheet) (results : List (Address × Except EvalError Float)) : Grid :=
  results.foldl (fun grid (a, result) => (grid.set? a (sheet.textOf result)).getD grid) sheet.grid

def failuresOf (results : List (Address × Except EvalError Float)) : List (Address × EvalError) :=
  results.filterMap fun (a, result) => match result with
    | .ok _ => none
    | .error error => some (a, error)

/-- The report on one cell without a value. A cycle is reported with the cells on it. -/
def failureReport (a : Address) (error : EvalError) : Report :=
  let cell : Signs × Json := ("cell".toList, .string a.label)
  match error.cycleLabels with
  | [] => ⟨.warning, .cellError, error.message, [cell], some error.kind⟩
  | labels =>
      ⟨.warning, .cycleDetected, error.message,
        [cell, ("cycle_path".toList, .array (labels.map fun label => .string label.signs))],
        some error.kind⟩

def startReport (grid : Grid) : Report :=
  ⟨.info, .sheetStarted, "Sheet evaluation started".toList,
    [("rows".toList, .integer grid.height), ("cols".toList, .integer grid.width)], none⟩

def endReport (cells failures : Nat) : Report :=
  ⟨.info, .sheetCompleted, "Sheet evaluation completed".toList,
    [("cells".toList, .integer cells), ("errors".toList, .integer failures)], none⟩

/-- What a pass leaves: the sheet with its failures, the grid of results, and the reports in the
order in which they are made. -/
structure Pass where
  sheet : Sheet
  output : Grid
  reports : List Report

/-- What a pass leaves whose cells have the given results. -/
def passOf (sheet : Sheet) (results : List (Address × Except EvalError Float)) : Pass :=
  let failures := failuresOf results
  { sheet := { sheet with failures }
    output := sheet.outputOf results
    reports := startReport sheet.grid
      :: failures.map (fun (a, error) => failureReport a error)
      ++ [endReport results.length failures.length] }

def pass [CallStack] (sheet : Sheet) : Pass := sheet.passOf sheet.results

end Sheet
end PostfixSheet
