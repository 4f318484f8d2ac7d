import PostfixSheet.Proofs.Evaluation.Calls
import PostfixSheet.Proofs.Sheet.Snapshot

/-!
# A sheet in use

A sheet is worked out, asked for single cells and edited, in any order and as often as wanted, with
one evaluator for all of it and a journal that takes the reports or does not. What it went through
before a pass does not show in the pass: every pass shows the grid as it stands.
-/

namespace PostfixSheet

open Evaluation (Asks Progress)

inductive Call
  | process
  | evaluate (a : Address)
  | display (a : Address)
  | set (a : Address) (value : Text)

/-- What a call makes of the grid: only editing changes it. -/
def Call.edit (grid : Grid) : Call → Grid
  | .set a value => grid.put a value
  | .process | .evaluate _ | .display _ => grid

/-- A sheet in use, what its evaluator holds, and the workspace that takes the reports. -/
structure Session where
  workspace : Workspace
  sheet : Sheet
  progress : Progress

namespace Session

def start (w : Workspace) (grid : Grid) (ceiling : Ceiling) (errorToken : Text) : Session :=
  ⟨w, Sheet.ofGrid grid ceiling errorToken, .none⟩

variable [CallStack]

/-- One evaluator is asked for one cell after another. -/
inductive AsksEach (grid : Grid) (ceiling : Ceiling) : Progress → List Address →
    List (Address × Except EvalError Float) → Progress → Prop
  | nil (p : Progress) : AsksEach grid ceiling p [] [] p
  | cons {p q r : Progress} {a : Address} {result : Except EvalError Float}
      {rest : List Address} {results : List (Address × Except EvalError Float)}
      (asked : Asks grid ceiling a p result q) (further : AsksEach grid ceiling q rest results r) :
      AsksEach grid ceiling p (a :: rest) ((a, result) :: results) r

/-- A pass over all cells of a sheet, and what the evaluator holds after it. -/
def Passes (s : Session) (outcome : Workspace × Sheet × Grid) (left : Progress) : Prop :=
  ∃ results, AsksEach s.sheet.grid s.sheet.ceiling s.progress s.sheet.grid.addresses results left ∧
    outcome = s.workspace.reportPass (s.sheet.passOf results)

inductive Serves : Session → Call → Session → Prop
  | process {s : Session} {workspace : Workspace} {sheet : Sheet} {output : Grid}
      {left : Progress} (passed : s.Passes (workspace, sheet, output) left) :
      Serves s .process ⟨workspace, sheet, left⟩
  | evaluate {s : Session} {a : Address} {result : Except EvalError Float} {left : Progress}
      (asked : Asks s.sheet.grid s.sheet.ceiling a s.progress result left) :
      Serves s (.evaluate a) { s with progress := left }
  | display {s : Session} {a : Address} {result : Except EvalError Float} {left : Progress}
      (asked : Asks s.sheet.grid s.sheet.ceiling a s.progress result left) :
      Serves s (.display a) { s with progress := left }
  | set {s : Session} {a : Address} {value : Text} :
      Serves s (.set a value) { s with sheet := (s.sheet.set? a value).getD s.sheet }

/-- A history of calls, the first one first. -/
inductive Follows : Session → List Call → Session → Prop
  | nil (s : Session) : Follows s [] s
  | cons {s t u : Session} {call : Call} {calls : List Call} (served : Serves s call t)
      (further : Follows t calls u) : Follows s (call :: calls) u

/-- What a call makes of a session. -/
def after (s : Session) : Call → Session
  | .process =>
      let (workspace, sheet, _) := s.workspace.process s.sheet
      { s with workspace, sheet }
  | .evaluate _ | .display _ => s
  | .set a value => { s with sheet := (s.sheet.set? a value).getD s.sheet }

theorem asks_each_iff {grid : Grid} {ceiling : Ceiling} {order : List Address}
    {results : List (Address × Except EvalError Float)} {left : Progress} :
    AsksEach grid ceiling .none order results left ↔
      results = order.map (fun a => (a, Evaluation.cell grid ceiling a)) ∧ left = .none := by
  induction order generalizing results with
  | nil =>
      constructor
      · rintro ⟨⟩
        exact ⟨rfl, rfl⟩
      · rintro ⟨rfl, rfl⟩
        exact .nil _
  | cons a order induction =>
      constructor
      · intro each
        cases each with
        | cons asked further =>
            obtain ⟨rfl, rfl⟩ := Evaluation.asks_iff.mp asked
            obtain ⟨rfl, rfl⟩ := induction.mp further
            exact ⟨rfl, rfl⟩
      · rintro ⟨rfl, rfl⟩
        exact .cons (Evaluation.asks_iff.mpr ⟨rfl, rfl⟩) (induction.mpr ⟨rfl, rfl⟩)

variable {s t : Session}

theorem passes_iff (idle : s.progress = .none) {outcome : Workspace × Sheet × Grid}
    {left : Progress} :
    s.Passes outcome left ↔ outcome = s.workspace.process s.sheet ∧ left = .none := by
  rw [Passes, idle]
  constructor
  · rintro ⟨results, asked, rfl⟩
    obtain ⟨rfl, rfl⟩ := asks_each_iff.mp asked
    exact ⟨rfl, rfl⟩
  · rintro ⟨rfl, rfl⟩
    exact ⟨s.sheet.results, asks_each_iff.mpr ⟨rfl, rfl⟩, rfl⟩

theorem serves_iff (idle : s.progress = .none) {call : Call} :
    s.Serves call t ↔ t = s.after call := by
  obtain ⟨workspace, sheet, progress⟩ := s
  obtain rfl : progress = .none := idle
  constructor
  · intro served
    cases served with
    | process passed =>
        obtain ⟨same, rfl⟩ := (passes_iff rfl).mp passed
        rw [after, ← same]
    | evaluate asked | display asked =>
        obtain ⟨_, rfl⟩ := Evaluation.asks_iff.mp asked
        rfl
    | set => rfl
  · rintro rfl
    cases call with
    | process => exact .process ((passes_iff rfl).mpr ⟨rfl, rfl⟩)
    | evaluate a => exact .evaluate (Evaluation.asks_iff.mpr ⟨rfl, rfl⟩)
    | display a => exact .display (Evaluation.asks_iff.mpr ⟨rfl, rfl⟩)
    | set a value => exact .set

theorem after_idle (idle : s.progress = .none) (call : Call) : (s.after call).progress = .none := by
  cases call <;> exact idle

/-- A call leaves everything that a pass depends on as it is, up to editing. -/
theorem after_sheet (call : Call) :
    (s.after call).sheet.grid = call.edit s.sheet.grid ∧
      (s.after call).sheet.ceiling = s.sheet.ceiling ∧
        (s.after call).sheet.errorToken = s.sheet.errorToken := by
  cases call with
  | process | evaluate _ | display _ => exact ⟨rfl, rfl, rfl⟩
  | set a value =>
      rw [after, Sheet.set_eq_put]
      exact ⟨rfl, rfl, rfl⟩

theorem follows_iff (idle : s.progress = .none) {calls : List Call} :
    s.Follows calls t ↔ t = calls.foldl after s := by
  induction calls generalizing s with
  | nil =>
      constructor
      · rintro ⟨⟩
        rfl
      · rintro rfl
        exact .nil _
  | cons call calls induction =>
      have further := induction (after_idle idle call)
      constructor
      · intro followed
        cases followed with
        | cons served rest =>
            obtain rfl := (serves_iff idle).mp served
            exact further.mp rest
      · rintro rfl
        exact .cons ((serves_iff idle).mpr rfl) (further.mpr rfl)

theorem fold_after (idle : s.progress = .none) (calls : List Call) :
    (calls.foldl after s).progress = .none ∧
      (calls.foldl after s).sheet.grid = calls.foldl Call.edit s.sheet.grid ∧
        (calls.foldl after s).sheet.ceiling = s.sheet.ceiling ∧
          (calls.foldl after s).sheet.errorToken = s.sheet.errorToken := by
  induction calls generalizing s with
  | nil => exact ⟨idle, rfl, rfl, rfl⟩
  | cons call calls induction =>
      obtain ⟨grid, ceiling, errorToken⟩ := s.after_sheet call
      obtain ⟨stillIdle, further⟩ := induction (after_idle idle call)
      rw [grid, ceiling, errorToken] at further
      exact ⟨stillIdle, further⟩

end Session
end PostfixSheet
