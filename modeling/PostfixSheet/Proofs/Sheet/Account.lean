import PostfixSheet.Proofs.Journal.Reading
import PostfixSheet.Proofs.Journal.Recording
import PostfixSheet.Proofs.Sheet.Snapshot
import PostfixSheet.Proofs.Decimal.Shown
import Mathlib.Data.List.Dedup

/-!
# The account of a pass

Four accounts of a pass are kept: the cells of the grid of results, the failures by the labels of
their cells, a warning for each of them in the journal, and the counts at the end. They agree: the
failures are counted once each because no two cells go by one label, and an error token that is the
text of no number stands in the failed cells alone.
-/

namespace PostfixSheet.Sheet

open Context (depth itemsDepth fieldsDepth)
open Journal (LineTells)
open Json (WellFormed)

variable {sheet : Sheet} {w : Workspace} {place : Place}

/-- What is said before a pass: the number of rows and the length of a longest one. -/
structure Opens (grid : Grid) (report : Report) : Prop where
  level : report.level = .info
  type : report.type = .sheetStarted
  counts : ∃ longest : Nat,
    report.context =
      [(Text.signs "rows".toList, .integer grid.rows.length),
        (Text.signs "cols".toList, .integer longest)] ∧
    (∀ row ∈ grid.rows, row.length ≤ longest) ∧
    (longest = 0 ∨ ∃ row ∈ grid.rows, row.length = longest)

/-- What is said of a cell without a value. -/
structure Warns (a : Address) (error : EvalError) (report : Report) : Prop where
  level : report.level = .warning
  message : report.message = error.message
  code : report.errorCode = some error.kind
  onCycle : error.cycleLabels ≠ [] → report.type = .cycleDetected ∧
    report.context = [(Text.signs "cell".toList, .string a.label),
      (Text.signs "cycle_path".toList,
        .array (error.cycleLabels.map fun label => .string label.signs))]
  otherwise : error.cycleLabels = [] → report.type = .cellError ∧
    report.context = [(Text.signs "cell".toList, .string a.label)]

/-- What is said after a pass. -/
structure Closes (cells failures : Nat) (report : Report) : Prop where
  level : report.level = .info
  type : report.type = .sheetCompleted
  counts : report.context =
    [(Text.signs "cells".toList, .integer cells), (Text.signs "errors".toList, .integer failures)]

/-- The rows of a grid, and its cells, are no more than can be written as a number. -/
def IsCountable (grid : Grid) : Prop :=
  grid.rows.length < 10 ^ Text.integerLimit ∧
    (grid.rows.map List.length).sum < 10 ^ Text.integerLimit

section

variable [CallStack]

/-- The cells of a sheet that have no value, row by row and each once, with what is wrong. -/
structure IsFailing (sheet : Sheet) (failing : List (Address × EvalError)) : Prop where
  byRow : (failing.map Prod.fst).Pairwise (· < ·)
  members : ∀ a error, (a, error) ∈ failing ↔
    (∃ text, sheet.grid.get? a = some text) ∧
      Evaluation.cell sheet.grid sheet.ceiling a = .error error

/-- What is said of a pass, and what the pass leaves, tell the same. -/
structure IsAccount (before after : Sheet) (output : Grid) (opening : Report)
    (warnings : List Report) (closing : Report) : Prop where
  opens : Opens before.grid opening
  warned : ∃ failing, IsFailing before failing ∧
    List.Forall₂ (fun failure report => Warns failure.1 failure.2 report) failing warnings
  closes : Closes (before.grid.rows.map List.length).sum warnings.length closing
  labels : (after.failures.map fun failure => failure.1.label).dedup.length = warnings.length
  shown : (∀ value, Number.text value ≠ before.errorToken) →
    output.rows.flatten.count before.errorToken = warnings.length

omit [CallStack] in
theorem start_opens (grid : Grid) : Opens grid (startReport grid) where
  level := rfl
  type := rfl
  counts := ⟨grid.width, rfl, grid.width_is_longest⟩

omit [CallStack] in
theorem failure_warns (a : Address) (error : EvalError) : Warns a error (failureReport a error) := by
  rw [failureReport]
  cases path : error.cycleLabels with
  | nil => exact ⟨rfl, rfl, rfl, fun onCycle => absurd path onCycle, fun _ => ⟨rfl, rfl⟩⟩
  | cons label labels =>
      have reported : error.cycleLabels ≠ [] := by simp [path]
      exact ⟨rfl, rfl, rfl, fun _ => ⟨rfl, by rw [path]⟩, fun other => absurd other reported⟩

theorem failures_are_failing (sheet : Sheet) : IsFailing sheet sheet.pass.sheet.failures where
  byRow := failures_sorted
  members a error := by
    rw [mem_failures_iff, Grid.mem_addresses_iff]
    rfl

theorem output_texts (sheet : Sheet) :
    sheet.pass.output.rows.flatten = sheet.grid.addresses.map sheet.display := by
  have same : sheet.pass.output.addresses = sheet.grid.addresses :=
    Grid.addresses_of_shape (pass_is_snapshot sheet).shape
  have shown : sheet.pass.output.rows.flatten.map some =
      (sheet.grid.addresses.map sheet.display).map some := by
    rw [Grid.texts_by_row, same, List.map_map]
    exact List.map_congr_left (pass_is_snapshot sheet).display
  exact List.map_injective_iff.mpr (Option.some_injective _) shown

/-- An error token that is no number's text marks the failures and nothing else. -/
theorem count_error_token (apart : ∀ value, Number.text value ≠ sheet.errorToken) :
    sheet.pass.output.rows.flatten.count sheet.errorToken = sheet.pass.sheet.failures.length := by
  have failures : sheet.pass.sheet.failures = failuresOf sheet.results := rfl
  rw [output_texts, failures, failuresOf, results]
  -- cell by cell: the text is the token where the result is a failure
  induction sheet.grid.addresses with
  | nil => rfl
  | cons a addresses induction =>
      rw [List.map_cons, List.map_cons, List.count_cons, induction]
      cases result : sheet.evaluate a with
      | ok value =>
          have other : (sheet.display a == sheet.errorToken) = false := by
            simpa [display, textOf, result] using apart value
          simp [other]
      | error error =>
          have token : (sheet.display a == sheet.errorToken) = true := by
            simp [display, textOf, result]
          simp [token]

omit [CallStack] in
theorem line_of_shallow {report : Report} (shallow : fieldsDepth report.context ≤ 2) :
    ∃ line, w.line? report = some line := by
  have recorded : Context.record? report.context =
      some (Context.recordedFields report.context) := by
    rw [Context.record?, if_neg]
    rw [Context.depthLimit]
    omega
  rw [Workspace.line?, Event.line?]
  simp only [Event.ofReport, recorded, Option.map_some]
  exact ⟨_, rfl⟩

omit [CallStack] in
theorem items_depth_texts (texts : List Text) :
    itemsDepth (texts.map fun text => .string text.signs) ≤ 1 := by
  induction texts with
  | nil => exact Nat.zero_le 1
  | cons text texts induction =>
      have leaf : depth (.string text.signs) = 1 := rfl
      rw [List.map_cons, itemsDepth, leaf]
      omega

theorem reports_are_shallow {report : Report} (made : report ∈ sheet.pass.reports) :
    fieldsDepth report.context ≤ 2 := by
  simp only [pass, passOf, List.cons_append, List.mem_cons, List.mem_append, List.mem_map,
    List.not_mem_nil, or_false] at made
  rcases made with rfl | ⟨⟨a, error⟩, _, rfl⟩ | rfl
  · simp [startReport, fieldsDepth, depth]
  · rw [failureReport]
    split
    · simp [fieldsDepth, depth]
    · have flat := items_depth_texts error.cycleLabels
      simp only [fieldsDepth, depth]
      omega
  · simp [endReport, fieldsDepth, depth]

omit [CallStack] in
theorem lines_of_shallow (reports : List Report)
    (shallow : ∀ report ∈ reports, fieldsDepth report.context ≤ 2) :
    ∃ lines, reports.mapM w.line? = some lines ∧
      List.Forall₂ (fun report line => w.line? report = some line) reports lines := by
  induction reports with
  | nil => exact ⟨[], rfl, .nil⟩
  | cons report reports induction =>
      have ⟨line, first⟩ := @line_of_shallow w _ (shallow report (by simp))
      have ⟨lines, others, each⟩ := induction fun other member => shallow other (by simp [member])
      exact ⟨line :: lines, by simp [first, others], .cons first each⟩

omit [CallStack] in
theorem formed_count {n : Nat} (few : n < 10 ^ Text.integerLimit) :
    WellFormed (.integer (n : Int)) :=
  (Nat.length_toDigits_le_iff (by decide) (by decide)).mpr few

omit [CallStack] in
theorem formed_labels (labels : List Text) :
    Json.WellFormedItems (labels.map fun label => .string label.signs) := by
  induction labels with
  | nil => trivial
  | cons label labels induction => exact ⟨⟨label, rfl⟩, induction⟩

omit [CallStack] in
theorem width_le_cells (grid : Grid) : grid.width ≤ (grid.rows.map List.length).sum := by
  rcases grid.width_is_longest.2 with none | ⟨row, member, longest⟩
  · omega
  · rw [← longest]
    exact List.le_sum_of_mem (List.mem_map_of_mem member)

theorem failures_le_cells (sheet : Sheet) :
    sheet.pass.sheet.failures.length ≤ (sheet.grid.rows.map List.length).sum := by
  have cells : sheet.results.length = (sheet.grid.rows.map List.length).sum := by
    rw [results, List.length_map, Grid.length_addresses, List.length_flatten]
  rw [← cells]
  exact List.length_filterMap_le _ _

/-- What is said of a pass can be read back. -/
theorem reports_are_formed (countable : IsCountable sheet.grid) {report : Report}
    (made : report ∈ sheet.pass.reports) : WellFormed (.object report.context) := by
  obtain ⟨rows, cells⟩ := countable
  have width := width_le_cells sheet.grid
  have failures := failures_le_cells sheet
  have opening : [Text.signs "rows".toList, Text.signs "cols".toList].Nodup := by decide
  have warning : [Text.signs "cell".toList, Text.signs "cycle_path".toList].Nodup := by decide
  have closing : [Text.signs "cells".toList, Text.signs "errors".toList].Nodup := by decide
  simp only [pass, passOf, List.cons_append, List.mem_cons, List.mem_append, List.mem_map,
    List.not_mem_nil, or_false] at made
  rcases made with rfl | ⟨⟨a, error⟩, _, rfl⟩ | rfl
  · exact ⟨opening, ⟨_, rfl⟩, formed_count rows, ⟨_, rfl⟩, formed_count (by omega), trivial⟩
  · rw [failureReport]
    split
    · exact ⟨List.nodup_singleton _, ⟨_, rfl⟩, ⟨_, rfl⟩, trivial⟩
    · exact ⟨warning, ⟨_, rfl⟩, ⟨_, rfl⟩, ⟨_, rfl⟩, formed_labels _, trivial⟩
  · have counted : sheet.results.length < 10 ^ Text.integerLimit := by
      rwa [results, List.length_map, Grid.length_addresses, List.length_flatten]
    exact ⟨closing, ⟨_, rfl⟩, formed_count counted, ⟨_, rfl⟩,
      formed_count (failures.trans_lt cells), trivial⟩

/-- A pass appends its account to the journal, and nothing else. Each line of it tells the report
that it was written for. -/
theorem pass_is_told [Json.Nesting] (w : Workspace) (sheet : Sheet) (takes : w.Takes place) :
    ∃ opening warnings closing lines,
      (opening :: warnings ++ [closing]).mapM w.line? = some lines ∧
      (IsCountable sheet.grid → List.Forall₂ LineTells
        ((opening :: warnings ++ [closing]).map (Event.ofReport w.time)) lines) ∧
      w.Appends (w.process sheet).1 place lines.flatten ∧
      IsAccount sheet (w.process sheet).2.1 (w.process sheet).2.2 opening warnings closing := by
  have ⟨lines, told, each⟩ := @lines_of_shallow w sheet.pass.reports
    fun _ made => reports_are_shallow made
  let failures := sheet.pass.sheet.failures
  let warnings := failures.map fun failure => failureReport failure.1 failure.2
  have counted : warnings.length = failures.length := List.length_map _
  have cells : sheet.results.length = (sheet.grid.rows.map List.length).sum := by
    rw [results, List.length_map, Grid.length_addresses, List.length_flatten]
  refine ⟨startReport sheet.grid, warnings, endReport sheet.results.length failures.length, lines,
    told, ?_, Workspace.reports_append takes told, start_opens sheet.grid, ?_, ?_, ?_, ?_⟩
  · intro countable
    refine Journal.lines_tell (List.forall₂_map_left_iff.mpr each) ?_
    intro event member
    obtain ⟨report, made, rfl⟩ := List.mem_map.mp member
    exact ⟨w.time, report, rfl, reports_are_formed countable made⟩
  · refine ⟨failures, failures_are_failing sheet, ?_⟩
    rw [List.forall₂_map_right_iff, List.forall₂_same]
    intro failure _
    exact failure_warns failure.1 failure.2
  · rw [← cells, counted]
    exact ⟨rfl, rfl, rfl⟩
  · have distinct := @failures_labels sheet
    rw [counted, ← List.length_map fun failure : Address × EvalError => failure.1.label]
    exact congrArg List.length distinct.dedup
  · intro apart
    rw [counted]
    exact count_error_token apart

omit [CallStack] in
theorem standard_error_token_apart (value : Float) : Number.text value ≠ standardErrorToken := by
  intro same
  have sharp : '#' ∈ Number.text value := by
    rw [same]
    decide
  have allowed := Number.mem_text sharp
  revert allowed
  decide

end

/-- Two cells on a cycle, one that divides by zero, and rows of three lengths. -/
def ledger : Sheet :=
  .ofGrid ⟨[["b1".toList, "a1 1 +".toList], ["1 0 /".toList, "2 3 +".toList, "7".toList], []],
    .comma⟩ .standard standardErrorToken

/-- A workspace whose journal has a line already. -/
def ledgerDesk : Workspace :=
  { Workspace.ofFiles ⟨[([Journal.fileName], .file (Text.bytes "first\n".toList))]⟩ [] with
    journal := { Journal.closed with file := some ⟨[], [Journal.fileName]⟩ } }

theorem ledger_is_told :
    ledgerDesk.Takes [Journal.fileName] ∧
    (∀ value, Number.text value ≠ ledger.errorToken) ∧
    IsCountable ledger.grid ∧
    ∃ opening warnings closing lines,
      (opening :: warnings ++ [closing]).mapM ledgerDesk.line? = some lines ∧
      List.Forall₂ LineTells
        ((opening :: warnings ++ [closing]).map (Event.ofReport ledgerDesk.time)) lines ∧
      ledgerDesk.Appends (ledgerDesk.process ledger).1 [Journal.fileName] lines.flatten ∧
      IsAccount ledger (ledgerDesk.process ledger).2.1 (ledgerDesk.process ledger).2.2 opening
        warnings closing := by
  have takes : ledgerDesk.Takes [Journal.fileName] := ⟨⟨_, rfl, rfl⟩, by decide⟩
  have countable : IsCountable ledger.grid := by
    have great : 10 ≤ 10 ^ Text.integerLimit := Nat.le_self_pow (by decide) 10
    have rows : ledger.grid.rows.length = 3 := rfl
    have cells : (ledger.grid.rows.map List.length).sum = 5 := rfl
    rw [IsCountable, rows, cells]
    omega
  obtain ⟨opening, warnings, closing, lines, written, told, appends, account⟩ :=
    pass_is_told ledgerDesk ledger takes
  exact ⟨takes, standard_error_token_apart, countable, opening, warnings, closing, lines, written,
    told countable, appends, account⟩

end PostfixSheet.Sheet
