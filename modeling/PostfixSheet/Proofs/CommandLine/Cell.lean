import PostfixSheet.Proofs.CommandLine.Target
import PostfixSheet.Proofs.Evaluation.Ceiling
import PostfixSheet.Proofs.Evaluation.Wording
import PostfixSheet.Proofs.Sheet.Snapshot

/-!
# A cell by itself and in its sheet

One command shows a single cell, another works out the whole sheet. Each opens the sheet for itself
and evaluates for itself, and still the value that is shown for a cell is the one that the result of
the sheet has there, and an error is told exactly where one was recorded. Only where the call stack
ran out for the sheet can the cell by itself end otherwise, since there is one call less above it. Of
what is shown only the text of the cell and its value can hold control sequences, which the console
leaves out.
-/

namespace PostfixSheet.CommandLine

variable {w : Workspace} {sheet : Sheet} {a : Address} {raw source label : Text}
variable {options : List (Switch × Text)} {result : Workspace × Ending}
variable {settings : Settings} {grid : Grid} {outcome : Except EvalError Float}

/-- Why there is no value. -/
def failureOf : Except EvalError Float → Option EvalError
  | .ok _ => none
  | .error error => some error

/-- The error that the last pass over a sheet recorded for a label. -/
def recordedFor (sheet : Sheet) (label : Text) : Option EvalError :=
  (sheet.failures.find? fun failure => failure.1.label == label).map (·.2)

/-- The lines that are shown about a cell: its label, its text, its value, and why it has none. -/
def cellLines (label raw value : Text) (error : Option EvalError) : List Text :=
  ["Cell:  ".toList ++ label, "Raw:   ".toList ++ Text.withoutControls raw,
    "Value: ".toList ++ Text.withoutControls value] ++ match error with
      | some error => ["Error: ".toList ++ error.kind ++ ": ".toList ++ error.message]
      | none => []

/-! What is recorded for a cell -/

section

variable [CallStack]

theorem evaluate_of_recorded {error : EvalError}
    (recorded : recordedFor sheet.pass.sheet a.label = some error) :
    sheet.evaluate a = .error error := by
  obtain ⟨⟨b, found⟩, search, same⟩ := Option.map_eq_some_iff.mp recorded
  have member := List.mem_of_find?_eq_some search
  have matched := List.find?_some search
  have label : b.label = a.label := beq_iff_eq.mp matched
  rw [Address.label_injective label] at member
  subst same
  exact (Sheet.mem_failures_iff.mp member).2

theorem recorded_for_iff {error : EvalError} (inside : sheet.grid.get? a = some raw) :
    recordedFor sheet.pass.sheet a.label = some error ↔ sheet.evaluate a = .error error := by
  constructor
  · exact evaluate_of_recorded
  · intro failed
    have member : (a, error) ∈ sheet.pass.sheet.failures :=
      Sheet.mem_failures_iff.mpr ⟨Grid.mem_addresses_iff.mpr ⟨raw, inside⟩, failed⟩
    cases recorded : recordedFor sheet.pass.sheet a.label with
    | some other =>
        have again := evaluate_of_recorded recorded
        rw [failed] at again
        cases again
        rfl
    | none =>
        have missed := List.find?_eq_none.mp (Option.map_eq_none_iff.mp recorded) _ member
        exact absurd (beq_self_eq_true a.label) missed

theorem recorded_for_eq (inside : sheet.grid.get? a = some raw) :
    recordedFor sheet.pass.sheet a.label = failureOf (sheet.evaluate a) := by
  cases evaluated : sheet.evaluate a with
  | error error => exact (recorded_for_iff inside).mpr evaluated
  | ok value =>
      cases recorded : recordedFor sheet.pass.sheet a.label with
      | none => rfl
      | some error => cases evaluated.symm.trans (evaluate_of_recorded recorded)

/-- A cell by itself ends as in its sheet, unless the call stack runs out for the sheet. -/
theorem evaluate_alone_eq (room : ∀ depth, sheet.evaluate a ≠ .error (.exhausted depth)) :
    evaluateAlone sheet a = sheet.evaluate a := by
  have agrees : Machine.Agree (fun error => ∃ depth, error = .exhausted depth) (fun _ => False)
      (sheet.evaluate a) (evaluateAlone sheet a) :=
    Evaluation.cell_on_path_agree_above (.inl rfl)
      (.inr ⟨CallStack.room_within_before, fun depth => ⟨depth, rfl⟩⟩) [] a
  rcases agrees with same | ⟨_, stopped, depth, rfl⟩ | ⟨_, _, never⟩
  · exact same.symm
  · exact absurd stopped (room depth)
  · exact never.elim

end

theorem plain_alone [CallStack] {error : EvalError} (failed : evaluateAlone sheet a = .error error) :
    AllPlain error.message :=
  @Evaluation.plain_cell_message _ _ CallStack.before _ _ failed

theorem cell_lines_shown (worded : ∀ error, outcome = .error error → AllPlain error.message) :
    (placeLines a raw ++ valueLines sheet outcome).map Text.withoutControls =
      cellLines a.label raw (sheet.textOf outcome) (failureOf outcome) := by
  have cell : Text.withoutControls ("Cell:  ".toList ++ a.label) = "Cell:  ".toList ++ a.label :=
    Text.without_controls_of_plain (AllPlain.append (by decide) (plain_label a)).no_escape
  have text : Text.withoutControls ("Raw:   ".toList ++ raw) =
      "Raw:   ".toList ++ Text.withoutControls raw := Text.without_controls_append (by decide) raw
  have value : Text.withoutControls ("Value: ".toList ++ sheet.textOf outcome) =
      "Value: ".toList ++ Text.withoutControls (sheet.textOf outcome) :=
    Text.without_controls_append (by decide) _
  rw [placeLines, valueLines.eq_def, List.map_append, List.map_cons, List.map_cons, List.map_nil,
    List.map_cons, cell, text, value]
  cases outcome with
  | ok number => rfl
  | error error =>
      have plain : AllPlain ("Error: ".toList ++ error.kind ++ ": ".toList ++ error.message) :=
        .append (.append (.append (by decide) (EvalError.plain_kind error)) (by decide))
          (worded error rfl)
      simp only [List.map_cons, List.map_nil, Text.without_controls_of_plain plain.no_escape]
      rfl

/-! The two commands -/

section

variable [Yaml.Reader] [Surroundings] [CallStack]

/-- How the words after the name of the cell command end, if they are a file and a label. -/
inductive CellRun (w : Workspace) (options : List (Switch × Text)) (source label : Text) :
    Workspace × Ending → Prop
  | unfit {mention : Mention} {ending : Ending}
      (named : mention ∈ Mention.ofArguments ⟨options, [source]⟩)
      (failed : mention.ending? w.files = some ending) :
      CellRun w options source label (w, ending)
  | ran {result : Workspace × Ending} (fit : Fit w.files (Mention.ofArguments ⟨options, [source]⟩))
      (shows : Showing w (Path.ofText source) label (Request.choiceOf ⟨options, [source]⟩) result) :
      CellRun w options source label (complainOf result.1 result.2, result.2)

theorem cell_run (w : Workspace) (options : List (Switch × Text)) (source label : Text) :
    CellRun w options source label ((Request.ofCell ⟨options, [source, label]⟩).run w) := by
  have runs := running w (Request.ofCell ⟨options, [source, label]⟩)
  generalize (Request.ofCell ⟨options, [source, label]⟩).run w = result at runs
  cases runs with
  | @unfit before after mention ending named fit failed =>
      have member : mention ∈ (Request.ofCell ⟨options, [source, label]⟩).mentions := by
        rw [named]
        exact List.mem_append_right before List.mem_cons_self
      exact .unfit member failed
  | incomplete fit lacking => cases lacking
  | ran fit asked =>
      cases asked
      exact .ran fit (showing _ _ _ _)

theorem CellRun.done (runs : CellRun w options source label result) (done : result.2.status = 0) :
    Fit w.files (Mention.ofArguments ⟨options, [source]⟩) ∧ ∃ a settings grid raw,
      Address.ofLabel? label = some a ∧
      Loads w (Path.ofText source) (Request.choiceOf ⟨options, [source]⟩) settings grid ∧
      grid.get? a = some raw ∧
      let outcome := evaluateAlone (settings.sheet grid) a
      unshownToken? settings (!outcome.isOk) = none ∧
      result.1.output = w.output ++ textOfLines (cellLines a.label raw
        ((settings.sheet grid).textOf outcome) (failureOf outcome)) := by
  cases runs with
  | unfit _ failed => exact absurd done (mention_status_ne_zero failed)
  | ran fit shows =>
      simp only [complain_of_success done]
      cases shows with
      | unnamed | outside | cut => cases done
      | unopened _ opening => cases opening.status.symm.trans done
      | @shown a settings grid after raw named loads reports found whole =>
          refine ⟨fit, a, settings, grid, raw, named, loads, found, whole, ?_⟩
          have before : after.output = w.output :=
            reports.output.trans (opened_console w settings).1
          rw [print_lines_eq, ← cell_lines_shown fun _ => plain_alone, ← before]

theorem CellRun.done_of_loads (runs : CellRun w options source label result)
    (fit : Fit w.files (Mention.ofArguments ⟨options, [source]⟩))
    (named : Address.ofLabel? label = some a)
    (loads : Loads w (Path.ofText source) (Request.choiceOf ⟨options, [source]⟩) settings grid)
    (found : grid.get? a = some raw)
    (whole : unshownToken? settings (!(evaluateAlone (settings.sheet grid) a).isOk) = none) :
    result.2.status = 0 := by
  cases runs with
  | unfit member failed => cases (fit _ member).symm.trans failed
  | ran _ shows =>
      cases shows with
      | unnamed unnamed => cases named.symm.trans unnamed
      | unopened _ opening => exact absurd opening loads.opens
      | shown => rfl
      | outside again other _ missing =>
          cases named.symm.trans again
          obtain ⟨rfl, rfl⟩ := loads.unique other
          cases found.symm.trans missing
      | cut again other _ _ lacks =>
          cases named.symm.trans again
          obtain ⟨rfl, rfl⟩ := loads.unique other
          cases whole.symm.trans lacks

/-- The cell command and the process command, both with the same options and from one start. -/
structure ShowsAsProcessed (files : Files) (time : Text) (options : List (Switch × Text))
    (source label : Text) (cell process : Workspace × Ending) : Prop where
  status : cell.2.status = 0 ↔ Fit files (Mention.ofArguments ⟨options, [source]⟩) ∧
    ∃ a settings grid raw, Address.ofLabel? label = some a ∧
      Loads (.ofFiles files time) (Path.ofText source) (Request.choiceOf ⟨options, [source]⟩)
        settings grid ∧
      grid.get? a = some raw ∧
      unshownToken? settings (!(evaluateAlone (settings.sheet grid) a).isOk) = none
  /-- What is shown is what the pass of the other command has for the cell, unless the call stack ran
  out in the pass. That command tells it as well, unless the pass has an error token that is no
  text. -/
  shown : cell.2.status = 0 → ∃ a settings grid raw value, Address.ofLabel? label = some a ∧
    Loads (.ofFiles files time) (Path.ofText source) (Request.choiceOf ⟨options, [source]⟩)
      settings grid ∧
    grid.get? a = some raw ∧
    let outcome := evaluateAlone (settings.sheet grid) a
    let pass := (settings.sheet grid).pass
    let recorded := recordedFor pass.sheet a.label
    pass.output.get? a = some value ∧
    cell.1.output = textOfLines
      (cellLines a.label raw ((settings.sheet grid).textOf outcome) (failureOf outcome)) ∧
    ((∀ depth, recorded ≠ some (.exhausted depth)) →
      cell.1.output = textOfLines (cellLines a.label raw value recorded)) ∧
    (unshownIn? settings pass = none → process.2.status = 0 ∧
      process.1.output = Text.withoutControls pass.output.render ++ ['\n'])

theorem cell_shows_as_processed (files : Files) (time : Text) (options : List (Switch × Text))
    (source label : Text)
    (shared : ∀ option ∈ options, option.1 = .separator ∨ option.1 = .settings) :
    ShowsAsProcessed files time options source label
      ((Request.ofCell ⟨options, [source, label]⟩).run (.ofFiles files time))
      ((Request.ofProcess ⟨options, [source]⟩).run (.ofFiles files time)) := by
  have runs := cell_run (.ofFiles files time) options source label
  have processed := process_run (.ofFiles files time) ⟨options, [source]⟩
  constructor
  · constructor
    · intro done
      obtain ⟨fit, a, settings, grid, raw, named, loads, found, whole, _⟩ := runs.done done
      exact ⟨fit, a, settings, grid, raw, named, loads, found, whole⟩
    · intro ⟨fit, a, settings, grid, raw, named, loads, found, whole⟩
      exact runs.done_of_loads fit named loads found whole
  · intro done
    obtain ⟨fit, a, settings, grid, raw, named, loads, found, _, output⟩ := runs.done done
    have inside : (settings.sheet grid).grid.get? a = some raw := found
    refine ⟨a, settings, grid, raw, (settings.sheet grid).display a, named, loads, found, ?_⟩
    refine ⟨by rw [Sheet.get_output, inside, Option.map_some], output, ?_, ?_⟩
    · intro room
      have alone : evaluateAlone (settings.sheet grid) a = (settings.sheet grid).evaluate a :=
        evaluate_alone_eq fun depth failed => room depth ((recorded_for_iff inside).mpr failed)
      rw [recorded_for_eq inside, Sheet.display, ← alone]
      exact output
    · intro whole
      have absent : ∀ switch : Switch, switch ≠ .separator → switch ≠ .settings →
          switch ∉ options.map (·.1) := by
        intro switch notSeparator notSettings used
        obtain ⟨option, member, same⟩ := List.mem_map.mp used
        rcases shared option member with is | is
        · exact notSeparator (same.symm.trans is)
        · exact notSettings (same.symm.trans is)
      have plain : Arguments.has ⟨options, [source]⟩ .preview = false :=
        Arguments.has_of_absent (absent .preview (by decide) (by decide))
      have nowhere : Arguments.value? ⟨options, [source]⟩ .target = none :=
        Arguments.value_of_absent (absent .target (by decide) (by decide))
      exact processed.prints fit rfl plain nowhere loads whole

end

/-! A cell with a control sequence -/

/-- A sheet with control sequences in its only cell. -/
def coloredCell : Files := ⟨[(["s.csv".toList], .file (Text.bytes "\x1b[31mred\x1b[m\n".toList))]⟩

theorem colored_cell_shows_as_processed :
    ∃ a settings grid raw, Address.ofLabel? "a01".toList = some a ∧
      Loads (.ofFiles coloredCell []) (Path.ofText "s.csv".toList)
        ⟨some ";".toList, none⟩ settings grid ∧
      grid.get? a = some raw ∧
      unshownToken? settings (!(evaluateAlone (settings.sheet grid) a).isOk) = none := by
  have shared : ∀ option ∈ [(Switch.separator, ";".toList)],
      option.1 = .separator ∨ option.1 = .settings := by decide
  have shows := cell_shows_as_processed coloredCell [] [(.separator, ";".toList)] "s.csv".toList
    "a01".toList shared
  exact (shows.status.mp rfl).2

theorem colored_cell_output :
    (run (.ofFiles coloredCell []) (["cell", "s.csv", "A1"].map String.toList)).1.output =
      "Cell:  A1\nRaw:   red\nValue: #ERR\n".toList
        ++ "Error: not_enough_operands: Expression produced no value\n".toList := by
  decide +kernel

/-- The line that shows the text of a cell lacks the control sequences in it. -/
theorem colored_cell_is_not_shown :
    let result := run (.ofFiles coloredCell []) (["cell", "s.csv", "A1"].map String.toList)
    result.2.status = 0 ∧
    (Grid.ofText "\x1b[31mred\x1b[m\n".toList ",".toList).toOption.bind (·.get? ⟨0, 0⟩) =
      some "\x1b[31mred\x1b[m".toList ∧
    ¬"Raw:   \x1b[31mred\x1b[m\n".toList <:+: result.1.output := by
  refine ⟨rfl, rfl, ?_⟩
  rw [colored_cell_output]
  decide +kernel

end PostfixSheet.CommandLine
