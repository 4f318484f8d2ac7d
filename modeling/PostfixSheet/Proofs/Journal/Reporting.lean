import PostfixSheet.Proofs.Files.Paths
import PostfixSheet.Proofs.Journal.Recording

/-!
# What reporting leaves alone

Whether a report can be recorded or not, it changes the file that the journal leads to and no other,
makes and takes away no directory, and says nothing on the output side of the console.
-/

namespace PostfixSheet.Workspace

open Files (SameDirectories)

variable {w middle after : Workspace} {place : Place}

/-- The journal leads to a place. -/
def LogsAt (w : Workspace) (place : Place) : Prop :=
  ∃ path, w.journal.file = some path ∧ w.files.locate path = .ok place

theorem not_logs_of_closed (closed : w.journal.file = none) (place : Place) : ¬w.LogsAt place := by
  intro ⟨path, leads, _⟩
  cases closed.symm.trans leads

/-- A workspace before and after something was reported. -/
structure Reports (w after : Workspace) : Prop where
  journal : after.journal.file = w.journal.file
  directories : w.files.SameDirectories after.files
  elsewhere : ∀ place, ¬w.LogsAt place → after.files.at? place = w.files.at? place
  kept : ∀ place, (w.files.at? place).isSome → (after.files.at? place).isSome
  output : after.output = w.output
  errorsOpen : after.errorsOpen = w.errorsOpen

theorem logs_at_iff (journal : after.journal.file = w.journal.file)
    (directories : w.files.SameDirectories after.files) : after.LogsAt place ↔ w.LogsAt place := by
  rw [LogsAt, LogsAt, journal]
  simp only [directories.locate_iff]

theorem Reports.logs_at_iff (reports : w.Reports after) : after.LogsAt place ↔ w.LogsAt place :=
  Workspace.logs_at_iff reports.journal reports.directories

theorem Reports.refl (w : Workspace) : w.Reports w where
  journal := rfl
  directories := .refl w.files
  elsewhere _ _ := rfl
  kept _ := id
  output := rfl
  errorsOpen := rfl

theorem Reports.trans (first : w.Reports middle) (further : middle.Reports after) :
    w.Reports after where
  journal := further.journal.trans first.journal
  directories := first.directories.trans further.directories
  elsewhere place apart := by
    have still : ¬middle.LogsAt place := fun leads => apart (first.logs_at_iff.mp leads)
    exact (further.elsewhere place still).trans (first.elsewhere place apart)
  kept place there := further.kept place (first.kept place there)
  output := further.output.trans first.output
  errorsOpen := further.errorsOpen.trans first.errorsOpen

theorem warn_file (journal : Journal) (now : Nat) : (journal.warn now).1.file = journal.file := by
  rw [Journal.warn]
  split
  · split
    · rfl
    · rfl
  · rfl

theorem complain_eq (w : Workspace) (line : Text) :
    w.complain line = { w with errors := (w.complain line).errors } := by
  rw [complain]
  split
  · rfl
  · rfl

theorem Reports.of_complaint (line : Text) (reports : w.Reports after) :
    w.Reports (after.complain line) := by
  rw [complain_eq]
  exact ⟨reports.journal, reports.directories, reports.elsewhere, reports.kept, reports.output,
    reports.errorsOpen⟩

theorem emit_reports (w : Workspace) (event : Event) : w.Reports (w.emit event) := by
  rw [emit]
  cases recorded : w.journal.record w.files event with
  | error fault =>
      have warned : w.Reports { w with journal := (w.journal.warn w.now).1 } :=
        ⟨warn_file w.journal w.now, .refl w.files, fun _ _ => rfl, fun _ => id, rfl, rfl⟩
      simp only
      split
      · exact warned.of_complaint _
      · exact warned
  | ok files =>
      rcases record_ok_cases recorded with ⟨_, rfl⟩ | ⟨path, line, place, leads, _, located, free, rfl⟩
      · exact .refl w
      · refine ⟨rfl, Files.same_directories_put_file free, ?_, ?_, rfl, rfl⟩
        · intro other apart
          have differs : other ≠ place := by
            intro same
            apply apart
            rw [same]
            exact ⟨path, leads, located⟩
          exact Files.at_put_of_ne differs
        · intro other there
          by_cases same : other = place
          · rw [same, Files.at_put_file free]
            rfl
          · rwa [Files.at_put_of_ne same]

theorem report_reports (w : Workspace) (report : Report) : w.Reports (w.report report) :=
  emit_reports w _

theorem reports_of_fold (w : Workspace) (reports : List Report) :
    w.Reports (reports.foldl Workspace.report w) := by
  induction reports generalizing w with
  | nil => exact .refl w
  | cons report reports induction =>
      exact (report_reports w report).trans (induction (w.report report))

/-- A pass over a sheet does nothing to a workspace but report. -/
theorem process_reports [CallStack] (w : Workspace) (sheet : Sheet) : w.Reports (w.process sheet).1 :=
  reports_of_fold w sheet.pass.reports

end PostfixSheet.Workspace
