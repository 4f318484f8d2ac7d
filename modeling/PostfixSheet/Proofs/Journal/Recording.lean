import PostfixSheet.Proofs.Files.Tree
import PostfixSheet.Workspace

/-!
# Recording

A workspace whose journal leads to a free place records every report that is not too deep: a line
for each at the end of the file there, and nothing else in the workspace changes.
-/

namespace PostfixSheet.Workspace

open Files (contentAt at_put_file at_put_of_ne content_at_put grows_put_file)

variable {w after : Workspace} {place : Place}

/-- What is reported is written into the file at a place. -/
structure Takes (w : Workspace) (place : Place) : Prop where
  leads : ∃ path, w.journal.file = some path ∧ w.files.locate path = .ok place
  free : w.files.at? place ≠ some .directory

/-- A workspace before and after text was put to the end of the file at a place. -/
structure Appends (w after : Workspace) (place : Place) (text : Text) : Prop where
  content : after.files.contentAt place = w.files.contentAt place ++ Text.bytes text
  others : ∀ other, other ≠ place → after.files.at? other = w.files.at? other
  rest : after = { w with files := after.files }
  takes : after.Takes place

/-- The line that a workspace writes for a report; nothing if the report is too deep. -/
def line? (w : Workspace) (report : Report) : Option Text := (Event.ofReport w.time report).line?

/-- An event is dropped if there is no file, and else goes to the end of the file. -/
theorem record_ok_cases {journal : Journal} {files grown : Files} {event : Event}
    (recorded : journal.record files event = .ok grown) :
    (journal.file = none ∧ grown = files) ∨
      ∃ path line place, journal.file = some path ∧ event.line? = some line ∧
        files.locate path = .ok place ∧ files.at? place ≠ some .directory ∧
        grown = files.put place (.file (files.contentAt place ++ Text.bytes line)) := by
  rw [Journal.record] at recorded
  cases leads : journal.file with
  | none =>
      rw [leads] at recorded
      cases recorded
      exact .inl ⟨rfl, rfl⟩
  | some path =>
      rw [leads] at recorded
      cases written : event.line? with
      | none =>
          rw [written] at recorded
          cases recorded
      | some line =>
          simp only [written] at recorded
          cases appended : files.append path (Text.bytes line) with
          | error error =>
              rw [appended] at recorded
              cases recorded
          | ok made =>
              rw [appended] at recorded
              cases recorded
              obtain ⟨place, located, free, made⟩ := Files.append_ok_iff.mp appended
              exact .inr ⟨path, line, place, rfl, rfl, located, free, made⟩

theorem record_of_append {journal : Journal} {files grown : Files} {event : Event} {path : Path}
    {line : Text} (leads : journal.file = some path) (written : event.line? = some line)
    (appended : files.append path (Text.bytes line) = .ok grown) :
    journal.record files event = .ok grown := by
  rw [Journal.record, leads]
  simp only [written, appended]
  rfl

/-- A report that is recorded in a file finds a place that takes it and has a line. -/
theorem takes_of_recorded {path : Path} {event : Event} {files : Files}
    (leads : w.journal.file = some path)
    (recorded : w.journal.record w.files event = .ok files) :
    ∃ place line, w.files.locate path = .ok place ∧ w.Takes place ∧ event.line? = some line := by
  rcases record_ok_cases recorded with ⟨silent, _⟩ | ⟨_, line, place, file, written, located, free, _⟩
  · rw [leads] at silent
    cases silent
  · obtain rfl := Option.some.inj (leads.symm.trans file)
    exact ⟨place, line, located, ⟨⟨path, leads, located⟩, free⟩, written⟩

theorem Appends.grows {text : Text} (appends : w.Appends after place text)
    (takes : w.Takes place) : w.files.Grows after.files := by
  intro other here
  by_cases same : other = place
  · exact absurd (same ▸ here) takes.free
  · exact (appends.others other same).trans here

theorem Appends.nil (takes : w.Takes place) : w.Appends w place [] where
  content := by simp [Text.bytes]
  others _ _ := rfl
  rest := rfl
  takes := takes

theorem Appends.trans {middle : Workspace} {one other : Text} (first : w.Appends middle place one)
    (further : middle.Appends after place other) : w.Appends after place (one ++ other) where
  content := by
    rw [further.content, first.content, List.append_assoc]
    simp only [Text.bytes, List.flatMap_append]
  others elsewhere differs := (further.others elsewhere differs).trans (first.others elsewhere differs)
  rest := by
    have kept := further.rest
    rw [first.rest] at kept
    exact kept
  takes := further.takes

theorem report_appends (takes : w.Takes place) {report : Report} {line : Text}
    (told : w.line? report = some line) : w.Appends (w.report report) place line := by
  obtain ⟨path, file, located⟩ := takes.leads
  have free := takes.free
  let written := w.files.put place (.file (w.files.contentAt place ++ Text.bytes line))
  have appended : w.files.append path (Text.bytes line) = .ok written :=
    Files.append_ok_iff.mpr ⟨place, located, free, rfl⟩
  have after : w.report report = { w with files := written } := by
    rw [Workspace.report, emit, record_of_append file told appended]
  rw [after]
  constructor
  · exact content_at_put free
  · intro other differs
    exact at_put_of_ne differs
  · rfl
  · refine ⟨⟨path, file, Files.locate_of_grows (grows_put_file free) located⟩, ?_⟩
    simp only
    rw [at_put_file free]
    exact nofun

/-- Reports are written line by line, in their order. -/
theorem reports_append {reports : List Report} {lines : List Text} (takes : w.Takes place)
    (told : reports.mapM w.line? = some lines) :
    w.Appends (reports.foldl Workspace.report w) place lines.flatten := by
  induction reports generalizing w lines with
  | nil =>
      obtain rfl : lines = [] := by simpa using told.symm
      exact .nil takes
  | cons report reports induction =>
      rw [List.mapM_cons] at told
      cases first : w.line? report with
      | none => simp [first] at told
      | some line =>
          have one := report_appends takes first
          cases others : reports.mapM w.line? with
          | none => simp [first, others] at told
          | some further =>
              obtain rfl : line :: further = lines := by simpa [first, others] using told
              have same : (w.report report).line? = w.line? := by
                rw [one.rest]
                rfl
              rw [← same] at others
              exact one.trans (induction one.takes others)

end PostfixSheet.Workspace
