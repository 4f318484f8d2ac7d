import PostfixSheet.Proofs.CommandLine.Mentions
import PostfixSheet.Proofs.Journal.Reporting
import PostfixSheet.Proofs.Settings.Loading

/-!
# The stages of a command

A command on a sheet reads its settings, opens the journal, reads the sheet, works it out and hands
the result on, and each stage can be the last one. For every way to end it is said once what has
happened to the workspace by then.
-/

namespace PostfixSheet.CommandLine

variable {w after : Workspace} {path : Path} {choice : Choice} {settings : Settings} {grid : Grid}

section

variable [Yaml.Reader] [Surroundings]

/-- A workspace with the journal open that some settings ask for, as far as it can be opened. -/
def opened (w : Workspace) (settings : Settings) : Workspace :=
  (openJournal w settings.journalDirectory).1

omit [Yaml.Reader] in
theorem open_journal_gains (w : Workspace) (directory : Option Signs) :
    w.files.OnlyGains (openJournal w directory).1.files := by
  cases directory with
  | none => exact .refl w.files
  | some signs =>
      rw [openJournal]
      cases signs.text? with
      | none =>
          simp only
          split
          · exact .refl w.files
          · exact .refl w.files
      | some directory =>
          have gains := Files.ensure_directory_only_gains w.files (Path.ofText directory)
          simp only [Workspace.openJournal, Journal.openIn]
          cases made : w.files.ensureDirectory (Path.ofText directory) with
          | mk files error =>
              rw [made] at gains
              cases error with
              | none => exact gains
              | some error => exact gains

omit [Yaml.Reader] in
theorem opened_gains (w : Workspace) (settings : Settings) :
    w.files.OnlyGains (opened w settings).files := open_journal_gains w settings.journalDirectory

omit [Yaml.Reader] in
/-- On the console nothing is said about a journal that is opened. -/
theorem opened_console (w : Workspace) (settings : Settings) :
    (opened w settings).output = w.output ∧ (opened w settings).errorsOpen = w.errorsOpen := by
  rw [opened]
  cases settings.journalDirectory with
  | none => exact ⟨rfl, rfl⟩
  | some signs =>
      rw [openJournal]
      cases signs.text? with
      | some directory => exact ⟨rfl, rfl⟩
      | none =>
          simp only
          split
          · exact ⟨rfl, rfl⟩
          · exact ⟨rfl, rfl⟩

/-- The settings and the grid that a sheet is opened with. The separator that is asked for counts
before that of the settings. -/
structure Loads (w : Workspace) (path : Path) (choice : Choice) (settings : Settings)
    (grid : Grid) : Prop where
  loaded : Settings.load w.files (choice.settings.map Path.ofText) = .ok settings
  journal : (openJournal w settings.journalDirectory).2 = none
  sheet : ∃ content text, (opened w settings).files.read path = .ok content ∧
    Text.ofBytes content = .ok text ∧
    Grid.ofSource (Text.unifyLineEnds text) (choice.separatorOver settings) = .ok grid

/-- How a fault of the settings ends a command: it is told if there is a message for it. -/
def endingOf (fault : Settings.FileFault) : Ending :=
  match fault.message? with
  | some message => .refused message
  | none => .broken (.settings fault)

/-- How opening a sheet ends. -/
inductive Opening (w : Workspace) (path : Path) (choice : Choice) :
    Workspace × Except Ending (Settings × Grid) → Prop
  | unset {fault : Settings.FileFault}
      (failed : Settings.load w.files (choice.settings.map Path.ofText) = .error fault) :
      Opening w path choice (w, .error (endingOf fault))
  | unlogged {settings : Settings} {error : FileError}
      (loaded : Settings.load w.files (choice.settings.map Path.ofText) = .ok settings)
      (failed : (openJournal w settings.journalDirectory).2 = some error) :
      Opening w path choice (opened w settings, .error (.broken (.file error)))
  | unread {settings : Settings} {fault : SourceFault} {after : Workspace}
      (loaded : Settings.load w.files (choice.settings.map Path.ofText) = .ok settings)
      (journal : (openJournal w settings.journalDirectory).2 = none)
      (failed : source (opened w settings).files path (choice.separatorOver settings) =
        .error fault)
      (reports : (opened w settings).Reports after) :
      Opening w path choice (after, .error (.refused (unreadMessage path fault)))
  | loaded {settings : Settings} {grid : Grid} {after : Workspace}
      (loads : Loads w path choice settings grid) (reports : (opened w settings).Reports after) :
      Opening w path choice (after, .ok (settings, grid))

omit [Yaml.Reader] [Surroundings] in
theorem source_ok_iff {files : Files} {separator : Signs} {text : Text} :
    source files path separator = .ok (text, grid) ↔
      ∃ content decoded, files.read path = .ok content ∧ Text.ofBytes content = .ok decoded ∧
        text = Text.unifyLineEnds decoded ∧ Grid.ofSource text separator = .ok grid := by
  rw [source]
  simp only [bind_ok_iff, map_error_ok_iff]
  constructor
  · intro ⟨content, read, decoded, decoding, found, reading, same⟩
    cases same
    exact ⟨content, decoded, read, decoding, rfl, reading⟩
  · intro ⟨content, decoded, read, decoding, same, reading⟩
    subst same
    exact ⟨content, read, decoded, decoding, grid, reading, rfl⟩

theorem opening (w : Workspace) (path : Path) (choice : Choice) :
    Opening w path choice (openSheet w path choice) := by
  rw [openSheet]
  cases loaded : Settings.load w.files (choice.settings.map Path.ofText) with
  | error fault =>
      have ends : Opening w path choice (w, .error (endingOf fault)) := .unset loaded
      rw [endingOf] at ends
      exact ends
  | ok settings =>
      cases journal : openJournal w settings.journalDirectory with
      | mk begun failed =>
          obtain rfl : opened w settings = begun := congrArg Prod.fst journal
          have result : (openJournal w settings.journalDirectory).2 = failed :=
            congrArg Prod.snd journal
          cases failed with
          | some error => simpa only [journal] using Opening.unlogged loaded result
          | none =>
              simp only [journal, readGrid]
              cases reading : source (opened w settings).files path
                  (choice.separatorOver settings) with
              | error fault =>
                  exact .unread loaded result reading (Workspace.report_reports _ _)
              | ok found =>
                  obtain ⟨text, grid⟩ := found
                  obtain ⟨content, decoded, read, decoding, rfl, gridded⟩ :=
                    source_ok_iff.mp reading
                  have loads : Loads w path choice settings grid :=
                    ⟨loaded, result, content, decoded, read, decoding, gridded⟩
                  exact .loaded loads (Workspace.report_reports _ _)

/-- Two loadings of a sheet give the same. -/
theorem Loads.unique {other : Settings} {second : Grid} (loads : Loads w path choice settings grid)
    (again : Loads w path choice other second) : other = settings ∧ second = grid := by
  obtain rfl : settings = other := Except.ok.inj (loads.loaded.symm.trans again.loaded)
  obtain ⟨content, text, read, decoding, gridded⟩ := loads.sheet
  obtain ⟨_, _, readAgain, decodingAgain, griddedAgain⟩ := again.sheet
  cases read.symm.trans readAgain
  cases decoding.symm.trans decodingAgain
  cases gridded.symm.trans griddedAgain
  exact ⟨rfl, rfl⟩

theorem Loads.opens (loads : Loads w path choice settings grid) {ending : Ending} :
    ¬Opening w path choice (after, .error ending) := by
  intro opening
  cases opening with
  | unset failed => cases loads.loaded.symm.trans failed
  | unlogged loaded failed =>
      cases loads.loaded.symm.trans loaded
      cases loads.journal.symm.trans failed
  | unread loaded journal failed reports =>
      cases loads.loaded.symm.trans loaded
      obtain ⟨content, text, read, decoding, gridded⟩ := loads.sheet
      cases failed.symm.trans (source_ok_iff.mpr ⟨content, text, read, decoding, rfl, gridded⟩)

end

/-- What a grid is in a file, with a line end behind it. -/
def resultBytes (output : Grid) : List UInt8 := Text.bytes (output.render ++ ['\n'])

/-- A workspace with other content in the file at a place. -/
def wrote (w : Workspace) (place : Place) (content : List UInt8) : Workspace :=
  { w with files := w.files.put place (.file content) }

/-- How writing a grid into a file ends, where an error token that is in it cannot be shown. -/
inductive Writing (w : Workspace) (path : Path) (mayOverwrite : Bool) (output : Grid)
    (unshown : Option Signs) : Workspace × Ending → Prop
  | unknown {error : FileError} (failed : w.files.isThere path = .error error) :
      Writing w path mayOverwrite output unshown (w, .broken (.file error))
  | kept {message : Text} (there : w.files.isThere path = .ok true)
      (denied : mayOverwrite = false) :
      Writing w path mayOverwrite output unshown (w, .refused message)
  | unwritten {message : Text} {isThere : Bool} {after : Workspace}
      (looked : w.files.isThere path = .ok isThere)
      (failed : ∀ place, w.files.locate path = .ok place → w.files.at? place = some .directory)
      (reports : w.Reports after) :
      Writing w path mayOverwrite output unshown (after, .refused message)
  | emptied {place : Place} {token : Signs}
      (permitted : w.files.isThere path = .ok false ∨ mayOverwrite = true)
      (located : w.files.locate path = .ok place) (free : w.files.at? place ≠ some .directory)
      (lacks : unshown = some token) :
      Writing w path mayOverwrite output unshown (wrote w place [], .broken (.notText token))
  | written {place : Place} {message : Text} {after : Workspace}
      (permitted : w.files.isThere path = .ok false ∨ mayOverwrite = true)
      (located : w.files.locate path = .ok place) (free : w.files.at? place ≠ some .directory)
      (whole : unshown = none) (reports : (wrote w place (resultBytes output)).Reports after) :
      Writing w path mayOverwrite output unshown (after.print message, .success)

theorem writing (w : Workspace) (path : Path) (mayOverwrite : Bool) (output : Grid)
    (unshown : Option Signs) :
    Writing w path mayOverwrite output unshown
      (writeGrid w path mayOverwrite output unshown) := by
  rw [writeGrid]
  cases found : w.files.isThere path with
  | error error => exact .unknown found
  | ok isThere =>
      simp only
      split
      · next kept =>
        obtain ⟨there, denied⟩ : isThere = true ∧ mayOverwrite = false := by simpa using kept
        exact .kept (there ▸ found) denied
      · next allowed =>
        have permitted : w.files.isThere path = .ok false ∨ mayOverwrite = true := by
          cases isThere with
          | false => exact .inl found
          | true => exact .inr (by simpa using allowed)
        split
        · next error failed =>
          refine .unwritten found ?_ (Workspace.report_reports _ _)
          intro place located
          by_contra free
          cases failed.symm.trans (Files.write_ok_iff.mpr ⟨place, located, free, rfl⟩)
        · next files token written =>
          obtain ⟨place, located, free, rfl⟩ := Files.write_ok_iff.mp written
          exact .emptied permitted located free rfl
        · next files written =>
          obtain ⟨place, located, free, rfl⟩ := Files.write_ok_iff.mp written
          exact .written permitted located free rfl (Workspace.report_reports _ _)

section

variable [Surroundings]

/-- How the result of working out a sheet is handed on, where an error token that is in it and is no
text cannot be shown. -/
inductive Delivery (w : Workspace) (target : Option Path) (mayOverwrite preview : Bool)
    (output : Grid) (unshown : Option Signs) : Workspace × Ending → Prop
  | table (shown : preview = true) (whole : unshown = none) :
      Delivery w target mayOverwrite preview output unshown
        (w.print (Table.ofFrame output.frame), .success)
  | drawn {token : Signs} {table : Text} (shown : preview = true) (lacks : unshown = some token)
      (draws : Surroundings.table? output.frame token = some table) :
      Delivery w target mayOverwrite preview output unshown (w.print table, .success)
  | undrawn {token : Signs} (shown : preview = true) (lacks : unshown = some token)
      (fails : Surroundings.table? output.frame token = none) :
      Delivery w target mayOverwrite preview output unshown (w, .broken (.notText token))
  | printed (plain : preview = false) (nowhere : target = none) (whole : unshown = none) :
      Delivery w target mayOverwrite preview output unshown (w.print output.render, .success)
  | unprinted {token : Signs} (plain : preview = false) (nowhere : target = none)
      (lacks : unshown = some token) :
      Delivery w target mayOverwrite preview output unshown (w, .broken (.notText token))
  | file {path : Path} {result : Workspace × Ending} (plain : preview = false)
      (somewhere : target = some path) (writes : Writing w path mayOverwrite output unshown result) :
      Delivery w target mayOverwrite preview output unshown result

theorem delivery (w : Workspace) (target : Option Path) (mayOverwrite preview : Bool)
    (output : Grid) (unshown : Option Signs) :
    Delivery w target mayOverwrite preview output unshown
      (deliver w target mayOverwrite preview output unshown) := by
  unfold deliver
  cases preview with
  | true =>
      cases unshown with
      | none => exact .table rfl rfl
      | some token =>
          simp only [if_true]
          cases drawn : Surroundings.table? output.frame token with
          | none => exact .undrawn rfl rfl drawn
          | some table => exact .drawn rfl rfl drawn
  | false =>
      cases target with
      | some target => exact .file rfl rfl (writing _ _ _ _ _)
      | none =>
          cases unshown with
          | none => exact .printed rfl rfl rfl
          | some token => exact .unprinted rfl rfl rfl

/-- Without a table, a result goes into the file that it is meant for. -/
theorem Delivery.writes {target : Option Path} {path : Path} {mayOverwrite preview : Bool}
    {output : Grid} {unshown : Option Signs} {result : Workspace × Ending}
    (delivers : Delivery w target mayOverwrite preview output unshown result)
    (plain : preview = false) (somewhere : target = some path) :
    Writing w path mayOverwrite output unshown result := by
  cases delivers with
  | table shown | drawn shown | undrawn shown => cases shown.symm.trans plain
  | printed _ nowhere | unprinted _ nowhere => cases nowhere.symm.trans somewhere
  | file _ again writes =>
      cases again.symm.trans somewhere
      exact writes

variable [Yaml.Reader] [CallStack]

/-- A workspace with a sheet worked out that was opened with some settings and a grid. -/
def workedOut (w : Workspace) (path : Path) (choice : Choice) (settings : Settings) (grid : Grid) :
    Workspace :=
  ((openSheet w path choice).1.process (settings.sheet grid)).1

/-- The error token of some settings, if a pass has to show it and cannot. -/
def unshownIn? (settings : Settings) (pass : Sheet.Pass) : Option Signs :=
  unshownToken? settings (!pass.sheet.failures.isEmpty)

/-- How working out a sheet ends. -/
inductive Processing (w : Workspace) (path : Path) (choice : Choice) (target : Option Path)
    (overwrite preview : Bool) : Workspace × Ending → Prop
  | unopened {after : Workspace} {ending : Ending}
      (opening : Opening w path choice (after, .error ending)) :
      Processing w path choice target overwrite preview (after, ending)
  | delivered {settings : Settings} {grid : Grid} {result : Workspace × Ending}
      (loads : Loads w path choice settings grid)
      (reports : (opened w settings).Reports (workedOut w path choice settings grid))
      (delivers : Delivery (workedOut w path choice settings grid) target
        (overwrite || settings.mayOverwrite) preview (settings.sheet grid).pass.output
        (unshownIn? settings (settings.sheet grid).pass) result) :
      Processing w path choice target overwrite preview result

theorem processing (w : Workspace) (path : Path) (choice : Choice) (target : Option Path)
    (overwrite preview : Bool) :
    Processing w path choice target overwrite preview
      (processSheet w path choice target overwrite preview) := by
  rw [processSheet]
  have opens := opening w path choice
  cases result : openSheet w path choice with
  | mk begun outcome =>
      rw [result] at opens
      cases opens with
      | unset failed => exact .unopened (.unset failed)
      | unlogged loaded failed => exact .unopened (.unlogged loaded failed)
      | unread loaded journal failed reports =>
          exact .unopened (.unread loaded journal failed reports)
      | @loaded settings grid after loads reports =>
          have same : workedOut w path choice settings grid =
              (begun.process (settings.sheet grid)).1 := by
            rw [workedOut, result]
          have worked := reports.trans (Workspace.process_reports begun (settings.sheet grid))
          rw [← same] at worked
          refine .delivered loads worked ?_
          rw [same]
          exact delivery _ _ _ _ _ _

end

def textOfLines (lines : List Text) : Text := lines.flatMap (· ++ ['\n'])

theorem print_lines_eq (w : Workspace) (lines : List Text) :
    lines.foldl Workspace.print w =
      { w with output := w.output ++ textOfLines (lines.map Text.withoutControls) } := by
  induction lines generalizing w with
  | nil => simp [textOfLines]
  | cons line lines induction => simp [induction, textOfLines, Workspace.print]

/-- The lines that show where a cell is and what is in it. -/
def placeLines (a : Address) (text : Text) : List Text :=
  ["Cell:  ".toList ++ a.label, "Raw:   ".toList ++ text]

variable [Yaml.Reader] [Surroundings] [CallStack]

/-- How showing a cell ends. -/
inductive Showing (w : Workspace) (path : Path) (label : Text) (choice : Choice) :
    Workspace × Ending → Prop
  | unnamed {message : Text} (unnamed : Address.ofLabel? label = none) :
      Showing w path label choice (w, .refused message)
  | unopened {a : Address} {after : Workspace} {ending : Ending}
      (named : Address.ofLabel? label = some a)
      (opening : Opening w path choice (after, .error ending)) :
      Showing w path label choice (after, ending)
  | outside {a : Address} {settings : Settings} {grid : Grid} {after : Workspace} {message : Text}
      (named : Address.ofLabel? label = some a) (loads : Loads w path choice settings grid)
      (reports : (opened w settings).Reports after) (missing : grid.get? a = none) :
      Showing w path label choice (after, .refused message)
  | shown {a : Address} {settings : Settings} {grid : Grid} {after : Workspace} {text : Text}
      (named : Address.ofLabel? label = some a) (loads : Loads w path choice settings grid)
      (reports : (opened w settings).Reports after) (found : grid.get? a = some text)
      (whole : unshownToken? settings (!(evaluateAlone (settings.sheet grid) a).isOk) = none) :
      Showing w path label choice
        ((placeLines a text ++ valueLines (settings.sheet grid)
          (evaluateAlone (settings.sheet grid) a)).foldl Workspace.print after, .success)
  | cut {a : Address} {settings : Settings} {grid : Grid} {after : Workspace} {text : Text}
      {token : Signs} (named : Address.ofLabel? label = some a)
      (loads : Loads w path choice settings grid) (reports : (opened w settings).Reports after)
      (found : grid.get? a = some text)
      (lacks : unshownToken? settings (!(evaluateAlone (settings.sheet grid) a).isOk) =
        some token) :
      Showing w path label choice
        ((placeLines a text).foldl Workspace.print after, .broken (.notText token))

theorem showing (w : Workspace) (path : Path) (label : Text) (choice : Choice) :
    Showing w path label choice (showCell w path label choice) := by
  rw [showCell]
  cases named : Address.ofLabel? label with
  | none => exact .unnamed named
  | some a =>
      have opens := opening w path choice
      generalize openSheet w path choice = result at opens
      cases opens with
      | unset failed => exact .unopened named (.unset failed)
      | unlogged loaded failed => exact .unopened named (.unlogged loaded failed)
      | unread loaded journal failed reports =>
          exact .unopened named (.unread loaded journal failed reports)
      | @loaded settings grid after loads reports =>
          simp only
          cases found : grid.get? a with
          | none => exact .outside named loads reports found
          | some text =>
              simp only
              cases lacks : unshownToken? settings
                  (!(evaluateAlone (settings.sheet grid) a).isOk) with
              | some token => exact .cut named loads reports found lacks
              | none =>
                  have shows := Showing.shown named loads reports found lacks
                  rwa [List.foldl_append] at shows

/-- How a request ends. -/
inductive Running (w : Workspace) (request : Request) : Workspace × Ending → Prop
  | unfit {before after : List Mention} {mention : Mention} {ending : Ending}
      (named : request.mentions = before ++ mention :: after) (fit : Fit w.files before)
      (failed : mention.ending? w.files = some ending) :
      Running w request (w, ending)
  | incomplete (fit : Fit w.files request.mentions) (lacking : request.command = none) :
      Running w request (w, .misused)
  | ran {command : Command} (fit : Fit w.files request.mentions)
      (asked : request.command = some command) :
      Running w request (complainOf (command.run w).1 (command.run w).2, (command.run w).2)

theorem running (w : Workspace) (request : Request) : Running w request (request.run w) := by
  rw [Request.run]
  cases search : request.mentions.findSome? (Mention.ending? w.files) with
  | some ending =>
      obtain ⟨before, mention, after, named, failed, fit⟩ := List.findSome?_eq_some_iff.mp search
      exact .unfit named fit failed
  | none =>
      have fit : Fit w.files request.mentions := List.findSome?_eq_none_iff.mp search
      cases asked : request.command with
      | none => exact .incomplete fit asked
      | some command => exact .ran fit asked

theorem run_of_fit {request : Request} {command : Command} (fit : Fit w.files request.mentions)
    (asked : request.command = some command) :
    request.run w = (complainOf (command.run w).1 (command.run w).2, (command.run w).2) := by
  have search : request.mentions.findSome? (Mention.ending? w.files) = none :=
    List.findSome?_eq_none_iff.mpr fit
  rw [Request.run, search, asked]

theorem run_of_unfit {request : Request} {before after : List Mention} {mention : Mention}
    {ending : Ending} (named : request.mentions = before ++ mention :: after)
    (fit : Fit w.files before) (failed : mention.ending? w.files = some ending) :
    request.run w = (w, ending) := by
  have search : request.mentions.findSome? (Mention.ending? w.files) = some ending :=
    List.findSome?_eq_some_iff.mpr ⟨before, mention, after, named, failed, fit⟩
  rw [Request.run, search]

end PostfixSheet.CommandLine
