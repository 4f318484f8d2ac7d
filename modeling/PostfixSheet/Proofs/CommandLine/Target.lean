import PostfixSheet.Proofs.CommandLine.Stages
import PostfixSheet.Text.Control

/-!
# The file that a result is written into

Where a sheet is worked out into a file, the file holds what the same command prints without a
target, control sequences included, which the console leaves out. A file that is there is replaced
only where that is allowed, and a command that fails has written into no file but the journal. The
exception is a result with an error token that is no text: its file is opened, and left empty.
-/

namespace PostfixSheet.CommandLine

open Workspace (LogsAt)

variable {w middle after : Workspace} {path target : Path} {choice : Choice} {output : Grid}
variable {settings : Settings} {grid : Grid} {result : Workspace × Ending} {mayOverwrite : Bool}
variable {goal : Option Path} {preview : Bool} {unshown : Option Signs}

/-! Files that stay as they are -/

/-- Away from the journal both workspaces have the same files with the same content. -/
def Untouched (w after : Workspace) : Prop :=
  ∀ place content, ¬after.LogsAt place →
    (after.files.at? place = some (.file content) ↔ w.files.at? place = some (.file content))

theorem Untouched.refl (w : Workspace) : Untouched w w := fun _ _ _ => Iff.rfl

theorem Untouched.reports (untouched : Untouched w middle) (reports : middle.Reports after) :
    Untouched w after := by
  intro place content apart
  have still : ¬middle.LogsAt place := fun leads => apart (reports.logs_at_iff.mpr leads)
  rw [reports.elsewhere place still]
  exact untouched place content still

section

variable [Surroundings]

theorem opened_untouched (w : Workspace) (settings : Settings) :
    Untouched w (opened w settings) :=
  fun _ _ _ => (opened_gains w settings).file_iff

theorem Opening.untouched [Yaml.Reader] {outcome : Except Ending (Settings × Grid)}
    (opening : Opening w path choice (after, outcome)) : Untouched w after := by
  cases opening with
  | unset => exact .refl w
  | unlogged => exact opened_untouched w _
  | unread _ _ _ reports => exact (opened_untouched w _).reports reports
  | loaded _ reports => exact (opened_untouched w _).reports reports

theorem Opening.not_unshown [Yaml.Reader] {token : Signs} :
    ¬Opening w path choice (after, .error (.broken (.notText token))) := by
  intro opening
  generalize result : (Except.error (.broken (.notText token)) : Except Ending (Settings × Grid)) =
    outcome at opening
  cases opening with
  | unlogged | unread | loaded => cases result
  | @unset fault failed =>
      have ends := Except.error.inj result
      rw [endingOf] at ends
      cases fault with
      | missing | malformed | notMapping | invalid => cases ends
      | unreadable | undecodable | badValue => cases ends

/-- A grid that was not handed on leaves nothing behind but reports, unless it is its error token
that could not be written into a file. -/
theorem Delivery.failure
    (delivers : Delivery w goal mayOverwrite preview output unshown result)
    (failed : result.2.status ≠ 0)
    (texts : goal = none ∨ ∀ token, result.2 ≠ .broken (.notText token)) : w.Reports result.1 := by
  cases delivers with
  | table | drawn | printed => exact absurd rfl failed
  | undrawn | unprinted => exact .refl w
  | file _ somewhere writes =>
      cases writes with
      | unknown | kept => exact .refl w
      | unwritten _ _ reports => exact reports
      | emptied =>
          rcases texts with nowhere | texts
          · cases somewhere.symm.trans nowhere
          · exact absurd rfl (texts _)
      | written => exact absurd rfl failed

/-- The file for a grid whose error token is no text is left empty. -/
theorem Delivery.emptied {token : Signs}
    (delivers : Delivery w (some target) mayOverwrite false output unshown result)
    (cut : result.2 = .broken (.notText token)) :
    ∃ place, w.files.locate target = .ok place ∧ result.1 = wrote w place [] := by
  cases delivers.writes rfl rfl with
  | unknown | kept | unwritten | written => cases cut
  | emptied permitted located free lacks => exact ⟨_, located, rfl⟩

variable [Yaml.Reader] [CallStack]

theorem process_untouched {overwrite : Bool}
    (processed : Processing w path choice goal overwrite preview result)
    (failed : result.2.status ≠ 0)
    (texts : goal = none ∨ ∀ token, result.2 ≠ .broken (.notText token)) :
    Untouched w result.1 := by
  cases processed with
  | unopened opening => exact opening.untouched
  | delivered loads reports delivers =>
      exact ((opened_untouched w _).reports reports).reports (delivers.failure failed texts)

theorem process_emptied {token : Signs} {overwrite : Bool}
    (processed : Processing w path choice (some target) overwrite false result)
    (cut : result.2 = .broken (.notText token)) :
    ∃ before place, Untouched w before ∧ before.files.locate target = .ok place ∧
      result.1 = wrote before place [] := by
  cases processed with
  | @unopened after ending opening =>
      subst cut
      exact absurd opening Opening.not_unshown
  | delivered loads reports delivers =>
      obtain ⟨place, located, same⟩ := delivers.emptied cut
      exact ⟨_, place, (opened_untouched w _).reports reports, located, same⟩

end

theorem complain_of_reports (w : Workspace) (ending : Ending) : w.Reports (complainOf w ending) := by
  cases ending with
  | refused message => exact (Workspace.Reports.refl w).of_complaint _
  | success | misused | broken => exact .refl w

theorem complain_of_success {ending : Ending} (done : ending.status = 0) :
    complainOf w ending = w := by
  cases ending with
  | success => rfl
  | refused | misused | broken => cases done

/-! A file that is written -/

/-- A grid that was written stands in its file, unless the journal goes there as well. -/
theorem Writing.success (writes : Writing w path mayOverwrite output unshown result)
    (done : result.2.status = 0)
    (apart : ∀ place, result.1.files.locate path = .ok place → ¬result.1.LogsAt place) :
    unshown = none ∧ result.1.files.read path = .ok (resultBytes output) := by
  cases writes with
  | unknown | kept | unwritten | emptied => cases done
  | @written place message after permitted located free whole reports =>
      have put : w.files.SameDirectories (wrote w place (resultBytes output)).files :=
        Files.same_directories_put_file free
      have leads : after.files.locate path = .ok place :=
        (put.trans reports.directories).locate_iff.mp located
      have silent : ¬(wrote w place (resultBytes output)).LogsAt place :=
        fun logs => apart place leads (reports.logs_at_iff.mpr logs)
      have stands : after.files.at? place = some (.file (resultBytes output)) :=
        (reports.elsewhere place silent).trans (Files.at_put_file free)
      exact ⟨whole, Files.read_ok_iff.mpr ⟨place, leads, stands⟩⟩

section

variable [Yaml.Reader] [Surroundings] [CallStack]

theorem process_prints {overwrite : Bool} (loads : Loads w path choice settings grid)
    (whole : unshownIn? settings (settings.sheet grid).pass = none)
    (processed : Processing w path choice none overwrite false result) :
    result.2 = .success ∧ result.1.output = w.output ++ Text.withoutControls
      (settings.sheet grid).pass.output.render ++ ['\n'] := by
  cases processed with
  | unopened opening => exact absurd opening loads.opens
  | delivered again reports delivers =>
      obtain ⟨rfl, rfl⟩ := loads.unique again
      cases delivers with
      | table shown | drawn shown | undrawn shown => cases shown
      | file _ somewhere => cases somewhere
      | unprinted _ _ lacks => cases whole.symm.trans lacks
      | printed =>
          have before := reports.output.trans (opened_console w _).1
          refine ⟨rfl, ?_⟩
          rw [Workspace.print, before]

end

/-! A file that is kept -/

section

variable [Yaml.Reader] [Surroundings]

theorem Opening.status {ending : Ending}
    (opening : Opening w path choice (after, .error ending)) : ending.status = 1 := by
  cases opening with
  | unlogged | unread => rfl
  | @unset fault failed =>
      rw [endingOf]
      split
      · rfl
      · rfl

variable [CallStack]

theorem process_refuses {old : List UInt8}
    (processed : Processing w path choice (some target) false false result)
    (there : w.files.read target = .ok old)
    (denied : ∀ settings, Settings.load w.files (choice.settings.map Path.ofText) = .ok settings →
      settings.mayOverwrite = false) :
    result.2.status = 1 := by
  cases processed with
  | unopened opening => exact opening.status
  | @delivered settings grid result loads reports delivers =>
      cases delivers.writes rfl rfl with
      | unknown | kept | unwritten | emptied => rfl
      | @written place message after permitted located free whole further =>
          obtain ⟨standing, leads, stands⟩ := Files.read_ok_iff.mp there
          have gains := opened_gains w settings
          have reached := reports.directories.locate_iff.mp (Files.locate_of_grows gains.grows leads)
          cases located.symm.trans reached
          have kept : ((workedOut w path choice settings grid).files.at? place).isSome := by
            apply reports.kept
            rw [gains.file_iff.mpr stands, Option.isSome_some]
          rcases permitted with absent | allowed
          · rw [Files.is_there_of_locate reached, kept] at absent
            cases absent
          · rw [denied settings loads.loaded] at allowed
            cases allowed

/-! The command as a whole -/

/-- How the words after the name of the process command end. -/
inductive ProcessRun (w : Workspace) (arguments : Arguments) : Workspace × Ending → Prop
  | unfit {mention : Mention} {ending : Ending} (named : mention ∈ Mention.ofArguments arguments)
      (failed : mention.ending? w.files = some ending) :
      ProcessRun w arguments (w, ending)
  | incomplete (lacking : ∀ source, arguments.words ≠ [source]) :
      ProcessRun w arguments (w, .misused)
  | ran {source : Text} {result : Workspace × Ending}
      (fit : Fit w.files (Mention.ofArguments arguments)) (words : arguments.words = [source])
      (processed : Processing w (Path.ofText source) (Request.choiceOf arguments)
        ((arguments.value? .target).map Path.ofText) (arguments.has .overwrite)
        (arguments.has .preview) result) :
      ProcessRun w arguments (complainOf result.1 result.2, result.2)

theorem process_run (w : Workspace) (arguments : Arguments) :
    ProcessRun w arguments ((Request.ofProcess arguments).run w) := by
  have runs := running w (Request.ofProcess arguments)
  generalize (Request.ofProcess arguments).run w = result at runs
  cases runs with
  | @unfit before after mention ending named fit failed =>
      have member : mention ∈ (Request.ofProcess arguments).mentions := by
        rw [named]
        exact List.mem_append_right before List.mem_cons_self
      exact .unfit member failed
  | incomplete fit lacking =>
      apply ProcessRun.incomplete
      intro source words
      rw [Request.ofProcess, words] at lacking
      cases lacking
  | @ran command fit asked =>
      rw [Request.ofProcess] at asked
      split at asked
      · next source words =>
        cases asked
        exact .ran fit words (processing _ _ _ _ _ _)
      · cases asked

namespace ProcessRun

variable {arguments : Arguments} {source goal : Text} {old : List UInt8}

theorem untouched (runs : ProcessRun w arguments result) (failed : result.2.status ≠ 0)
    (texts : arguments.value? .target = none ∨ ∀ token, result.2 ≠ .broken (.notText token)) :
    Untouched w result.1 := by
  cases runs with
  | unfit | incomplete => exact .refl w
  | ran fit words processed =>
      have goalless := texts.imp_left (congrArg (Option.map Path.ofText))
      exact (process_untouched processed failed goalless).reports (complain_of_reports _ _)

theorem emptied {token : Signs} (runs : ProcessRun w arguments result)
    (plain : arguments.has .preview = false) (aim : arguments.value? .target = some goal)
    (cut : result.2 = .broken (.notText token)) :
    ∃ before place, Untouched w before ∧ before.files.locate (Path.ofText goal) = .ok place ∧
      result.1 = wrote before place [] := by
  cases runs with
  | unfit _ failed =>
      rcases mention_ending_iff.mp failed with ⟨_, same⟩ | ⟨_, _, same⟩
      · cases same.symm.trans cut
      · cases same.symm.trans cut
  | incomplete => cases cut
  | @ran source result fit words processed =>
      rw [aim, plain] at processed
      change result.2 = .broken (.notText token) at cut
      simp only [cut, complainOf]
      exact process_emptied processed cut

theorem written (runs : ProcessRun w arguments result) (plain : arguments.has .preview = false)
    (aim : arguments.value? .target = some goal) (done : result.2.status = 0)
    (apart : ∀ place, result.1.files.locate (Path.ofText goal) = .ok place →
      ¬result.1.LogsAt place) :
    Fit w.files (Mention.ofArguments arguments) ∧ ∃ source settings grid,
      arguments.words = [source] ∧
      Loads w (Path.ofText source) (Request.choiceOf arguments) settings grid ∧
      unshownIn? settings (settings.sheet grid).pass = none ∧
      result.1.files.read (Path.ofText goal) =
        .ok (resultBytes (settings.sheet grid).pass.output) := by
  cases runs with
  | unfit _ failed => exact absurd done (mention_status_ne_zero failed)
  | incomplete => cases done
  | ran fit words processed =>
      rw [aim, plain] at processed
      cases processed with
      | unopened opening => cases opening.status.symm.trans done
      | delivered loads reports delivers =>
          have writes := delivers.writes rfl rfl
          simp only [complain_of_success done] at apart ⊢
          exact ⟨fit, _, _, _, words, loads, writes.success done apart⟩

theorem refused (runs : ProcessRun w arguments result) (words : arguments.words = [source])
    (sheet : Mention.isFile w.files source)
    (configured : ∀ name, arguments.value? .settings = some name → Mention.isFile w.files name)
    (aim : arguments.value? .target = some goal) (there : w.files.read (Path.ofText goal) = .ok old)
    (unforced : arguments.has .overwrite = false)
    (denied : ∀ settings,
      Settings.load w.files ((Request.choiceOf arguments).settings.map Path.ofText) =
        .ok settings → settings.mayOverwrite = false)
    (plain : arguments.has .preview = false) : result.2.status = 1 := by
  cases runs with
  | incomplete lacking => exact absurd words (lacking source)
  | ran fit words processed =>
      rw [aim, unforced, plain, Option.map_some] at processed
      have one := process_refuses processed there denied
      exact one
  | @unfit mention ending named failed =>
      rcases mention_ending_iff.mp failed with ⟨_, same⟩ | ⟨_, unfit, _⟩
      · rw [same]
        rfl
      · have fits : mention.isFit w.files = true := by
          rcases mem_of_arguments.mp named with ⟨switch, value, given, names⟩ | ⟨word, first, rfl⟩
          · cases switch with
            | settings =>
                cases names
                exact configured value given
            | target =>
                cases names
                cases given.symm.trans aim
                simpa [Mention.isFit] using Files.find_ne_directory there
            | separator | overwrite | preview | version | help => cases names
          · rw [words] at first
            cases first
            exact sheet
        cases fits.symm.trans unfit

theorem prints (runs : ProcessRun w arguments result)
    (fit : Fit w.files (Mention.ofArguments arguments)) (words : arguments.words = [source])
    (plain : arguments.has .preview = false) (nowhere : arguments.value? .target = none)
    (loads : Loads w (Path.ofText source) (Request.choiceOf arguments) settings grid)
    (whole : unshownIn? settings (settings.sheet grid).pass = none) :
    result.2.status = 0 ∧ result.1.output = w.output ++ Text.withoutControls
      (settings.sheet grid).pass.output.render ++ ['\n'] := by
  cases runs with
  | unfit named failed => cases (fit _ named).symm.trans failed
  | incomplete lacking => exact absurd words (lacking source)
  | @ran word result fit again processed =>
      cases words.symm.trans again
      rw [nowhere, plain] at processed
      obtain ⟨done, shown⟩ := process_prints loads whole processed
      rw [done]
      exact ⟨rfl, shown⟩

end ProcessRun

/-- The process command next to the same command without a target, both from one start. -/
structure ServesTarget (files : Files) (time : Text) (arguments : Arguments)
    (result unaimed : Workspace × Ending) : Prop where
  /-- The file has the result with a line end, and the console has it without control sequences. -/
  written : ∀ goal, arguments.value? .target = some goal → result.2.status = 0 →
    (∀ place, result.1.files.locate (Path.ofText goal) = .ok place → ¬result.1.LogsAt place) →
    ∃ source settings grid, arguments.words = [source] ∧
      Loads (.ofFiles files time) (Path.ofText source) (Request.choiceOf arguments) settings grid ∧
      let text := (settings.sheet grid).pass.output.render
      result.1.files.read (Path.ofText goal) = .ok (Text.bytes (text ++ ['\n'])) ∧
      unaimed.2.status = 0 ∧ unaimed.1.output = Text.withoutControls text ++ ['\n'] ∧
      ('\x1b' ∉ text → unaimed.1.output = text ++ ['\n'])
  /-- A file that is there and may not be replaced is a reason to refuse. -/
  kept : ∀ source goal old, arguments.words = [source] → Mention.isFile files source →
    (∀ name, arguments.value? .settings = some name → Mention.isFile files name) →
    arguments.value? .target = some goal → files.read (Path.ofText goal) = .ok old →
    arguments.has .overwrite = false →
    (∀ settings,
      Settings.load files ((Request.choiceOf arguments).settings.map Path.ofText) =
        .ok settings → settings.mayOverwrite = false) →
    result.2.status = 1
  /-- A failure leaves all files as they were, and no new one, the journal's apart, unless it is an
  error token that could not be written into the file. -/
  untouched : result.2.status ≠ 0 →
    arguments.value? .target = none ∨ (∀ token, result.2 ≠ .broken (.notText token)) →
    Untouched (.ofFiles files time) result.1
  /-- An error token that is no text leaves the file empty, and all others as they were. -/
  emptied : ∀ goal token, arguments.value? .target = some goal →
    result.2 = .broken (.notText token) →
    ∃ before place, Untouched (.ofFiles files time) before ∧
      before.files.locate (Path.ofText goal) = .ok place ∧ result.1 = wrote before place []

theorem target_is_served (files : Files) (time : Text) (arguments : Arguments)
    (plain : arguments.has .preview = false) :
    ServesTarget files time arguments
      ((Request.ofProcess arguments).run (.ofFiles files time))
      ((Request.ofProcess (arguments.without .target)).run (.ofFiles files time)) := by
  have runs := process_run (.ofFiles files time) arguments
  have unaimed := process_run (.ofFiles files time) (arguments.without .target)
  constructor
  · intro goal aim done apart
    obtain ⟨fit, source, settings, grid, words, loads, whole, written⟩ :=
      runs.written plain aim done apart
    have choice : Request.choiceOf (arguments.without .target) = Request.choiceOf arguments := by
      rw [Request.choiceOf, Request.choiceOf, Arguments.value_without (by decide),
        Arguments.value_without (by decide)]
    have plainly : (arguments.without .target).has .preview = false := by
      rw [Arguments.has_without (by decide), plain]
    obtain ⟨status, printed⟩ := unaimed.prints fit.without words plainly
      Arguments.value_without_self (by rwa [choice]) whole
    refine ⟨source, settings, grid, words, loads, written, status, printed, ?_⟩
    intro uncontrolled
    rw [printed, Text.without_controls_of_plain uncontrolled]
    rfl
  · intro source goal old words sheet configured aim there unforced denied
    exact runs.refused words sheet configured aim there unforced denied plain
  · exact runs.untouched
  · exact fun goal token => runs.emptied plain

end

/-! Control sequences between the cells -/

/-- A sheet whose cells stand apart by a control sequence. -/
def coloredSheet : Files := ⟨[(["s.csv".toList], .file (Text.bytes "a\x1b[mb\n".toList))]⟩

/-- The same sheet beside a file that is there before. -/
def coloredSheetBeside : Files :=
  ⟨coloredSheet.entries ++ [(["t.csv".toList], .file (Text.bytes "old\n".toList))]⟩

def coloredTarget : Arguments :=
  ⟨[(.separator, "\x1b[m".toList), (.target, "t.csv".toList)], ["s.csv".toList]⟩

/-- The same sheet, and settings with a surrogate for the error token. -/
def unshownSheet : Files :=
  ⟨coloredSheet.entries ++
    [(["c.yaml".toList], .file (Text.bytes "error_token: \"\\ud800\"\n".toList))]⟩

def unshownTarget : Arguments :=
  ⟨[(.settings, "c.yaml".toList), (.target, "t.csv".toList)], ["s.csv".toList]⟩

theorem colored_target_is_served :
    (∃ source settings grid, coloredTarget.words = [source] ∧
      Loads (.ofFiles coloredSheet []) (Path.ofText source) (Request.choiceOf coloredTarget)
        settings grid) ∧
    ((Request.ofProcess coloredTarget).run (.ofFiles coloredSheetBeside [])).2.status = 1 ∧
    Untouched (.ofFiles coloredSheetBeside [])
      ((Request.ofProcess coloredTarget).run (.ofFiles coloredSheetBeside [])).1 ∧
    ∃ before place, Untouched (.ofFiles unshownSheet []) before ∧
      before.files.locate (Path.ofText "t.csv".toList) = .ok place ∧
      ((Request.ofProcess unshownTarget).run (.ofFiles unshownSheet [])).1 =
        wrote before place [] := by
  have written := (target_is_served coloredSheet [] coloredTarget rfl).written _ rfl rfl
    fun place _ => Workspace.not_logs_of_closed rfl place
  have beside := target_is_served coloredSheetBeside [] coloredTarget rfl
  have standard : ∀ settings, Settings.load coloredSheetBeside none = .ok settings →
      settings.mayOverwrite = false := by
    intro settings loaded
    cases loaded
    rfl
  have refused := beside.kept "s.csv".toList "t.csv".toList _ rfl rfl nofun rfl rfl rfl standard
  obtain ⟨source, settings, grid, words, loads, _⟩ := written
  have told : ((Request.ofProcess coloredTarget).run (.ofFiles coloredSheetBeside [])).2 =
      .refused "t.csv already exists; use --overwrite to replace it".toList := by rfl
  have cut : ((Request.ofProcess unshownTarget).run (.ofFiles unshownSheet [])).2 =
      .broken (.notText [.half 0]) := by decide +kernel
  have emptied := (target_is_served unshownSheet [] unshownTarget rfl).emptied _ _ rfl cut
  refine ⟨⟨source, settings, grid, words, loads⟩, refused, beside.untouched ?_ (.inr ?_), emptied⟩
  · rw [refused]
    exact Nat.one_ne_zero
  · intro token same
    cases told.symm.trans same

/-- What is printed lacks the control sequences that the file has. -/
theorem colored_separator_is_not_printed :
    let result := run (.ofFiles coloredSheet [])
      (["process", "s.csv", "-s", "\x1b[m", "-o", "t.csv"].map String.toList)
    let unaimed := run (.ofFiles coloredSheet [])
      (["process", "s.csv", "-s", "\x1b[m"].map String.toList)
    result.2.status = 0 ∧ unaimed.2.status = 0 ∧ (∀ place, ¬result.1.LogsAt place) ∧
      result.1.files.read (Path.ofText "t.csv".toList) ≠ .ok (Text.bytes unaimed.1.output) := by
  intro result unaimed
  have written : result.1.files.read (Path.ofText "t.csv".toList) =
      .ok (Text.bytes "#ERR\x1b[m#ERR\n".toList) := by rfl
  have printed : unaimed.1.output = "#ERR#ERR\n".toList := by rfl
  refine ⟨rfl, rfl, Workspace.not_logs_of_closed rfl, ?_⟩
  rw [written, printed]
  intro same
  exact absurd (Except.ok.inj same) (by decide)

end PostfixSheet.CommandLine
