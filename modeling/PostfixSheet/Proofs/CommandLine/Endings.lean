import PostfixSheet.Proofs.CommandLine.Stages

/-!
# Which failures are told

A command that does not succeed has been misused or says on the console why it was refused, apart
from the failures for which no message is made: a name that no file can have, a settings file that
cannot be read or decoded or holds a value that cannot be formed, a journal whose directory is not
to be had, a target of which it cannot be told whether it is there, an error token that has to be
shown and is no text, and an expression that is nested too deep. These are all of them.
-/

namespace PostfixSheet.CommandLine

variable {w : Workspace} {path : Path} {choice : Choice} {breakdown : Breakdown}
  {settings : Settings}

/-- A run that succeeded, that was misused, or that said at last why it was refused. -/
def Told (result : Workspace × Ending) : Prop :=
  result.2.status = 0 ∨ result.2.status = 2 ∨
    result.2.status = 1 ∧ ∃ message earlier, result.2 = .refused message ∧
      result.1.errors = earlier ++ Text.withoutControls ("Error: ".toList ++ message) ++ ['\n']

/-- The faults of a settings file that have no message. -/
inductive IsUntold : Settings.FileFault → Prop
  | unreadable (error : FileError) : IsUntold (.unreadable error)
  | undecodable (bad : Text.Undecodable) : IsUntold (.undecodable bad)
  | unformed (fault : Yaml.Fault) : IsUntold (.badValue fault)

section

variable [Yaml.Reader] [Surroundings]

/-- Why no sheet can be opened without a message that tells it. -/
inductive Unopened (w : Workspace) (choice : Choice) : Breakdown → Prop
  | settings {fault : Settings.FileFault}
      (failed : Settings.load w.files (choice.settings.map Path.ofText) = .error fault)
      (untold : IsUntold fault) :
      Unopened w choice (.settings fault)
  | journal {settings : Settings} {error : FileError}
      (loaded : Settings.load w.files (choice.settings.map Path.ofText) = .ok settings)
      (failed : (openJournal w settings.journalDirectory).2 = some error) :
      Unopened w choice (.file error)

end

/-- Why the result of working out a sheet is not handed on without a message that tells it: it
cannot be told whether a file is there that it is to go to, or an error token in it is no text. A
file that it is to go to is left empty then, if it may be written at all. -/
inductive Undelivered [Surroundings] (w : Workspace) (target : Option Path)
    (mayOverwrite preview : Bool) (output : Grid) (unshown : Option Signs) : Breakdown → Prop
  | undrawn {token : Signs} (shown : preview = true) (lacks : unshown = some token)
      (fails : Surroundings.table? output.frame token = none) :
      Undelivered w target mayOverwrite preview output unshown (.notText token)
  | unprinted {token : Signs} (plain : preview = false) (nowhere : target = none)
      (lacks : unshown = some token) :
      Undelivered w target mayOverwrite preview output unshown (.notText token)
  | undecided {path : Path} {error : FileError} (plain : preview = false)
      (somewhere : target = some path) (failed : w.files.isThere path = .error error) :
      Undelivered w target mayOverwrite preview output unshown (.file error)
  | emptied {path : Path} {place : Place} {token : Signs} (plain : preview = false)
      (somewhere : target = some path)
      (permitted : w.files.isThere path = .ok false ∨ mayOverwrite = true)
      (located : w.files.locate path = .ok place) (free : w.files.at? place ≠ some .directory)
      (lacks : unshown = some token) :
      Undelivered w target mayOverwrite preview output unshown (.notText token)

/-- What the sheet of a command is read with. A cell that has no name is not looked for. -/
def Command.choice? : Command → Option Choice
  | .process _ choice _ _ _ => some choice
  | .cell _ label choice => (Address.ofLabel? label).map fun _ => choice
  | _ => none

section

variable [Yaml.Reader] [Surroundings] [CallStack]

/-- How a request can end without a message. -/
inductive Escapes (w : Workspace) (request : Request) : Breakdown → Prop
  | unnameable {before after : List Mention} {mention : Mention}
      (named : request.mentions = before ++ mention :: after) (fit : Fit w.files before)
      (bad : Path.canName mention.text = false) :
      Escapes w request (.file ⟨.unnameable, mention.text⟩)
  | unopened {choice : Choice} {breakdown : Breakdown} (fit : Fit w.files request.mentions)
      (asked : request.command.bind Command.choice? = some choice)
      (unopened : Unopened w choice breakdown) :
      Escapes w request breakdown
  | undelivered {source : Text} {choice : Choice} {target : Option Text} {overwrite preview : Bool}
      {settings : Settings} {grid : Grid} {breakdown : Breakdown}
      (fit : Fit w.files request.mentions)
      (asked : request.command = some (.process source choice target overwrite preview))
      (loads : Loads w (Path.ofText source) choice settings grid)
      (undelivered : Undelivered (workedOut w (Path.ofText source) choice settings grid)
        (target.map Path.ofText) (overwrite || settings.mayOverwrite) preview
        (settings.sheet grid).pass.output (unshownIn? settings (settings.sheet grid).pass)
        breakdown) :
      Escapes w request breakdown
  | cut {source label : Text} {choice : Choice} {a : Address} {settings : Settings} {grid : Grid}
      {token : Signs} (fit : Fit w.files request.mentions)
      (asked : request.command = some (.cell source label choice))
      (named : Address.ofLabel? label = some a)
      (loads : Loads w (Path.ofText source) choice settings grid)
      (inside : (grid.get? a).isSome)
      (lacks : unshownToken? settings (!(evaluateAlone (settings.sheet grid) a).isOk) =
        some token) :
      Escapes w request (.notText token)
  | nested {expression written : Text} (fit : Fit w.files request.mentions)
      (asked : request.command = some (.convert expression))
      (reads : Infix.inPostfix expression = .ok written)
      (deep : Surroundings.converts expression = false) :
      Escapes w request .tooDeep

end

/-! Endings of the stages -/

theorem ending_of_broken_iff {fault : Settings.FileFault} :
    endingOf fault = .broken breakdown ↔ IsUntold fault ∧ breakdown = .settings fault := by
  constructor
  · intro ends
    cases fault with
    | missing | malformed | notMapping | invalid => cases ends
    | unreadable error =>
        cases ends
        exact ⟨.unreadable error, rfl⟩
    | undecodable bad =>
        cases ends
        exact ⟨.undecodable bad, rfl⟩
    | badValue fault =>
        cases ends
        exact ⟨.unformed fault, rfl⟩
  · intro ⟨untold, same⟩
    subst same
    cases untold with
    | unreadable | undecodable | unformed => rfl

theorem mention_broken_iff {files : Files} {mention : Mention} :
    mention.ending? files = some (.broken breakdown) ↔
      Path.canName mention.text = false ∧ breakdown = .file ⟨.unnameable, mention.text⟩ := by
  rw [mention_ending_iff]
  simp

section

variable [Yaml.Reader] [Surroundings]

theorem Opening.unopened {after : Workspace}
    (opening : Opening w path choice (after, .error (.broken breakdown))) :
    Unopened w choice breakdown := by
  generalize result : (Except.error (.broken breakdown) : Except Ending (Settings × Grid)) = ending
    at opening
  cases opening with
  | unset failed =>
      have ends := ending_of_broken_iff.mp (Except.error.inj result).symm
      rw [ends.2]
      exact .settings failed ends.1
  | unlogged loaded failed =>
      cases result
      exact .journal loaded failed
  | unread | loaded => cases result

theorem open_sheet_of_unopened (path : Path) (unopened : Unopened w choice breakdown) :
    ∃ after, openSheet w path choice = (after, .error (.broken breakdown)) := by
  rw [openSheet]
  cases unopened with
  | settings failed untold =>
      rw [failed]
      have ends := ending_of_broken_iff.mpr ⟨untold, rfl⟩
      exact ⟨w, congrArg (fun ending => (w, Except.error ending)) ends⟩
  | @journal settings error loaded failed =>
      rw [loaded]
      cases began : openJournal w settings.journalDirectory with
      | mk begun result =>
          rw [began] at failed
          cases failed
          simp only [began]
          exact ⟨begun, rfl⟩

end

theorem Writing.broken_iff {mayOverwrite : Bool} {output : Grid} {unshown : Option Signs}
    {result : Workspace × Ending} (writes : Writing w path mayOverwrite output unshown result) :
    result.2 = .broken breakdown ↔
      (∃ error, w.files.isThere path = .error error ∧ breakdown = .file error) ∨
      ∃ place token, (w.files.isThere path = .ok false ∨ mayOverwrite = true) ∧
        w.files.locate path = .ok place ∧ w.files.at? place ≠ some .directory ∧
        unshown = some token ∧ breakdown = .notText token := by
  constructor
  · intro ends
    cases writes with
    | kept | unwritten | written => cases ends
    | unknown failed =>
        cases ends
        exact .inl ⟨_, failed, rfl⟩
    | emptied permitted located free lacks =>
        cases ends
        exact .inr ⟨_, _, permitted, located, free, lacks, rfl⟩
  · rintro (⟨error, failed, rfl⟩ | ⟨place, token, permitted, located, free, lacks, rfl⟩)
    · cases writes with
      | unknown other =>
          cases other.symm.trans failed
          rfl
      | kept there => cases there.symm.trans failed
      | unwritten looked => cases looked.symm.trans failed
      | emptied _ located | written _ located =>
          cases (Files.is_there_of_locate located).symm.trans failed
    · cases writes with
      | unknown failed => cases (Files.is_there_of_locate located).symm.trans failed
      | kept there denied =>
          rcases permitted with absent | allowed
          · cases there.symm.trans absent
          · cases denied.symm.trans allowed
      | unwritten _ failed => exact absurd (failed _ located) free
      | emptied _ _ _ known =>
          cases known.symm.trans lacks
          rfl
      | written _ _ _ whole => cases whole.symm.trans lacks

theorem Delivery.broken_iff [Surroundings] {target : Option Path} {mayOverwrite preview : Bool}
    {output : Grid} {unshown : Option Signs} {result : Workspace × Ending}
    (delivers : Delivery w target mayOverwrite preview output unshown result) :
    result.2 = .broken breakdown ↔
      Undelivered w target mayOverwrite preview output unshown breakdown := by
  constructor
  · intro ends
    cases delivers with
    | table | drawn | printed => cases ends
    | undrawn shown lacks fails =>
        cases ends
        exact .undrawn shown lacks fails
    | unprinted plain nowhere lacks =>
        cases ends
        exact .unprinted plain nowhere lacks
    | file plain somewhere writes =>
        rcases writes.broken_iff.mp ends with
          ⟨error, failed, rfl⟩ | ⟨place, token, permitted, located, free, lacks, rfl⟩
        · exact .undecided plain somewhere failed
        · exact .emptied plain somewhere permitted located free lacks
  · intro undelivered
    cases undelivered with
    | undrawn shown lacks fails =>
        cases delivers with
        | table _ whole => cases whole.symm.trans lacks
        | drawn _ again draws =>
            cases again.symm.trans lacks
            cases draws.symm.trans fails
        | undrawn _ again =>
            cases again.symm.trans lacks
            rfl
        | printed plain | unprinted plain | file plain => cases plain.symm.trans shown
    | unprinted plain nowhere lacks =>
        cases delivers with
        | table shown | drawn shown | undrawn shown => cases shown.symm.trans plain
        | printed _ _ whole => cases whole.symm.trans lacks
        | unprinted _ _ again =>
            cases again.symm.trans lacks
            rfl
        | file _ somewhere => cases somewhere.symm.trans nowhere
    | undecided plain somewhere failed =>
        exact (delivers.writes plain somewhere).broken_iff.mpr (.inl ⟨_, failed, rfl⟩)
    | emptied plain somewhere permitted located free lacks =>
        exact (delivers.writes plain somewhere).broken_iff.mpr
          (.inr ⟨_, _, permitted, located, free, lacks, rfl⟩)

/-! Endings of the commands -/

section

variable [Yaml.Reader] [Surroundings] [CallStack]

theorem process_broken_iff {target : Option Path} {overwrite preview : Bool} :
    (processSheet w path choice target overwrite preview).2 = .broken breakdown ↔
      Unopened w choice breakdown ∨ ∃ settings grid, Loads w path choice settings grid ∧
        Undelivered (workedOut w path choice settings grid) target
          (overwrite || settings.mayOverwrite) preview (settings.sheet grid).pass.output
          (unshownIn? settings (settings.sheet grid).pass) breakdown := by
  have processed := processing w path choice target overwrite preview
  constructor
  · intro ends
    generalize processSheet w path choice target overwrite preview = result at processed ends
    cases processed with
    | unopened opening =>
        subst ends
        exact .inl opening.unopened
    | delivered loads reports delivers =>
        exact .inr ⟨_, _, loads, delivers.broken_iff.mp ends⟩
  · intro broken
    rcases broken with unopened | ⟨settings, grid, loads, undelivered⟩
    · obtain ⟨after, ends⟩ := open_sheet_of_unopened path unopened
      rw [processSheet, ends]
    · generalize processSheet w path choice target overwrite preview = result at processed
      cases processed with
      | unopened opening => exact absurd opening loads.opens
      | delivered again reports delivers =>
          obtain ⟨rfl, rfl⟩ := loads.unique again
          exact delivers.broken_iff.mpr undelivered

/-- A cell that is found has an error token to be shown that is no text. -/
def CutShort (w : Workspace) (path : Path) (label : Text) (choice : Choice) (token : Signs) : Prop :=
  ∃ a settings grid, Address.ofLabel? label = some a ∧ Loads w path choice settings grid ∧
    (grid.get? a).isSome ∧
    unshownToken? settings (!(evaluateAlone (settings.sheet grid) a).isOk) = some token

theorem show_broken_iff {label : Text} :
    (showCell w path label choice).2 = .broken breakdown ↔
      ((Address.ofLabel? label).isSome ∧ Unopened w choice breakdown) ∨
        ∃ token, CutShort w path label choice token ∧ breakdown = .notText token := by
  have shows := showing w path label choice
  constructor
  · intro ends
    generalize showCell w path label choice = result at shows ends
    cases shows with
    | unopened named opening =>
        subst ends
        exact .inl ⟨by rw [named, Option.isSome_some], opening.unopened⟩
    | cut named loads reports found lacks =>
        cases ends
        exact .inr ⟨_, ⟨_, _, _, named, loads, by rw [found, Option.isSome_some], lacks⟩, rfl⟩
    | unnamed | outside | shown => cases ends
  · rintro (⟨isNamed, unopened⟩ | ⟨token, ⟨a, settings, grid, named, loads, inside, lacks⟩, rfl⟩)
    · obtain ⟨a, named⟩ := Option.isSome_iff_exists.mp isNamed
      obtain ⟨after, ends⟩ := open_sheet_of_unopened path unopened
      rw [showCell, named]
      simp only [ends]
    · generalize showCell w path label choice = result at shows
      cases shows with
      | unnamed unnamed => cases named.symm.trans unnamed
      | unopened _ opening => exact absurd opening loads.opens
      | outside again other _ missing =>
          cases named.symm.trans again
          obtain ⟨rfl, rfl⟩ := loads.unique other
          rw [missing] at inside
          cases inside
      | shown again other _ _ whole =>
          cases named.symm.trans again
          obtain ⟨rfl, rfl⟩ := loads.unique other
          cases whole.symm.trans lacks
      | cut again other _ _ known =>
          cases named.symm.trans again
          obtain ⟨rfl, rfl⟩ := loads.unique other
          cases known.symm.trans lacks
          rfl

omit [Yaml.Reader] [CallStack] in
theorem convert_broken_iff (w : Workspace) (expression : Text) :
    (convertExpression w expression).2 = .broken breakdown ↔
      (∃ written, Infix.inPostfix expression = .ok written) ∧
        Surroundings.converts expression = false ∧ breakdown = .tooDeep := by
  rw [convertExpression]
  cases Infix.inPostfix expression with
  | error fault => exact ⟨nofun, fun ⟨⟨_, reads⟩, _⟩ => nomatch reads⟩
  | ok written =>
      cases deep : Surroundings.converts expression with
      | true => exact ⟨nofun, fun ⟨_, fails, _⟩ => nomatch fails⟩
      | false =>
          constructor
          · intro ends
            cases ends
            exact ⟨⟨written, rfl⟩, rfl, rfl⟩
          · rintro ⟨_, _, rfl⟩
            rfl

/-- A command that is run and ends without a message has escaped. -/
theorem escapes_of_command {request : Request} {command : Command}
    (fit : Fit w.files request.mentions) (asked : request.command = some command)
    (ends : (command.run w).2 = .broken breakdown) : Escapes w request breakdown := by
  cases command with
  | version | help => cases ends
  | process source choice target overwrite preview =>
      rcases process_broken_iff.mp ends with unopened | ⟨settings, grid, loads, undelivered⟩
      · exact .unopened fit (by rw [asked]; rfl) unopened
      · exact .undelivered fit asked loads undelivered
  | cell source label choice =>
      rcases show_broken_iff.mp ends with ⟨isNamed, unopened⟩ |
        ⟨token, ⟨a, settings, grid, named, loads, inside, lacks⟩, same⟩
      · obtain ⟨a, named⟩ := Option.isSome_iff_exists.mp isNamed
        have opens : request.command.bind Command.choice? = some choice := by
          rw [asked, Option.bind_some, Command.choice?, named, Option.map_some]
        exact .unopened fit opens unopened
      · rw [same]
        exact .cut fit asked named loads inside lacks
  | convert expression =>
      obtain ⟨⟨written, reads⟩, deep, same⟩ := (convert_broken_iff w expression).mp ends
      rw [same]
      exact .nested fit asked reads deep

theorem Escapes.ends {request : Request} (escapes : Escapes w request breakdown) :
    (request.run w).2 = .broken breakdown := by
  cases escapes with
  | unnameable named fit bad =>
      rw [run_of_unfit named fit (mention_broken_iff.mpr ⟨bad, rfl⟩)]
  | unopened fit opens unopened =>
      obtain ⟨command, asked, reads⟩ := Option.bind_eq_some_iff.mp opens
      rw [run_of_fit fit asked]
      cases command with
      | version | help | convert => cases reads
      | process =>
          cases reads
          exact process_broken_iff.mpr (.inl unopened)
      | cell source label choice =>
          obtain ⟨a, named, same⟩ := Option.map_eq_some_iff.mp reads
          subst same
          exact show_broken_iff.mpr (.inl ⟨by rw [named, Option.isSome_some], unopened⟩)
  | undelivered fit asked loads undelivered =>
      rw [run_of_fit fit asked]
      exact process_broken_iff.mpr (.inr ⟨_, _, loads, undelivered⟩)
  | cut fit asked named loads inside lacks =>
      rw [run_of_fit fit asked]
      exact show_broken_iff.mpr (.inr ⟨_, ⟨_, _, _, named, loads, inside, lacks⟩, rfl⟩)
  | nested fit asked reads deep =>
      rw [run_of_fit fit asked]
      exact (convert_broken_iff w _).mpr ⟨⟨_, reads⟩, deep, rfl⟩

theorem request_broken_iff {request : Request} :
    (request.run w).2 = .broken breakdown ↔ Escapes w request breakdown := by
  constructor
  · intro ends
    have runs := running w request
    generalize request.run w = result at runs ends
    cases runs with
    | unfit named fit failed =>
        subst ends
        obtain ⟨bad, same⟩ := mention_broken_iff.mp failed
        rw [same]
        exact .unnameable named fit bad
    | incomplete => cases ends
    | ran fit asked => exact escapes_of_command fit asked ends
  · exact Escapes.ends

end

/-! What is told -/

theorem mention_not_refused (files : Files) (mention : Mention) (message : Text) :
    mention.ending? files ≠ some (.refused message) := by
  intro ends
  rcases mention_ending_iff.mp ends with ⟨_, same⟩ | ⟨_, _, same⟩
  · cases same
  · cases same

section

variable [Yaml.Reader] [Surroundings]

theorem Opening.errors_open {after : Workspace} {outcome : Except Ending (Settings × Grid)}
    (opening : Opening w path choice (after, outcome)) : after.errorsOpen = w.errorsOpen := by
  cases opening with
  | unset => rfl
  | unlogged => exact (opened_console w _).2
  | unread _ _ _ reports => exact reports.errorsOpen.trans (opened_console w _).2
  | loaded loads reports => exact reports.errorsOpen.trans (opened_console w _).2

omit [Yaml.Reader] in
theorem Delivery.errors_open {target : Option Path} {mayOverwrite preview : Bool} {output : Grid}
    {unshown : Option Signs} {result : Workspace × Ending}
    (delivers : Delivery w target mayOverwrite preview output unshown result) :
    result.1.errorsOpen = w.errorsOpen := by
  cases delivers with
  | table | drawn | undrawn | printed | unprinted => rfl
  | file _ _ writes =>
      cases writes with
      | unknown | kept | emptied => rfl
      | unwritten _ _ reports => exact reports.errorsOpen
      | written _ _ _ _ reports => exact reports.errorsOpen

variable [CallStack]

theorem command_errors_open (w : Workspace) (command : Command) :
    (command.run w).1.errorsOpen = w.errorsOpen := by
  cases command with
  | version | help => rfl
  | convert expression =>
      rw [Command.run, convertExpression]
      split
      · split
        · rfl
        · rfl
      · rfl
  | cell source label choice =>
      rw [Command.run]
      have shows := showing w (Path.ofText source) label choice
      generalize showCell w (Path.ofText source) label choice = result at shows
      cases shows with
      | unnamed => rfl
      | unopened named opening => exact opening.errors_open
      | outside named loads reports => exact reports.errorsOpen.trans (opened_console w _).2
      | shown named loads reports =>
          rw [print_lines_eq]
          exact reports.errorsOpen.trans (opened_console w _).2
      | cut named loads reports =>
          rw [print_lines_eq]
          exact reports.errorsOpen.trans (opened_console w _).2
  | process source choice target overwrite preview =>
      rw [Command.run]
      have processed := processing w (Path.ofText source) choice (target.map Path.ofText) overwrite
        preview
      generalize processSheet w (Path.ofText source) choice (target.map Path.ofText) overwrite
        preview = result at processed
      cases processed with
      | unopened opening => exact opening.errors_open
      | delivered loads reports delivers =>
          exact delivers.errors_open.trans (reports.errorsOpen.trans (opened_console w _).2)

theorem refused_told {request : Request} {message : Text} (console : w.errorsOpen = true)
    (ends : (request.run w).2 = .refused message) :
    ∃ earlier, (request.run w).1.errors =
      earlier ++ Text.withoutControls ("Error: ".toList ++ message) ++ ['\n'] := by
  have runs := running w request
  generalize request.run w = result at runs ends
  cases runs with
  | unfit named fit failed =>
      subst ends
      exact absurd failed (mention_not_refused w.files _ message)
  | incomplete => cases ends
  | @ran command fit asked =>
      have stays := (command_errors_open w command).trans console
      refine ⟨(command.run w).1.errors, ?_⟩
      change (command.run w).2 = .refused message at ends
      rw [ends, complainOf, Workspace.complain, if_pos stays]

theorem told_iff {request : Request} (console : w.errorsOpen = true) :
    Told (request.run w) ↔ ∀ breakdown, ¬Escapes w request breakdown := by
  constructor
  · intro told breakdown escapes
    have ends := request_broken_iff.mpr escapes
    rw [Told, ends] at told
    rcases told with ok | misused | ⟨_, message, earlier, refused, _⟩
    · cases ok
    · cases misused
    · cases refused
  · intro kept
    cases ends : (request.run w).2 with
    | success => exact .inl (congrArg Ending.status ends)
    | misused => exact .inr (.inl (congrArg Ending.status ends))
    | broken breakdown => exact absurd (request_broken_iff.mp ends) (kept breakdown)
    | refused message =>
        obtain ⟨earlier, said⟩ := refused_told console ends
        exact .inr (.inr ⟨congrArg Ending.status ends, message, earlier, ends, said⟩)

/-- A run that fails without a message has escaped in one of these ways, and each of them does end a
run without one. -/
theorem run_told_iff (files : Files) (time : Text) (words : List Text) :
    (Told (run (.ofFiles files time) words) ↔
      ∀ request breakdown, Request.ofLine words = some request →
        ¬Escapes (.ofFiles files time) request breakdown) ∧
    ∀ breakdown, (run (.ofFiles files time) words).2 = .broken breakdown ↔
      ∃ request, Request.ofLine words = some request ∧
        Escapes (.ofFiles files time) request breakdown := by
  rw [run]
  cases asked : Request.ofLine words with
  | none =>
      constructor
      · constructor
        · intro _ request breakdown same
          cases same
        · exact fun _ => .inr (.inl rfl)
      · exact fun breakdown => ⟨nofun, nofun⟩
  | some request =>
      constructor
      · rw [told_iff rfl]
        constructor
        · intro kept other breakdown same
          cases same
          exact kept breakdown
        · exact fun kept breakdown => kept request breakdown rfl
      · intro breakdown
        rw [request_broken_iff]
        constructor
        · exact fun escapes => ⟨request, rfl, escapes⟩
        · intro ⟨other, same, escapes⟩
          cases same
          exact escapes

end

/-! A journal in the place of a file -/

/-- A sheet, and settings that ask for a journal in a directory where the sheet is. -/
def misplacedJournal : Files :=
  ⟨[(["conf.yaml".toList], .file (Text.bytes "logging_dir: s.csv\n".toList)),
    (["s.csv".toList], .file (Text.bytes "1\n".toList))]⟩

/-- A run whose journal cannot be made fails and says nothing. -/
theorem misplaced_journal_untold :
    ¬Told (run (.ofFiles misplacedJournal [])
      (["process", "s.csv", "--config", "conf.yaml"].map String.toList)) := by
  have failed : (run (.ofFiles misplacedJournal [])
      (["process", "s.csv", "--config", "conf.yaml"].map String.toList)).2.status = 1 := by
    decide +kernel
  have silent : (run (.ofFiles misplacedJournal [])
      (["process", "s.csv", "--config", "conf.yaml"].map String.toList)).1.errors = [] := by
    decide +kernel
  rw [Told, failed, silent]
  intro told
  rcases told with zero | two | ⟨_, message, earlier, _, said⟩
  · cases zero
  · cases two
  · simp at said

end PostfixSheet.CommandLine
