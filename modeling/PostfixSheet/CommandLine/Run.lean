import PostfixSheet.CommandLine.Command
import PostfixSheet.Infix.Reading
import PostfixSheet.Settings.File
import PostfixSheet.Table
import PostfixSheet.Workspace

/-!
Running a command in a workspace. A command either succeeds, or is refused with a message, or meets
a fault that is not the user's to mend. Where such a fault depends on what the program runs on, it is
not fixed here when it is met.
-/

namespace PostfixSheet.CommandLine

/-- What the system and the libraries under the program make of what few programs meet. -/
class Surroundings where
  /-- whether a journal can have a directory whose name is no text; nothing else can be there -/
  hasDirectory : Signs → Bool
  /-- the table of a result whose error token is no text, if there is one -/
  table? : Grid.Frame → Signs → Option Text
  /-- whether the call stack is enough to convert an expression -/
  converts : Text → Bool

instance (priority := low) Surroundings.usual : Surroundings :=
  ⟨fun _ => false, fun _ _ => none, fun _ => true⟩

/-- What no message explains: a settings file that cannot be used at all, another file that cannot be
had, such as the directory of the journal, a string that cannot be written since it is no text, or an
expression that is nested too deep. -/
inductive Breakdown
  | settings (fault : Settings.FileFault)
  | file (error : FileError)
  | notText (signs : Signs)
  | tooDeep
deriving DecidableEq, Repr

inductive Ending
  | success
  | refused (message : Text)
  | misused
  | broken (breakdown : Breakdown)
deriving DecidableEq, Repr

def Ending.status : Ending → Nat
  | .success => 0
  | .refused _ | .broken _ => 1
  | .misused => 2

inductive SourceFault
  | file (error : FileError)
  | undecodable (bad : Text.Undecodable)
  | grid (error : Grid.Error)

namespace SourceFault

def message : SourceFault → Text
  | .file error => error.message
  | .undecodable bad => bad.message
  | .grid error => error.message

/-- The name of the kind of a fault, as journals give it. -/
def code : SourceFault → Text
  | .file error => error.code
  | .undecodable _ => "UnicodeDecodeError".toList
  | .grid _ => "GridError".toList

end SourceFault

/-! Reports -/

def pathField (path : Path) : Signs × Json := ("path".toList, .string path.text)

def readReport (path : Path) (grid : Grid) (bytes : Nat) : Report :=
  ⟨.info, .fileRead, "Read ".toList ++ path.text,
    [pathField path, ("rows".toList, .integer grid.height), ("bytes".toList, .integer bytes)], none⟩

def unreadMessage (path : Path) (fault : SourceFault) : Text :=
  "Could not read ".toList ++ path.text ++ ": ".toList ++ fault.message

def unreadReport (path : Path) (fault : SourceFault) : Report :=
  ⟨.error, .fileRead, unreadMessage path fault, [pathField path], some fault.code⟩

def writtenReport (path : Path) : Report :=
  ⟨.info, .fileWritten, "Wrote ".toList ++ path.text, [pathField path], none⟩

def unwrittenMessage (path : Path) (error : FileError) : Text :=
  "Could not write ".toList ++ path.text ++ ": ".toList ++ error.message

def unwrittenReport (path : Path) (error : FileError) : Report :=
  ⟨.error, .fileWritten, unwrittenMessage path error, [pathField path], some error.code⟩

/-! Reading and writing -/

/-- The text of a file with line ends of one kind, and the grid that it holds. -/
def source (files : Files) (path : Path) (separator : Signs) : Except SourceFault (Text × Grid) := do
  let content ← (files.read path).mapError .file
  let text ← (Text.ofBytes content).mapError .undecodable
  let text := Text.unifyLineEnds text
  let grid ← (Grid.ofSource text separator).mapError .grid
  .ok (text, grid)

/-- Reads a grid and reports on that. -/
def readGrid (w : Workspace) (path : Path) (separator : Signs) :
    Workspace × Except SourceFault Grid :=
  match source w.files path separator with
  | .ok (text, grid) => (w.report (readReport path grid (Text.bytes text).length), .ok grid)
  | .error fault => (w.report (unreadReport path fault), .error fault)

/-- Writes a result into a file and reports on that. A file that is there already stays as it is
unless it may be replaced. Where a string in the result is no text, the file is left empty. -/
def writeGrid (w : Workspace) (path : Path) (mayOverwrite : Bool) (output : Grid)
    (unshown : Option Signs) : Workspace × Ending :=
  match w.files.isThere path with
  | .error error => (w, .broken (.file error))
  | .ok isThere =>
      if isThere && !mayOverwrite then
        (w, .refused (path.text ++ " already exists; use --overwrite to replace it".toList))
      else
        let content := if unshown.isSome then [] else Text.bytes (output.render ++ ['\n'])
        match w.files.write path content, unshown with
        | .error error, _ =>
            (w.report (unwrittenReport path error), .refused (unwrittenMessage path error))
        | .ok files, some signs => ({ w with files }, .broken (.notText signs))
        | .ok files, none =>
            let w := { w with files }.report (writtenReport path)
            let rows := Text.ofNat output.height
            (w.print ("Wrote ".toList ++ rows ++ " row(s) to ".toList ++ path.text), .success)

section

variable [Yaml.Reader] [Surroundings]

/-- Lets the journal write into a directory. What stands in a directory whose name is no text can be
found by no other name, so such a journal is like one that drops its events. -/
def openJournal (w : Workspace) (directory : Option Signs) : Workspace × Option FileError :=
  match directory with
  | none => w.openJournal none
  | some signs => match signs.text? with
      | some text => w.openJournal (some text)
      | none =>
          if Surroundings.hasDirectory signs then w.openJournal none
          else (w, some ⟨.unnameable, signs.shown⟩)

/-- The separator that is asked for, or else that of the settings. -/
def Choice.separatorOver (choice : Choice) (settings : Settings) : Signs :=
  (choice.separator.map Text.signs).getD settings.separator.signs

/-- A workspace with its journal open, the settings and a grid: what every command on a sheet starts
from. -/
def openSheet (w : Workspace) (path : Path) (choice : Choice) :
    Workspace × Except Ending (Settings × Grid) :=
  match Settings.load w.files (choice.settings.map Path.ofText) with
  | .error fault => (w, .error (match fault.message? with
      | some message => .refused message
      | none => .broken (.settings fault)))
  | .ok settings => match openJournal w settings.journalDirectory with
      | (w, some error) => (w, .error (.broken (.file error)))
      | (w, none) => match readGrid w path (choice.separatorOver settings) with
          | (w, .error fault) => (w, .error (.refused (unreadMessage path fault)))
          | (w, .ok grid) => (w, .ok (settings, grid))

/-! Commands -/

/-- The error token of some settings, if it has to be shown and is no text. -/
def unshownToken? (settings : Settings) (fails : Bool) : Option Signs :=
  let token := settings.errorToken.signs
  if fails && token.text?.isNone then some token else none

/-- Hands on the result of working out a sheet: as a table, as it is, or into a file. -/
def deliver (w : Workspace) (target : Option Path) (mayOverwrite preview : Bool) (output : Grid)
    (unshown : Option Signs) : Workspace × Ending :=
  if preview then match unshown with
    | none => (w.print (Table.ofFrame output.frame), .success)
    | some token => match Surroundings.table? output.frame token with
        | some table => (w.print table, .success)
        | none => (w, .broken (.notText token))
  else match target with
    | some target => writeGrid w target mayOverwrite output unshown
    | none => match unshown with
        | none => (w.print output.render, .success)
        | some token => (w, .broken (.notText token))

variable [CallStack]

def processSheet (w : Workspace) (path : Path) (choice : Choice) (target : Option Path)
    (overwrite preview : Bool) : Workspace × Ending :=
  match openSheet w path choice with
  | (w, .error ending) => (w, ending)
  | (w, .ok (settings, grid)) =>
      let (w, sheet, output) := w.process (settings.sheet grid)
      deliver w target (overwrite || settings.mayOverwrite) preview output
        (unshownToken? settings (!sheet.failures.isEmpty))

/-- The lines that show the value of a cell, or why it has none. -/
def valueLines (sheet : Sheet) (result : Except EvalError Float) : List Text :=
  ("Value: ".toList ++ sheet.textOf result) :: match result with
    | .ok _ => []
    | .error error => ["Error: ".toList ++ error.kind ++ ": ".toList ++ error.message]

/-- The value of a cell that is asked for without a pass over its sheet in between, so that there is
one call less on the stack. -/
def evaluateAlone (sheet : Sheet) (a : Address) : Except EvalError Float :=
  @Sheet.evaluate CallStack.before sheet a

def showCell (w : Workspace) (path : Path) (label : Text) (choice : Choice) :
    Workspace × Ending :=
  match Address.ofLabel? label with
  | none => (w, .refused ("Not a cell label: ".toList ++ Text.quoted label))
  | some a => match openSheet w path choice with
      | (w, .error ending) => (w, ending)
      | (w, .ok (settings, grid)) => match grid.get? a with
          | none => (w, .refused ("Cell ".toList ++ a.label ++ " is outside the sheet".toList))
          | some text =>
              let sheet := settings.sheet grid
              let result := evaluateAlone sheet a
              let w := ["Cell:  ".toList ++ a.label, "Raw:   ".toList ++ text].foldl Workspace.print w
              match unshownToken? settings (!result.isOk) with
              | none => ((valueLines sheet result).foldl Workspace.print w, .success)
              | some token => (w, .broken (.notText token))

def convertExpression (w : Workspace) (expression : Text) : Workspace × Ending :=
  match Infix.inPostfix expression with
  | .ok written =>
      if Surroundings.converts expression then (w.print written, .success)
      else (w, .broken .tooDeep)
  | .error fault => (w, .refused fault.message)

def versionText : Text := "postfixcsv, version 0.3.0".toList

def helpText : Text :=
  "Usage: postfixcsv [--version] [--help] process|cell|convert ...".toList

def Command.run (w : Workspace) : Command → Workspace × Ending
  | .version => (w.print versionText, .success)
  | .help => (w.print helpText, .success)
  | .process path choice target overwrite preview =>
      processSheet w (Path.ofText path) choice (target.map Path.ofText) overwrite preview
  | .cell path label choice => showCell w (Path.ofText path) label choice
  | .convert expression => convertExpression w expression

/-- Says on the console why a command was refused. Control sequences are left out. -/
def complainOf (w : Workspace) : Ending → Workspace
  | .refused message => w.complain (Text.withoutControls ("Error: ".toList ++ message))
  | _ => w

/-- How a command line ends that names a file in vain. -/
def Mention.ending? (files : Files) (mention : Mention) : Option Ending :=
  if !Path.canName mention.text then
    some (.broken (.file ⟨.unnameable, mention.text⟩))
  else if mention.isFit files then none
  else some .misused

/-- Runs what a command line asks for, once all files that it names are found fit. -/
def Request.run (w : Workspace) (request : Request) : Workspace × Ending :=
  match request.mentions.findSome? (Mention.ending? w.files), request.command with
  | some ending, _ => (w, ending)
  | none, none => (w, .misused)
  | none, some command =>
      let (w, ending) := command.run w
      (complainOf w ending, ending)

def run (w : Workspace) (words : List Text) : Workspace × Ending :=
  match Request.ofLine words with
  | none => (w, .misused)
  | some request => request.run w

end

end PostfixSheet.CommandLine
