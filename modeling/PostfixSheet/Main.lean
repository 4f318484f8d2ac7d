import PostfixSheet.CommandLine.Run
import PostfixSheet.Journal.Moment
import Std.Time.DateTime.Timestamp

/-!
The program. It looks at the files that a command line names, runs the command on them as a value,
and then writes the files that have changed.
-/

namespace PostfixSheet.Program

def pathOf (place : Place) : Path :=
  match place with
  | first :: names => if first.head? = some '/' then ⟨first, names⟩ else ⟨[], place⟩
  | [] => Path.here

/-- What stands at a place. What can be found but not read as a file counts as a directory. -/
def look (place : Place) : IO (Option Entry) := do
  try
    let content ← IO.FS.readBinFile (String.ofList (pathOf place).text)
    return some (.file content.toList)
  catch error => match error with
    | .noFileOrDirectory .. => return none
    | _ => return some .directory

/-- Adds all that stands at the places along a path, as far as it can be followed. -/
def gather (files : Files) (path : Path) : IO Files := do
  let mut files := files
  let mut place : Place := if path.root.isEmpty then [] else [path.root]
  for name in path.names do
    if files.at? place != some .directory then break
    place := Files.next place name
    if (files.at? place).isNone then
      if let some entry ← look place then
        files := files.put place entry
  return files

def gatherAll (request : CommandLine.Request) : IO Files := do
  let mut files := Files.empty
  for mention in request.mentions do
    files ← gather files (Path.ofText mention.text)
  files ← gather files Settings.usualFile
  let settings? := match request.command with
    | some (.process _ choice _ _ _) | some (.cell _ _ choice) => choice.settings
    | _ => none
  if let .ok settings := Settings.load files (settings?.map Path.ofText) then
    if let some directory := settings.journalDirectory.bind Signs.text? then
      files ← gather files ((Path.ofText directory).child Journal.fileName)
  return files

/-- Writes a file anew, or adds to it what it has more than before. -/
def writeFile (place : Place) (before : Option Entry) (content : List UInt8) : IO Unit := do
  let name := String.ofList (pathOf place).text
  match before with
  | some (.file old) =>
      if old.isPrefixOf content then
        let handle ← IO.FS.Handle.mk name .append
        handle.write ⟨(content.drop old.length).toArray⟩
      else IO.FS.writeBinFile name ⟨content.toArray⟩
  | _ => IO.FS.writeBinFile name ⟨content.toArray⟩

/-- Makes the system's files what they are in a value. -/
def writeChanges (before after : Files) : IO Unit := do
  for (place, entry) in after.entries do
    if before.at? place != some entry then
      match entry with
      | .directory => IO.FS.createDirAll (String.ofList (pathOf place).text)
      | .file content => writeFile place (before.at? place) content

def now : IO Moment := do
  let stamp ← Std.Time.Timestamp.now
  return ⟨stamp.toNanosecondsSinceUnixEpoch.val.toNat / 1000⟩

/-- What is said of an ending that has no message of its own. -/
def remark : CommandLine.Ending → Text
  | .misused => CommandLine.helpText ++ ['\n']
  | .broken (.file error) => error.message ++ ['\n']
  | .broken (.settings (.unreadable error)) => error.message ++ ['\n']
  | .broken (.settings (.undecodable bad)) => bad.message ++ ['\n']
  | .broken (.settings _) => "A value in the settings cannot be formed\n".toList
  | .broken (.notText signs) => "Cannot be written: ".toList ++ signs.shown ++ ['\n']
  | .broken .tooDeep => "The expression is nested too deep\n".toList
  | _ => []

end PostfixSheet.Program

open PostfixSheet in
def main (arguments : List String) : IO UInt32 := do
  let words := arguments.map String.toList
  let files ← match CommandLine.Request.ofLine words with
    | some request => Program.gatherAll request
    | none => pure Files.empty
  let moment ← Program.now
  let (after, ending) := CommandLine.run (Workspace.ofFiles files moment.text) words
  Program.writeChanges files after.files
  IO.print (String.ofList after.output)
  IO.eprint (String.ofList (after.errors ++ Program.remark ending))
  return UInt32.ofNat ending.status
