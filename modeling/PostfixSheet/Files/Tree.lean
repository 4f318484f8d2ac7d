import PostfixSheet.Files.Path
import PostfixSheet.Text.Quoted
import PostfixSheet.Text.Utf8

/-!
Files and directories as a value. What a program does to files is a function on this value, so it
can be compared with what it should have done. A path is followed name by name, and every name but
the last has to lead to a directory; a step that fails says so in the words of the operating system.
-/

namespace PostfixSheet

inductive FileCause
  | missing
  | exists
  | notDirectory
  | isDirectory
  /-- the path ends in the name `.`, under which nothing can be taken away -/
  | notTakable
  /-- the path or one of its names is too long -/
  | tooLong
  /-- the path holds a character that no name can hold -/
  | unnameable
deriving DecidableEq, Repr

structure FileError where
  cause : FileCause
  path : Text
deriving DecidableEq, Repr

namespace FileError

/-- What went wrong, followed by the path; a path that names nothing is not repeated. -/
def message (error : FileError) : Text :=
  let about (reason : String) : Text :=
    reason.toList ++ ": ".toList ++ Text.quoted error.path
  match error.cause with
  | .missing => about "[Errno 2] No such file or directory"
  | .exists => about "[Errno 17] File exists"
  | .notDirectory => about "[Errno 20] Not a directory"
  | .isDirectory => about "[Errno 21] Is a directory"
  | .notTakable => about "[Errno 22] Invalid argument"
  | .tooLong => about "[Errno 36] File name too long"
  | .unnameable => "embedded null byte".toList

def code (error : FileError) : Text :=
  match error.cause with
  | .missing => "FileNotFoundError".toList
  | .exists => "FileExistsError".toList
  | .notDirectory => "NotADirectoryError".toList
  | .isDirectory => "IsADirectoryError".toList
  | .notTakable | .tooLong => "OSError".toList
  | .unnameable => "ValueError".toList

end FileError

inductive Entry
  | file (content : List UInt8)
  | directory
deriving DecidableEq, Repr

/-- A place in the tree: the names that lead to it from the working directory without any detour. A
place outside of the working directory starts with `..` or with a root. -/
abbrev Place := List Text

/-- Files and directories, each at its place. The working directory and all that it lies in are
directories that need no entry. -/
structure Files where
  entries : List (Place × Entry)
deriving DecidableEq, Repr

namespace Files

def empty : Files := ⟨[]⟩

def upName : Text := ['.', '.']

/-- The places that are directories without an entry. -/
def isGiven (place : Place) : Bool :=
  place.all (· == upName) || place == [['/']] || place == [['/', '/']]

def at? (files : Files) (place : Place) : Option Entry :=
  if isGiven place then some .directory else files.entries.lookup place

/-- The tree with another entry at a place. A new entry goes to the end. -/
def put (files : Files) (place : Place) (entry : Entry) : Files :=
  if files.entries.any (·.1 == place) then
    ⟨files.entries.map fun old => if old.1 = place then (place, entry) else old⟩
  else ⟨files.entries ++ [(place, entry)]⟩

def above (place : Place) : Place :=
  if place == [['/']] || place == [['/', '/']] then place
  else match place.getLast? with
    | none => [upName]
    | some name => if name = upName then place ++ [upName] else place.dropLast

/-- The place that a name leads to from a directory. The empty name and the name `.` lead nowhere
else. -/
def next (place : Place) (name : Text) : Place :=
  if name = upName then above place
  else if name = [] ∨ name = ['.'] then place
  else place ++ [name]

/-- Follows names from a place on. That a name is too long is found out where it is looked up. -/
def follow (files : Files) (place : Place) : List Text → Except FileCause Place
  | [] => .ok place
  | name :: names => match files.at? place with
      | none => .error .missing
      | some (.file _) => .error .notDirectory
      | some .directory =>
          if Path.nameLimit < (Text.bytes name).length then .error .tooLong
          else files.follow (next place name) names

def followFrom (files : Files) (written root : Text) (names : List Text) : Except FileError Place :=
  if !Path.canName written then .error ⟨.unnameable, written⟩
  else if Path.textLimit < (Text.bytes written).length then .error ⟨.tooLong, written⟩
  else (files.follow (if root.isEmpty then [] else [root]) names).mapError (⟨·, written⟩)

/-- The place that a path leads to. Something may stand there or not; all that is before it on the
path are directories. -/
def locate (files : Files) (path : Path) : Except FileError Place :=
  files.followFrom path.text path.root path.names

/-- The place that a path leads to as it is written. In contrast to a path in normal form the empty
text leads nowhere, and a slash at the end asks for a directory. -/
def locateText (files : Files) (text : Text) : Except FileError Place :=
  if text.isEmpty then .error ⟨.missing, text⟩
  else files.followFrom text (Path.rootOf text) (Text.splitWhere (· == '/') text)

def get? (files : Files) (path : Path) : Option Entry :=
  match files.locate path with
  | .ok place => files.at? place
  | .error _ => none

def find? (files : Files) (text : Text) : Option Entry :=
  match files.locateText text with
  | .ok place => files.at? place
  | .error _ => none

/-- Whether a path leads to something. Of a path that is too long this cannot be told. -/
def isThere (files : Files) (path : Path) : Except FileError Bool :=
  match files.locate path with
  | .ok place => .ok (files.at? place).isSome
  | .error error => if error.cause = .tooLong then .error error else .ok false

def isDirectory (files : Files) (path : Path) : Bool := files.get? path == some .directory

def read (files : Files) (path : Path) : Except FileError (List UInt8) := do
  let place ← files.locate path
  match files.at? place with
  | none => .error ⟨.missing, path.text⟩
  | some .directory => .error ⟨.isDirectory, path.text⟩
  | some (.file content) => .ok content

/-- The tree after the content of a file is changed by `change`; a file that was not there counts as
empty and is made. -/
def modify (files : Files) (path : Path) (change : List UInt8 → List UInt8) :
    Except FileError Files := do
  let place ← files.locate path
  match files.at? place with
  | none => .ok (files.put place (.file (change [])))
  | some .directory => .error ⟨.isDirectory, path.text⟩
  | some (.file content) => .ok (files.put place (.file (change content)))

def write (files : Files) (path : Path) (content : List UInt8) : Except FileError Files :=
  files.modify path fun _ => content

def append (files : Files) (path : Path) (content : List UInt8) : Except FileError Files :=
  files.modify path (· ++ content)

def makeDirectory (files : Files) (path : Path) : Except FileError Files := do
  let place ← files.locate path
  match files.at? place with
  | none => .ok (files.put place .directory)
  | some _ => .error ⟨.exists, path.text⟩

/-- Makes a path lead to a directory: it, and those that it lies in, are made where they are
missing. What was made stays also where that fails in the end. `depth` is the number of names that
may still be taken away from the path. -/
def ensureDirectoryWithin (files : Files) : (depth : Nat) → Path → Files × Option FileError
  | depth, path => match files.makeDirectory path with
      | .ok files => (files, none)
      | .error error =>
          if error.cause = .missing then match depth with
            | 0 => (files, some error)
            | depth + 1 => match files.ensureDirectoryWithin depth path.parent with
                | (files, some error) => (files, some error)
                | (files, none) => match files.makeDirectory path with
                    | .ok files => (files, none)
                    | .error error => (files, if files.isDirectory path then none else some error)
          else (files, if files.isDirectory path then none else some error)

def ensureDirectory (files : Files) (path : Path) : Files × Option FileError :=
  files.ensureDirectoryWithin path.names.length path

def clear (files : Files) (place : Place) : Files :=
  ⟨files.entries.filter fun entry => entry.1 == place || !place.isPrefixOf entry.1⟩

/-- Takes away a directory with all that lies below it. A path that ends in the name `.` or `..`
names no entry of a directory: then the directory is only emptied, and with `..` the path itself is
lost on the way. -/
def removeDirectory (files : Files) (text : Text) : Files × Option FileError :=
  match files.locateText text with
  | .error error => (files, some error)
  | .ok place => match files.at? place with
      | none => (files, some ⟨.missing, text⟩)
      | some (.file _) => (files, some ⟨.notDirectory, text⟩)
      | some .directory =>
          let cleared := files.clear place
          let last := ((Text.splitWhere (· == '/') text).filter (!·.isEmpty)).getLast?
          if last = some ['.'] then (cleared, some ⟨.notTakable, text⟩)
          else if last = some upName then (cleared, some ⟨.missing, text⟩)
          else (⟨cleared.entries.filter (·.1 != place)⟩, none)

end Files
end PostfixSheet
