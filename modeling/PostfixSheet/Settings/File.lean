import PostfixSheet.Files.Tree
import PostfixSheet.Settings.Basic
import PostfixSheet.Yaml.Reader

/-!
The settings file: YAML, of which the document is a mapping or nothing at all. A file that is asked
for has to be there; without one the file with the usual name counts, if there is one.
-/

namespace PostfixSheet.Settings

/-- The file that is read where no other is asked for. -/
def usualFile : Path := Path.ofText "postfixcsv.yaml".toList

inductive FileFault
  | missing (path : Path)
  | malformed (path : Path)
  | notMapping (path : Path)
  | invalid (field : Checked)
  | unreadable (error : FileError)
  | undecodable (bad : Text.Undecodable)
  /-- a value in the file cannot be formed -/
  | badValue (fault : Yaml.Fault)
deriving DecidableEq, Repr

namespace FileFault

def invalidValue (key reason : Text) : Text :=
  "Invalid config value for ".toList ++ Text.quoted key ++ ": ".toList ++ reason

def rootName : Text := "<root>".toList

/-- What is wrong with the content of a file: the field, or the document as a whole, and why. -/
def content? : FileFault → Option (Text × Text)
  | .malformed path => some (rootName, "invalid YAML in ".toList ++ path.text)
  | .notMapping path => some (rootName, "expected a mapping in ".toList ++ path.text)
  | .invalid field => some (field.name, field.rule)
  | _ => none

/-- The message about a fault that is the user's to mend; the others have none. -/
def message? : FileFault → Option Text
  | .missing path => some ("Config file not found: ".toList ++ path.text)
  | fault => fault.content?.map fun (key, reason) => invalidValue key reason

end FileFault

/-- The fields that the document of a file gives. A document that counts as nothing gives none. -/
def fieldsOf (path : Path) (document : Json) : Except FileFault Json.Fields :=
  match document with
  | .object fields => .ok fields
  | other => if other.isSomething then .error (.notMapping path) else .ok []

section

variable [Yaml.Reader]

def document (files : Files) (path : Path) : Except FileFault Json := do
  let content ← (files.read path).mapError .unreadable
  let text ← (Text.ofBytes content).mapError .undecodable
  (Yaml.Reader.read (Text.unifyLineEnds text)).mapError fun fault => match fault with
    | .malformed => .malformed path
    | fault => .badValue fault

def fileToRead (files : Files) (asked : Option Path) : Except FileFault (Option Path) := do
  let path := asked.getD usualFile
  if ← (files.isThere path).mapError .unreadable then .ok (some path)
  else if asked.isSome then .error (.missing path)
  else .ok none

def load (files : Files) (asked : Option Path) : Except FileFault Settings := do
  let given ← match ← fileToRead files asked with
    | none => .ok []
    | some path => (document files path).bind (fieldsOf path)
  (ofGiven given).mapError .invalid

end

end PostfixSheet.Settings
