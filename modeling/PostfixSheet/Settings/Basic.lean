import PostfixSheet.Evaluation.Cell
import PostfixSheet.Json.Value
import PostfixSheet.Sheet

/-!
Settings: the rules by which a sheet is read, worked out and logged. They come from fields of any
kind put over the standard ones. Four of the fields are checked, in a fixed order; all others are
kept as they are. A string has to be filled where it is asked for, but it need not be a text.
-/

namespace PostfixSheet

/-- A string that is not empty. -/
structure Filled where
  signs : Signs
  ne_nil : signs ≠ []

/-- Settings that have been checked, with the fields that they come from. -/
structure Settings where
  fields : Json.Fields
  separator : Filled
  ceiling : Ceiling
  /-- what stands for a cell without a value -/
  errorToken : Filled
  journalDirectory : Option Signs

namespace Settings

/-- The fields that are checked, in the order in which this happens. -/
inductive Checked
  | separator
  | ceiling
  | errorToken
  | journalDirectory
deriving DecidableEq, Repr

def Checked.name : Checked → Text
  | .separator => "separator".toList
  | .ceiling => "max_depth".toList
  | .errorToken => "error_token".toList
  | .journalDirectory => "logging_dir".toList

def Checked.rule : Checked → Text
  | .separator | .errorToken => "must be a non-empty string".toList
  | .ceiling => "must be a positive integer".toList
  | .journalDirectory => "must be a path string or null".toList

def overwriteName : Text := "overwrite".toList

def syncName : Text := "logging_fsync".toList

/-- The fields where nothing else is asked for. -/
def standardFields : Json.Fields :=
  [(Checked.separator.name, .string Separator.comma.text),
    (Checked.ceiling.name, .integer Ceiling.standard.cells),
    (Checked.errorToken.name, .string Sheet.standardErrorToken),
    (overwriteName, .bool false),
    (Checked.journalDirectory.name, .null),
    (syncName, .bool false)]

/-- The value of a field; a field that is not there counts as nothing. -/
def valueOf (fields : Json.Fields) (name : Text) : Json := (fields.get? name).getD .null

def filled? : Json → Option Filled
  | .string signs => if given : signs ≠ [] then some ⟨signs, given⟩ else none
  | _ => none

def ceiling? : Json → Option Ceiling
  | .integer n => (Ceiling.ofInt n).toOption
  | _ => none

def journalDirectory? : Json → Option (Option Signs)
  | .null => some none
  | .string signs => some (some signs)
  | _ => none

/-- A checked field of some fields, or the field itself if it is not what it has to be. -/
def check (fields : Json.Fields) (field : Checked) (read? : Json → Option α) : Except Checked α :=
  match read? (valueOf fields field.name) with
  | some value => .ok value
  | none => .error field

/-- The settings that some fields give, or the first field that is not what it has to be. -/
def ofFields (fields : Json.Fields) : Except Checked Settings := do
  let separator ← check fields .separator filled?
  let ceiling ← check fields .ceiling ceiling?
  let errorToken ← check fields .errorToken filled?
  let journalDirectory ← check fields .journalDirectory journalDirectory?
  .ok { fields, separator, ceiling, errorToken, journalDirectory }

/-- The settings that some fields give when they are put over the standard ones. -/
def ofGiven (given : Json.Fields) : Except Checked Settings := ofFields (standardFields.merge given)

/-- A sheet of a grid by these settings. What of the error token is no text is not shown. -/
def sheet (settings : Settings) (grid : Grid) : Sheet :=
  Sheet.ofGrid grid settings.ceiling settings.errorToken.signs.shown

def mayOverwrite (settings : Settings) : Bool := (valueOf settings.fields overwriteName).isSomething

end Settings
end PostfixSheet
