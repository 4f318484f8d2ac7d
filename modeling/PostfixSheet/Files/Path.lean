import PostfixSheet.Text.Basic

/-!
Paths in normal form. A path is a sequence of names after a root, which is empty for a path that
starts at the working directory. Empty names and the name `.` are left out; the name `..` is kept,
since what it leads to depends on the files.
-/

namespace PostfixSheet

structure Path where
  root : Text
  names : List Text
deriving DecidableEq, Repr

namespace Path

/-- The root of a text: two slashes count as a root of their own, more than two as one. -/
def rootOf : Text → Text
  | '/' :: '/' :: '/' :: _ => ['/']
  | '/' :: '/' :: _ => ['/', '/']
  | '/' :: _ => ['/']
  | _ => []

def ofText (text : Text) : Path :=
  ⟨rootOf text,
    (Text.splitWhere (· == '/') text).filter fun name => !name.isEmpty && name != ['.']⟩

/-- The working directory. -/
def here : Path := ⟨[], []⟩

/-- A path as text. The working directory is written as a point. -/
def text (path : Path) : Text :=
  if path.root.isEmpty && path.names.isEmpty then ['.']
  else path.root ++ ['/'].intercalate path.names

/-- Whether a text can name a file: the character NUL stands in no name. -/
def canName (text : Text) : Bool := !text.contains '\x00'

def nameLimit : Nat := 255

def textLimit : Nat := 4095

def child (path : Path) (name : Text) : Path := ⟨path.root, path.names ++ [name]⟩

def parent (path : Path) : Path := ⟨path.root, path.names.dropLast⟩

end Path
end PostfixSheet
