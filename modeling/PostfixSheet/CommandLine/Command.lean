import PostfixSheet.CommandLine.Arguments
import PostfixSheet.Files.Tree

/-!
Commands: what a command line asks for.
-/

namespace PostfixSheet.CommandLine

/-- What a sheet is read with: a separator and a settings file, if they are asked for. -/
structure Choice where
  separator : Option Text
  settings : Option Text
deriving DecidableEq, Repr

inductive Command
  | version
  | help
  /-- works out a sheet and prints the result, shows it as a table or writes it into a file -/
  | process (source : Text) (choice : Choice) (target : Option Text) (overwrite preview : Bool)
  | cell (source label : Text) (choice : Choice)
  | convert (expression : Text)
deriving DecidableEq, Repr

/-- A file that a command line names, and what it is named for. -/
inductive Mention
  | source (text : Text)
  | settings (text : Text)
  | target (text : Text)
deriving DecidableEq, Repr

namespace Mention

def text : Mention → Text
  | .source text | .settings text | .target text => text

def isFile (files : Files) (text : Text) : Bool :=
  match files.find? text with
  | some (.file _) => true
  | _ => false

/-- Whether a file that is read is there, and no directory in the place of one that is written. -/
def isFit (files : Files) : Mention → Bool
  | .source text | .settings text => isFile files text
  | .target text => files.find? text != some .directory

/-- The file that the value of an option names. -/
def ofOption? : Switch → Text → Option Mention
  | .settings, value => some (.settings value)
  | .target, value => some (.target value)
  | _, _ => none

/-- The files that are named for a sheet: those of the options, in the order in which these are
first given, and the sheet itself. -/
def ofArguments (arguments : Arguments) : List Mention :=
  ((arguments.options.map (·.1)).eraseDups.filterMap fun switch =>
      (arguments.value? switch).bind (ofOption? switch))
    ++ arguments.words.head?.toList.map .source

end Mention

/-- What a command line asks for: the files that it names, in the order in which they are looked at,
and a command. There is no command if a word is missing or too many are given. -/
structure Request where
  mentions : List Mention
  command : Option Command
deriving DecidableEq, Repr

namespace Request

def plain (command : Command) : Request := ⟨[], some command⟩

def choiceOf (arguments : Arguments) : Choice :=
  ⟨arguments.value? .separator, arguments.value? .settings⟩

def ofProcess (arguments : Arguments) : Request :=
  ⟨Mention.ofArguments arguments, match arguments.words with
    | [source] =>
        some (.process source (choiceOf arguments) (arguments.value? .target)
          (arguments.has .overwrite) (arguments.has .preview))
    | _ => none⟩

def ofCell (arguments : Arguments) : Request :=
  ⟨Mention.ofArguments arguments, match arguments.words with
    | [source, label] => some (.cell source label (choiceOf arguments))
    | _ => none⟩

def ofConvert (arguments : Arguments) : Request :=
  ⟨[], match arguments.words with
    | [expression] => some (.convert expression)
    | _ => none⟩

/-- Reads the words after the name of a command. To ask for help is always enough. -/
def ofWords (switches : List Switch) (make : Arguments → Request) (words : List Text) :
    Option Request :=
  (read (.help :: switches) words).map fun arguments =>
    if arguments.has .help then plain .help else make arguments

/-- How the words after a name are read, if it is the name of a command. -/
def named? (name : Text) : Option (List Text → Option Request) :=
  if name = "process".toList then
    some (ofWords [.separator, .target, .overwrite, .settings, .preview] ofProcess)
  else if name = "cell".toList then some (ofWords [.separator, .settings] ofCell)
  else if name = "convert".toList then some (ofWords [] ofConvert)
  else none

/-- The options that stand before the name of a command. Each is a command of its own, and the first
one counts. -/
def leadingSwitches : List Switch := [.version, .help]

def leading? (arguments : Arguments) : Option Request :=
  arguments.options.head?.map fun (switch, _) =>
    plain (if switch = .version then .version else .help)

/-- What a command line asks for; nothing if it makes no sense. A word in the place of a command
that names none is read as an option, even after two dashes. -/
def ofLine (words : List Text) : Option Request :=
  (readLeading leadingSwitches words).bind fun arguments =>
    match leading? arguments, arguments.words with
    | some request, _ => some request
    | none, [] => none
    | none, name :: rest => match named? name with
        | some read => read rest
        | none => (readLeading leadingSwitches (name :: rest)).bind leading?

end Request
end PostfixSheet.CommandLine
