import PostfixSheet.Text.Basic

/-!
The words of a command line: options, their values, and everything else. An option has a long name,
and some have a letter as well. Letters may share one dash, and a value may follow its option in the
same word. After two dashes nothing is an option any more.
-/

namespace PostfixSheet.CommandLine

inductive Switch
  | separator
  | target
  | overwrite
  | settings
  | preview
  | version
  | help
deriving DecidableEq, Repr

namespace Switch

def name : Switch → Text
  | .separator => "--separator".toList
  | .target => "--out".toList
  | .overwrite => "--overwrite".toList
  | .settings => "--config".toList
  | .preview => "--preview".toList
  | .version => "--version".toList
  | .help => "--help".toList

def letter? : Switch → Option Char
  | .separator => some 's'
  | .target => some 'o'
  | .overwrite => some 'x'
  | _ => none

def takesValue : Switch → Bool
  | .separator | .target | .settings => true
  | _ => false

end Switch

/-- What some words say: the options with their values, which are empty for options without one, and
the words that are no options. -/
structure Arguments where
  options : List (Switch × Text)
  words : List Text
deriving Repr

namespace Arguments

def empty : Arguments := ⟨[], []⟩

def withOptions (options : List (Switch × Text)) (arguments : Arguments) : Arguments :=
  { arguments with options := options ++ arguments.options }

def withWord (word : Text) (arguments : Arguments) : Arguments :=
  { arguments with words := word :: arguments.words }

def has (arguments : Arguments) (switch : Switch) : Bool := arguments.options.any (·.1 == switch)

/-- The value of an option. If it is given several times the last one counts. -/
def value? (arguments : Arguments) (switch : Switch) : Option Text :=
  arguments.options.reverse.lookup switch

end Arguments

/-- What a word with options says: the options that are complete, and one that waits for the next
word. -/
structure Reading where
  complete : List (Switch × Text)
  waiting : Option Switch

/-- Reads the letters after a dash. The rest of the word is the value of a letter that takes one. -/
def readLetters (switches : List Switch) : Text → Option Reading
  | [] => some ⟨[], none⟩
  | c :: rest => match switches.find? (·.letter? == some c) with
      | none => none
      | some switch =>
          if switch.takesValue then
            if rest.isEmpty then some ⟨[], some switch⟩ else some ⟨[(switch, rest)], none⟩
          else (readLetters switches rest).map fun reading =>
            { reading with complete := (switch, []) :: reading.complete }

def twoDashes : Text := ['-', '-']

/-- Whether a word holds options. A dash alone does not. -/
def holdsOptions (word : Text) : Bool := word.head? == some '-' && 1 < word.length

/-- Reads a word with options; nothing if one of them is unknown, or has a value and takes none. -/
def readOptions (switches : List Switch) (word : Text) : Option Reading :=
  let name := word.takeWhile (· != '=')
  let value := word.drop (name.length + 1)
  match switches.find? (·.name == name) with
  | some switch =>
      if switch.takesValue then
        if name.length < word.length then some ⟨[(switch, value)], none⟩ else some ⟨[], some switch⟩
      else if name.length < word.length then none
      else some ⟨[(switch, [])], none⟩
  | none => if twoDashes.isPrefixOf word then none else readLetters switches (word.drop 1)

/-- Reads words, the first of which is the value of an option that waits for one. -/
def readFrom (switches : List Switch) : Option Switch → List Text → Option Arguments
  | none, [] => some Arguments.empty
  | some _, [] => none
  | some switch, word :: words =>
      (readFrom switches none words).map (Arguments.withOptions [(switch, word)])
  | none, word :: words =>
      if word = twoDashes then some ⟨[], words⟩
      else if holdsOptions word then match readOptions switches word with
        | some reading =>
            (readFrom switches reading.waiting words).map (Arguments.withOptions reading.complete)
        | none => none
      else (readFrom switches none words).map (Arguments.withWord word)

def read (switches : List Switch) (words : List Text) : Option Arguments :=
  readFrom switches none words

/-- Reads the options before the first other word, of which none takes a value. All words from that
one on are left as they are. -/
def readLeading (switches : List Switch) : List Text → Option Arguments
  | [] => some Arguments.empty
  | word :: words =>
      if word = twoDashes then some ⟨[], words⟩
      else if holdsOptions word then match readOptions switches word with
        | some reading => (readLeading switches words).map (Arguments.withOptions reading.complete)
        | none => none
      else some ⟨[], word :: words⟩

end PostfixSheet.CommandLine
