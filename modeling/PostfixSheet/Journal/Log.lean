import PostfixSheet.Files.Tree
import PostfixSheet.Journal.Event
import PostfixSheet.Json.Reader
import PostfixSheet.Text.Lines

/-!
The journal file. Events are added at its end, a line for each, and read back with the newest first.
Lines that are no JSON are passed over on reading, so a damaged file still tells what it can. A line
that is nested too deep ends the reading.
-/

namespace PostfixSheet

/-- Where events go, and when the last warning about a failed write was due. Without a file events
are dropped. -/
structure Journal where
  file : Option Path
  warnedAt : Option Nat

namespace Journal

def fileName : Text := "events.ndjson".toList

def closed : Journal := ⟨none, none⟩

/-- Lets a journal write into a directory, which is made if it is missing, or into nothing. A
journal that cannot have the directory is left as it was. -/
def openIn (journal : Journal) (files : Files) (directory : Option Text) :
    Journal × Files × Option FileError :=
  match directory with
  | none => ({ journal with file := none }, files, none)
  | some text =>
      let path := Path.ofText text
      match files.ensureDirectory path with
      | (files, none) => ({ journal with file := some (path.child fileName) }, files, none)
      | (files, some error) => (journal, files, some error)

inductive RecordFault
  | file (error : FileError)
  | tooDeep
deriving DecidableEq, Repr

namespace RecordFault

def code : RecordFault → Text
  | .file error => error.code
  | .tooDeep => "ValueError".toList

def message : RecordFault → Text
  | .file error => error.message
  | .tooDeep => "Circular reference detected (depth exceeded)".toList

end RecordFault

def record (journal : Journal) (files : Files) (event : Event) : Except RecordFault Files :=
  match journal.file with
  | none => .ok files
  | some path => match event.line? with
      | none => .error .tooDeep
      | some line => (files.append path (Text.bytes line)).mapError .file

def warningInterval : Nat := 60

/-- Asks whether a warning may be given at a time, in seconds. A warning that is given is
remembered. -/
def warn (journal : Journal) (now : Nat) : Journal × Bool :=
  match journal.warnedAt with
  | some last =>
      if now - last < warningInterval then (journal, false)
      else ({ journal with warnedAt := some now }, true)
  | none => ({ journal with warnedAt := some now }, true)

inductive ReadError
  | file (error : FileError)
  | undecodable (bad : Text.Undecodable)
  | integerTooLong (digits : Nat)
  | tooDeep
  /-- a filter met a value that is no object and so has neither level nor type -/
  | notObject (kind : Json.Kind)
deriving DecidableEq, Repr

def valuesOf [Json.Nesting] : List Text → Except ReadError (List Json)
  | [] => .ok []
  | entry :: entries => match Json.ofText entry with
      | .ok value => (valuesOf entries).map (value :: ·)
      | .error .malformed => valuesOf entries
      | .error (.integerTooLong digits) => .error (.integerTooLong digits)
      | .error .tooDeep => .error .tooDeep

def holds (key wanted : Text) (fields : Json.Fields) : Bool :=
  match fields.get? key with
  | some (.string signs) => signs == wanted.signs
  | _ => false

/-- The objects among some values whose field with a key holds a text. Nothing and the empty text
are no filter. -/
def select (key : Text) (wanted : Option Text) (values : List Json) :
    Except ReadError (List Json) :=
  match wanted with
  | none | some [] => .ok values
  | some wanted => values.filterM fun value => match value with
      | .object fields => .ok (holds key wanted fields)
      | other => .error (.notObject other.kind)

/-- The first so many of some values; a negative number leaves out so many at the end. -/
def takeUpTo (limit : Option Int) (values : List Json) : List Json :=
  match limit with
  | none => values
  | some (.ofNat n) => values.take n
  | some (.negSucc n) => values.take (values.length - (n + 1))

def standardLimit : Int := 200

/-- What the journal tells, the newest first: of the lines that pass both filters as many as the
limit allows. A journal without a file tells nothing at all; a file that is not there has no lines.
-/
def read [Json.Nesting] (journal : Journal) (files : Files) (level type : Option Text)
    (limit : Option Int) : Except ReadError (Option (List Json)) :=
  match journal.file with
  | none => .ok none
  | some path =>
      match files.isThere path, files.read path with
        | .error error, _ => .error (.file error)
        | .ok false, _ => .ok (some [])
        | .ok true, .error error => .error (.file error)
        | .ok true, .ok content => match Text.ofBytes content with
            | .error bad => .error (.undecodable bad)
            | .ok text => do
                let values ← valuesOf (Text.entries (Text.unifyLineEnds text))
                let values ← select Event.Part.level.name level values
                let values ← select Event.Part.type.name type values
                .ok (some (takeUpTo limit values.reverse))

end Journal
end PostfixSheet
