import PostfixSheet.Journal.Context
import PostfixSheet.Json.Whole
import PostfixSheet.Json.Writer

/-!
Events: what a journal records, one line of JSON for each.
-/

namespace PostfixSheet

inductive Level
  | info
  | warning
  | error
deriving DecidableEq, Repr

namespace Level

def all : List Level := [.info, .warning, .error]

def name : Level → Text
  | .info => "info".toList
  | .warning => "warning".toList
  | .error => "error".toList

def ofName? (name : Text) : Option Level := all.find? (·.name == name)

end Level

inductive EventType
  | sheetStarted
  | sheetCompleted
  | cellError
  | cycleDetected
  | fileRead
  | fileWritten
deriving DecidableEq, Repr

namespace EventType

def all : List EventType :=
  [.sheetStarted, .sheetCompleted, .cellError, .cycleDetected, .fileRead, .fileWritten]

def name : EventType → Text
  | .sheetStarted => "sheet_started".toList
  | .sheetCompleted => "sheet_completed".toList
  | .cellError => "cell_error".toList
  | .cycleDetected => "cycle_detected".toList
  | .fileRead => "file_read".toList
  | .fileWritten => "file_written".toList

def ofName? (name : Text) : Option EventType := all.find? (·.name == name)

end EventType

/-- What a program says about its work: an event before it is given a version and a time. -/
structure Report where
  level : Level
  type : EventType
  message : Text
  context : Json.Fields
  errorCode : Option Text

/-- A report with the version of its form and the time at which it was made. -/
structure Event extends Report where
  version : Int
  time : Text

namespace Event

def currentVersion : Int := 1

def ofReport (time : Text) (report : Report) : Event :=
  { report with version := currentVersion, time }

/-- The names of the parts of an event, in the order in which they are checked. -/
inductive Part
  | version
  | time
  | level
  | type
  | context
  | message
  | errorCode
deriving DecidableEq, Repr

def Part.name : Part → Text
  | .version => "schema_version".toList
  | .time => "ts".toList
  | .level => "level".toList
  | .type => "event_type".toList
  | .context => "context".toList
  | .message => "message".toList
  | .errorCode => "error_code".toList

/-- The parts of an event by their names. -/
def fields (event : Event) : Json.Fields :=
  [(Part.version.name, .integer event.version),
    (Part.time.name, .string event.time),
    (Part.level.name, .string event.level.name),
    (Part.type.name, .string event.type.name),
    (Part.context.name, .object event.context),
    (Part.message.name, .string event.message),
    (Part.errorCode.name, match event.errorCode with
      | some code => .string code
      | none => .null)]

/-- The line of a journal that records an event; nothing if its context is too deep. -/
def line? (event : Event) : Option Text :=
  (Context.record? event.context).map fun context =>
    Json.write (.object { event with context }.fields) ++ ['\n']

inductive PartFault
  | missing
  | unknownName
  | notText
  | notObject
  | notInteger (fault : Json.WholeFault)
deriving DecidableEq, Repr

/-- A part of an event as it is given, or what is wrong with it. -/
abbrev Checked (α : Type) := Except PartFault α

def checkVersion : Option Json → Checked Int
  | none => .ok currentVersion
  | some value => value.whole.mapError .notInteger

def checkText (standard : Text) : Option Json → Checked Text
  | none => .ok standard
  | some (.string signs) => signs.text?.elim (.error .notText) .ok
  | some _ => .error .notText

def checkName (ofName? : Text → Option α) : Option Json → Checked α
  | none => .error .missing
  | some (.string name) => match name.text?.bind ofName? with
      | some value => .ok value
      | none => .error .unknownName
  | some _ => .error .unknownName

def checkContext : Option Json → Checked Json.Fields
  | none => .ok []
  | some (.object fields) => .ok fields
  | some _ => .error .notObject

def checkCode : Option Json → Checked (Option Text)
  | none | some .null => .ok none
  | some (.string code) => code.text?.elim (.error .notText) fun code => .ok (some code)
  | some _ => .error .notText

/-- The fault of a part, if it has one. -/
def faultOf (part : Part) : Checked α → List (Part × PartFault)
  | .ok _ => []
  | .error fault => [(part, fault)]

/-- An event from its parts, or all that is wrong with them. Parts that are left out take their
usual values, and the time is `now`; only the level and the type have to be there. -/
def ofFields (now : Text) (given : Json.Fields) : Except (List (Part × PartFault)) Event :=
  let version := checkVersion (given.get? Part.version.name)
  let time := checkText now (given.get? Part.time.name)
  let level := checkName Level.ofName? (given.get? Part.level.name)
  let type := checkName EventType.ofName? (given.get? Part.type.name)
  let context := checkContext (given.get? Part.context.name)
  let message := checkText [] (given.get? Part.message.name)
  let code := checkCode (given.get? Part.errorCode.name)
  match version, time, level, type, context, message, code with
  | .ok version, .ok time, .ok level, .ok type, .ok context, .ok message, .ok errorCode =>
      .ok { level, type, message, context, errorCode, version, time }
  | _, _, _, _, _, _, _ =>
      .error (faultOf .version version ++ faultOf .time time ++ faultOf .level level
        ++ faultOf .type type ++ faultOf .context context ++ faultOf .message message
        ++ faultOf .errorCode code)

/-- The parts of an event of a given level as a caller gives them. A context that is nothing or
empty is left out. -/
def reportFields (level : Level) (type message context : Json) (errorCode : Option Json) :
    Json.Fields :=
  let given : Json.Fields :=
    [(Part.level.name, .string level.name), (Part.type.name, type), (Part.message.name, message)]
  let context : Json.Fields := if context.isSomething then [(Part.context.name, context)] else []
  given ++ context ++ (errorCode.map fun code => (Part.errorCode.name.signs, code)).toList

end Event
end PostfixSheet
