import PostfixSheet.Journal.Log
import PostfixSheet.Sheet
import PostfixSheet.Text.Control

/-!
What a running program has at hand: files, a journal, a clock and a console. Recording an event
never fails: a write that cannot be done costs a line on the console, and at most one such line a
minute.
-/

namespace PostfixSheet

structure Workspace where
  files : Files
  journal : Journal
  /-- seconds since some fixed moment -/
  now : Nat
  /-- the time as events give it -/
  time : Text
  output : Text
  errors : Text
  /-- whether the console takes what is written to `errors` -/
  errorsOpen : Bool

namespace Workspace

def ofFiles (files : Files) (time : Text) : Workspace :=
  ⟨files, Journal.closed, 0, time, [], [], true⟩

/-- Writes a line to the console. Control sequences are left out. -/
def print (w : Workspace) (line : Text) : Workspace :=
  { w with output := w.output ++ Text.withoutControls line ++ ['\n'] }

/-- Writes a line to the console's error side, if it takes any. -/
def complain (w : Workspace) (line : Text) : Workspace :=
  if w.errorsOpen then { w with errors := w.errors ++ line ++ ['\n'] } else w

def warning (fault : Journal.RecordFault) : Text :=
  "[postfixcsv] logging failed: Traceback (most recent call last):\n".toList
    ++ fault.code ++ ": ".toList ++ fault.message

def emit (w : Workspace) (event : Event) : Workspace :=
  match w.journal.record w.files event with
  | .ok files => { w with files }
  | .error fault =>
      let (journal, due) := w.journal.warn w.now
      if due then ({ w with journal }).complain (warning fault) else { w with journal }

def report (w : Workspace) (report : Report) : Workspace := w.emit (Event.ofReport w.time report)

def openJournal (w : Workspace) (directory : Option Text) : Workspace × Option FileError :=
  let (journal, files, error) := w.journal.openIn w.files directory
  ({ w with journal, files }, error)

def reportPass (w : Workspace) (pass : Sheet.Pass) : Workspace × Sheet × Grid :=
  (pass.reports.foldl report w, pass.sheet, pass.output)

def process [CallStack] (w : Workspace) (sheet : Sheet) : Workspace × Sheet × Grid :=
  w.reportPass sheet.pass

end Workspace
end PostfixSheet
