import PostfixSheet.Proofs.Journal.Reading
import PostfixSheet.Proofs.Journal.Recording

/-!
# What a journal tells of a history

A program opens journals, closes them and emits events, in any order. Every event goes to the end of
the file that the journal leads to at that moment, which no later call takes back: directories are
made but never taken away, so a path that led to a file leads there to the end. So each file tells
what was emitted while the journal led to it, each event once.
-/

namespace PostfixSheet.Logging

open Journal (Records fits)

inductive Call
  | configure (directory : Option Text)
  | emit (time : Text) (report : Report)

/-- The file that events go into where a directory is configured. -/
def logPath (directory : Text) : Path := (Path.ofText directory).child Journal.fileName

def Call.after (w : Workspace) : Call → Workspace
  | .configure directory => (w.openJournal directory).1
  | .emit time report => { w with time }.report report

/-- Where events go after a call. A directory that cannot be had changes nothing. -/
def Call.sinkAfter (w : Workspace) (sink : Option Path) : Call → Option Path
  | .configure none => none
  | .configure (some directory) => match (w.openJournal (some directory)).2 with
      | none => some (logPath directory)
      | some _ => sink
  | .emit _ _ => sink

/-- The event that a call emits, with the file that it goes into. -/
def Call.told (sink : Option Path) : Call → List (Path × Event)
  | .configure _ => []
  | .emit time report => (sink.map fun path => (path, Event.ofReport time report)).toList

/-- The writes that a call makes succeed. -/
def Call.Written (w : Workspace) : Call → Prop
  | .configure _ => True
  | .emit time report =>
      ∃ files, w.journal.record w.files (Event.ofReport time report) = .ok files

def after (w : Workspace) (calls : List Call) : Workspace := calls.foldl Call.after w

def sinkAfter (w : Workspace) (sink : Option Path) : List Call → Option Path
  | [] => sink
  | call :: calls => sinkAfter (call.after w) (call.sinkAfter w sink) calls

/-- The events that are emitted with somewhere to go, each with the file that it goes into. -/
def told (w : Workspace) (sink : Option Path) : List Call → List (Path × Event)
  | [] => []
  | call :: calls => call.told sink ++ told (call.after w) (call.sinkAfter w sink) calls

def Written (w : Workspace) : List Call → Prop
  | [] => True
  | call :: calls => call.Written w ∧ Written (call.after w) calls

/-- Of some events those whose file stands at a place. -/
def toldAt (files : Files) (place : Place) (events : List (Path × Event)) : List Event :=
  (events.filter fun entry => files.locate entry.1 = .ok place).map Prod.snd

variable {w middle later : Workspace} {sink next last : Option Path}
  {events others : List (Path × Event)} {place : Place} {path : Path}

/-- What some calls do: events go where they are told to go, and each file has the lines of its
events at the end. -/
structure Continues (w : Workspace) (sink : Option Path) (events : List (Path × Event))
    (later : Workspace) (next : Option Path) : Prop where
  leads : w.journal.file = sink → later.journal.file = next
  grows : w.files.Grows later.files
  reached : ∀ entry ∈ events, ∃ place, later.files.locate entry.1 = .ok place
  lines : ∀ place, ∃ lines,
    List.Forall₂ (fun event line => event.line? = some line)
      (toldAt later.files place events) lines ∧
    later.files.contentAt place = w.files.contentAt place ++ Text.bytes lines.flatten

theorem told_at_append (files : Files) (place : Place) (events others : List (Path × Event)) :
    toldAt files place (events ++ others) =
      toldAt files place events ++ toldAt files place others := by
  rw [toldAt, List.filter_append, List.map_append]
  rfl

/-- Where an event went does not change as the tree grows. -/
theorem told_at_of_grows {files grown : Files} (grows : files.Grows grown)
    (reached : ∀ entry ∈ events, ∃ place, files.locate entry.1 = .ok place) :
    toldAt grown place events = toldAt files place events := by
  rw [toldAt, toldAt]
  congr 1
  apply List.filter_congr
  intro entry member
  obtain ⟨there, located⟩ := reached entry member
  rw [located, Files.locate_of_grows grows located]

theorem Continues.refl (w : Workspace) (sink : Option Path) : Continues w sink [] w sink where
  leads := id
  grows := .refl w.files
  reached := nofun
  lines _ := ⟨[], .nil, by simp [Text.bytes]⟩

theorem Continues.trans (first : Continues w sink events middle next)
    (further : Continues middle next others later last) :
    Continues w sink (events ++ others) later last where
  leads given := further.leads (first.leads given)
  grows := first.grows.trans further.grows
  reached entry member := by
    rcases List.mem_append.mp member with before | behind
    · obtain ⟨place, located⟩ := first.reached entry before
      exact ⟨place, Files.locate_of_grows further.grows located⟩
    · exact further.reached entry behind
  lines place := by
    obtain ⟨lines, told, content⟩ := first.lines place
    obtain ⟨more, toldMore, contentMore⟩ := further.lines place
    refine ⟨lines ++ more, ?_, ?_⟩
    · rw [told_at_append, told_at_of_grows further.grows first.reached]
      exact List.rel_append told toldMore
    · rw [contentMore, content, List.append_assoc, List.flatten_append]
      simp only [Text.bytes, List.flatMap_append]

theorem Continues.of_gains (leads : w.journal.file = sink → later.journal.file = next)
    (gains : w.files.OnlyGains later.files) : Continues w sink [] later next where
  leads := leads
  grows := gains.grows
  reached := nofun
  lines place := ⟨[], .nil, by simp [gains.content_at_eq place, Text.bytes]⟩

theorem configure_continues (w : Workspace) (sink : Option Path) (directory : Option Text) :
    Continues w sink [] ((Call.configure directory).after w)
      ((Call.configure directory).sinkAfter w sink) := by
  cases directory with
  | none => exact .of_gains (fun _ => rfl) (.refl w.files)
  | some directory =>
      have gains := Files.ensure_directory_only_gains w.files (Path.ofText directory)
      rw [Call.after, Call.sinkAfter, Workspace.openJournal, Journal.openIn]
      simp only
      cases made : w.files.ensureDirectory (Path.ofText directory) with
      | mk files error =>
          rw [made] at gains
          cases error with
          | none => exact .of_gains (fun _ => rfl) gains
          | some error => exact .of_gains id gains

theorem emit_continues {time : Text} {report : Report} (leads : w.journal.file = sink)
    (written : (Call.emit time report).Written w) :
    Continues w sink ((Call.emit time report).told sink) ((Call.emit time report).after w) sink := by
  obtain ⟨files, recorded⟩ := written
  cases sink with
  | none =>
      have dropped : ∀ event, w.journal.record w.files event = .ok w.files := by
        intro event
        rw [Journal.record, leads]
      have after : (Call.emit time report).after w = { w with time } := by
        rw [Call.after, Workspace.report, Workspace.emit]
        simp only [dropped]
      rw [after]
      exact .of_gains (fun _ => leads) (.refl w.files)
  | some path =>
      obtain ⟨place, line, located, takes, written⟩ := Workspace.takes_of_recorded leads recorded
      have timed : { w with time }.Takes place := ⟨takes.leads, takes.free⟩
      have appends := Workspace.report_appends timed written
      have grows := appends.grows timed
      -- the path leads to the same place after the write, so the event is told there
      have leadsThere := Files.locate_of_grows grows located
      constructor
      · rw [Call.after, appends.rest]
        exact fun _ => leads
      · exact grows
      · intro entry member
        obtain rfl := List.mem_singleton.mp member
        exact ⟨place, leadsThere⟩
      · intro other
        by_cases same : place = other
        · subst same
          refine ⟨[line], ?_, ?_⟩
          · simp [toldAt, Call.told, Call.after, leadsThere, written]
          · rw [List.flatten_singleton]
            exact appends.content
        · refine ⟨[], ?_, ?_⟩
          · simp [toldAt, Call.told, Call.after, leadsThere, same]
          · have unchanged := appends.others other (Ne.symm same)
            rw [Files.contentAt, Call.after, unchanged]
            simp [Files.contentAt, Text.bytes]

/-- What one call does. -/
theorem call_continues {call : Call} (leads : w.journal.file = sink) (written : call.Written w) :
    Continues w sink (call.told sink) (call.after w) (call.sinkAfter w sink) := by
  cases call with
  | configure directory => exact configure_continues w sink directory
  | emit time report => exact emit_continues leads written

/-- What a history of calls does. -/
theorem history_continues {calls : List Call} (leads : w.journal.file = sink)
    (written : Written w calls) :
    Continues w sink (told w sink calls) (after w calls) (sinkAfter w sink calls) := by
  induction calls generalizing w sink with
  | nil => exact .refl w sink
  | cons call calls induction =>
      have first := call_continues leads written.1
      exact first.trans (induction (first.leads leads) written.2)

theorem mem_told {calls : List Call} {entry : Path × Event} (member : entry ∈ told w sink calls) :
    ∃ time report, Call.emit time report ∈ calls ∧ entry.2 = Event.ofReport time report := by
  induction calls generalizing w sink with
  | nil => cases member
  | cons call calls induction =>
      rcases List.mem_append.mp member with first | further
      · cases call with
        | configure directory => cases first
        | emit time report =>
            cases sink with
            | none => cases first
            | some path =>
                obtain rfl := List.mem_singleton.mp first
                exact ⟨time, report, List.mem_cons_self, rfl⟩
      · obtain ⟨time, report, inside, same⟩ := induction further
        exact ⟨time, report, List.mem_cons_of_mem _ inside, same⟩

/-- What files keep of the events that were told: at the end of every file the lines of those that
went into it and no others, which are read back with the newest first. -/
structure Keeps [Json.Nesting] (w later : Workspace) (events : List (Path × Event)) : Prop where
  lines : ∀ place, ∃ lines,
    List.Forall₂ (fun event line => event.line? = some line)
      (toldAt later.files place events) lines ∧
    later.files.contentAt place = w.files.contentAt place ++ Text.bytes lines.flatten
  read : ∀ directory place, later.files.locate (logPath directory) = .ok place →
    later.files.at? place ≠ some .directory →
    ∀ (reader : Journal), reader.file = some (logPath directory) →
    ∀ (level type : Option Text) (limit : Nat), ∃ values,
      reader.read later.files level type (some limit) = .ok (some values) ∧
      List.Forall₂ Records
        (((toldAt later.files place events).reverse.filter (fits level type)).take limit) values

/-- The journal leads where it was last told to, and the files keep what was emitted while it led to
them. -/
theorem files_tell_what_was_emitted [Json.Nesting] {calls : List Call} (silent : w.journal.file = none)
    (fresh : ∀ place content, place.getLast? = some Journal.fileName →
      w.files.at? place ≠ some (.file content))
    (formed : ∀ time report, Call.emit time report ∈ calls →
      Json.WellFormed (.object report.context))
    (written : Written w calls) :
    (after w calls).journal.file = sinkAfter w none calls ∧
      Keeps w (after w calls) (told w none calls) := by
  have history := history_continues silent written
  refine ⟨history.leads silent, history.lines, ?_⟩
  intro directory place located free reader leads level type limit
  obtain ⟨lines, told, content⟩ := history.lines place
  have named : place.getLast? = some Journal.fileName :=
    Files.last_of_locate_child (by decide) located
  have empty : w.files.contentAt place = [] := by
    rw [Files.contentAt]
    split
    · next found => exact absurd found (fresh place _ named)
    · rfl
  rw [empty, List.nil_append] at content
  have tells := Journal.lines_tell told fun event member => by
    obtain ⟨entry, chosen, rfl⟩ := List.mem_map.mp member
    obtain ⟨time, report, inside, same⟩ := mem_told (List.mem_of_mem_filter chosen)
    exact ⟨time, report, same, formed time report inside⟩
  exact Journal.read_tells leads located free tells content level type limit

/-- A context with a line end in a key, characters of every width, and fields out of order. -/
def deepContext : Json.Fields :=
  let inner : Json.Fields :=
    [("\u2028".toList, .string "\"\\\u0085\x7f".toList), (Text.signs [], .array [])]
  [("z\n".toList, .array [.integer (-7), .bool true, .null]), ("a".toList, .object inner)]

theorem deep_context_formed : Json.WellFormed (.object deepContext) := by
  have short : (Text.ofNat 7).length ≤ Text.integerLimit := by decide
  exact ⟨by decide, ⟨_, rfl⟩, ⟨short, trivial, trivial, trivial⟩, ⟨_, rfl⟩,
    ⟨by decide, ⟨_, rfl⟩, ⟨_, rfl⟩, ⟨[], rfl⟩, trivial, trivial⟩, trivial⟩

def report (level : Level) (type : EventType) (errorCode : Option Text) : Report :=
  ⟨level, type, ['\t', Char.ofNat 0x1f600], deepContext, errorCode⟩

/-- Two spellings of one directory, a directory that cannot be had, and a time without a journal. -/
def shift : List Call :=
  [.emit "1".toList (report .error .fileRead none),
    .configure (some "logs/day".toList),
    .emit "2".toList (report .info .sheetStarted none),
    .configure (some "notes".toList),
    .emit "3".toList (report .warning .cellError (some "division_by_zero".toList)),
    .configure none,
    .emit "4".toList (report .error .fileWritten none),
    .configure (some "logs/../logs//day/".toList),
    .emit "5".toList (report .warning .cycleDetected none)]

def office : Workspace := .ofFiles ⟨[(["notes".toList], .file [])]⟩ []

theorem office_is_fresh (place : Place) (content : List UInt8)
    (named : place.getLast? = some Journal.fileName) :
    office.files.at? place ≠ some (.file content) := by
  intro found
  rw [Files.at?] at found
  split at found
  · cases found
  · have notes : place = ["notes".toList] := by
      by_contra other
      have listed : office.files.entries = [(["notes".toList], .file [])] := rfl
      have miss : (place == ["notes".toList]) = false := by simpa using other
      rw [listed, List.lookup_cons, miss] at found
      cases found
    rw [notes] at named
    exact absurd named (by decide)

theorem shift_is_told :
    office.journal.file = none ∧ Written office shift ∧
    (after office shift).journal.file = sinkAfter office none shift ∧
      Keeps office (after office shift) (told office none shift) := by
  have written : Written office shift :=
    ⟨⟨_, rfl⟩, trivial, ⟨_, rfl⟩, trivial, ⟨_, rfl⟩, trivial, ⟨_, rfl⟩, trivial, ⟨_, rfl⟩, trivial⟩
  refine ⟨rfl, written, files_tell_what_was_emitted rfl office_is_fresh ?_ written⟩
  intro time made member
  have context : made.context = deepContext := by
    simp only [shift, List.mem_cons, Call.emit.injEq, reduceCtorEq, List.not_mem_nil, or_false,
      false_or] at member
    rcases member with ⟨_, rfl⟩ | ⟨_, rfl⟩ | ⟨_, rfl⟩ | ⟨_, rfl⟩ | ⟨_, rfl⟩
    all_goals rfl
  rw [context]
  exact deep_context_formed

end PostfixSheet.Logging
