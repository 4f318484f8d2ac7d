import PostfixSheet.Proofs.Journal.Lines
import PostfixSheet.Proofs.Json.RoundTrip

/-!
# Reading events

A line that records an event is a line of plain characters between braces, so nothing in it ends the
line early and nothing is stripped off it. Read back, it tells every part of the event; the filters
see the parts that they ask for, and the reversal and the limit act on the whole list.
-/

namespace PostfixSheet.Json

theorem same_string_iff {signs : Signs} {other : Json} :
    Same (.string signs) other ↔ other = .string signs := by
  cases other with
  | string found => simp [Same, eq_comm]
  | _ => simp [Same]

theorem same_integer_iff {n : Int} {other : Json} :
    Same (.integer n) other ↔ other = .integer n := by
  cases other with
  | integer found => simp [Same, eq_comm]
  | _ => simp [Same]

theorem same_null_iff {other : Json} : Same .null other ↔ other = .null := by
  cases other <;> simp [Same]

theorem same_object {fields : Fields} {other : Json} (same : Same (.object fields) other) :
    ∃ others, other = .object others ∧ Same (.object fields) (.object others) := by
  cases other with
  | object others => exact ⟨others, rfl, same⟩
  | _ => exact absurd same id

theorem IsPlain.ends_no_line {c : Char} (plain : IsPlain c) : Text.endsLine c = false := by
  cases ends : Text.endsLine c with
  | false => rfl
  | true =>
      exfalso
      simp only [Text.endsLine, Bool.or_eq_true, beq_iff_eq] at ends
      rcases ends with ((((((((rfl | rfl) | rfl) | rfl) | rfl) | rfl) | rfl) | rfl) | rfl) | rfl
      all_goals exact absurd plain (by decide)

end PostfixSheet.Json

namespace PostfixSheet

open Json (IsPlain WellFormed WellFormedFields Same SameFields)

/-- What is read for an event: its parts under their names, and nothing else. Only the order of
fields is not kept. -/
structure Event.Tells (event : Event) (fields : Json.Fields) : Prop where
  version : fields.get? Part.version.name = some (.integer event.version)
  time : fields.get? Part.time.name = some (.string event.time)
  level : fields.get? Part.level.name = some (.string event.level.name)
  type : fields.get? Part.type.name = some (.string event.type.name)
  message : fields.get? Part.message.name = some (.string event.message)
  code : fields.get? Part.errorCode.name =
    some (match event.errorCode with
      | some code => .string code
      | none => .null)
  context : ∃ context, fields.get? Part.context.name = some (.object context) ∧
    Same (.object event.context) (.object context)
  nothingElse : fields.length = 7

namespace Journal

/-- A text that stands in a journal as one line. -/
structure IsEntry (entry : Text) : Prop where
  plain : ∀ c ∈ entry, IsPlain c
  given : entry ≠ []
  first : ∀ c ∈ entry.head?, Text.isBlank c = false
  last : ∀ c ∈ entry.getLast?, Text.isBlank c = false

theorem is_entry_object {fields : Json.Fields} (formed : WellFormed (.object fields)) :
    IsEntry (Json.write (.object fields)) := by
  obtain ⟨inner, between⟩ := Json.write_object fields
  refine ⟨Json.plain_write formed, ?_, ?_, ?_⟩
  · simp [between]
  · intro c first
    rw [between] at first
    cases first
    decide
  · intro c last
    rw [between, List.getLast?_concat] at last
    cases last
    decide

theorem IsEntry.strip_eq {entry : Text} (isEntry : IsEntry entry) : Text.strip entry = entry :=
  Text.trim_of_ends isEntry.first isEntry.last

theorem IsEntry.ends_no_line {entry : Text} (isEntry : IsEntry entry) {c : Char}
    (member : c ∈ entry) : Text.endsLine c = false := (isEntry.plain c member).ends_no_line

theorem entries_of_lines {entries : List Text} (each : ∀ entry ∈ entries, IsEntry entry) :
    Text.entries (entries.map (· ++ ['\n'])).flatten = entries := by
  induction entries with
  | nil => rfl
  | cons entry entries induction =>
      have isEntry := each entry (by simp)
      have further := induction fun other member => each other (by simp [member])
      have uncut : ∀ c ∈ entry, Text.endsLine c = false := fun c => isEntry.ends_no_line
      have kept : (!entry.isEmpty) = true := by simpa using isEntry.given
      rw [Text.entries] at further ⊢
      rw [List.map_cons, List.flatten_cons, List.append_assoc, List.singleton_append,
        Text.split_where_append uncut (by decide), List.map_cons, isEntry.strip_eq, List.filter_cons,
        if_pos kept, further]

section Entries

variable [Json.Nesting]

theorem value_of_parsed {line : Text} {value : Json} (parsed : Json.ofText line = .ok value) :
    haltOf? line = none ∧ valueOf? line = some value := by
  rw [haltOf?, valueOf?, parsed]
  exact ⟨rfl, rfl⟩

theorem values_of_parsed {entries : List Text} {values : List Json}
    (each : List.Forall₂ (fun entry value => Json.ofText entry = .ok value) entries values) :
    (∀ entry ∈ entries, haltOf? entry = none) ∧ entries.filterMap valueOf? = values := by
  induction each with
  | nil => exact ⟨nofun, rfl⟩
  | cons first _ induction =>
      obtain ⟨readable, value⟩ := value_of_parsed first
      refine ⟨List.forall_mem_cons.mpr ⟨readable, induction.1⟩, ?_⟩
      rw [List.filterMap_cons, value, induction.2]

/-- Lines that are objects tell those that pass the filters. -/
theorem newest_told_objects {lines : List Text} {all : List Json.Fields}
    (parsed : List.Forall₂ (fun line value => Json.ofText line = .ok value) lines
      (all.map .object)) (level type : Option Text) (limit : Nat) :
    newestTold level type (some limit) lines = .ok (some
      (((all.filter fun fields => passes Event.Part.level.name level fields &&
        passes Event.Part.type.name type fields).map .object).reverse.take limit)) := by
  obtain ⟨readable, values⟩ := values_of_parsed parsed
  have objects : ∀ value ∈ lines.filterMap valueOf?, strayOf? value = none := by
    rw [values]
    intro value member
    obtain ⟨fields, _, rfl⟩ := List.mem_map.mp member
    rfl
  rw [newest_told_of_goes (stop_eq_none_iff.mpr ⟨readable, fun _ => objects⟩), values,
    List.filter_map]
  rfl

end Entries

/-! ## Events -/

/-- The version of an event can be read back from its text. -/
def ShortVersion (event : Event) : Prop :=
  (Text.ofNat event.version.natAbs).length ≤ Text.integerLimit

theorem formed_fields {event : Event} (formed : WellFormed (.object event.context))
    (short : ShortVersion event) : WellFormed (.object event.fields) := by
  have distinct : (event.fields.map Prod.fst).Nodup := by
    have names : (event.fields.map Prod.fst) = [Event.Part.version.name, Event.Part.time.name,
        Event.Part.level.name, Event.Part.type.name, Event.Part.context.name,
        Event.Part.message.name, Event.Part.errorCode.name] := rfl
    rw [names]
    decide
  have code : WellFormed (match event.errorCode with
      | some code => .string code
      | none => .null) := by
    cases event.errorCode with
    | none => trivial
    | some code => exact ⟨code, rfl⟩
  exact ⟨distinct, ⟨_, rfl⟩, short, ⟨_, rfl⟩, ⟨_, rfl⟩, ⟨_, rfl⟩, ⟨_, rfl⟩, ⟨_, rfl⟩, ⟨_, rfl⟩,
    ⟨_, rfl⟩, formed, ⟨_, rfl⟩, ⟨_, rfl⟩, ⟨_, rfl⟩, code, trivial⟩

/-- The fields of an event lie above those of its context only. -/
theorem depth_fields (event : Event) :
    Context.depth (.object event.fields) = Context.fieldsDepth event.context + 2 := by
  rw [Event.fields]
  simp only [Context.depth, Context.fieldsDepth]
  cases event.errorCode with
  | none =>
      simp only [Context.depth]
      omega
  | some code =>
      simp only [Context.depth]
      omega

/-- What is the same as the fields of an event tells the event. -/
theorem tells_of_same {event : Event} {fields : Json.Fields}
    (same : Same (.object event.fields) (.object fields)) : event.Tells fields := by
  obtain ⟨length, ⟨version, found, sameVersion⟩, ⟨time, foundTime, sameTime⟩,
    ⟨level, foundLevel, sameLevel⟩, ⟨type, foundType, sameType⟩,
    ⟨context, foundContext, sameContext⟩, ⟨message, foundMessage, sameMessage⟩,
    ⟨code, foundCode, sameCode⟩, _⟩ := same
  obtain ⟨others, rfl, equal⟩ := Json.same_object sameContext
  obtain rfl := Json.same_integer_iff.mp sameVersion
  obtain rfl := Json.same_string_iff.mp sameTime
  obtain rfl := Json.same_string_iff.mp sameLevel
  obtain rfl := Json.same_string_iff.mp sameType
  obtain rfl := Json.same_string_iff.mp sameMessage
  refine ⟨found, foundTime, foundLevel, foundType, foundMessage, ?_, ⟨others, foundContext, equal⟩,
    length.symm⟩
  refine foundCode.trans (congrArg some ?_)
  cases given : event.errorCode with
  | none =>
      rw [given] at sameCode
      exact Json.same_null_iff.mp sameCode
  | some text =>
      rw [given] at sameCode
      exact Json.same_string_iff.mp sameCode

/-- A line that is one entry, and from which an event is told. -/
def LineTells [Json.Nesting] (event : Event) (line : Text) : Prop :=
  ∃ entry fields, line = entry ++ ['\n'] ∧ IsEntry entry ∧
    Json.ofText entry = .ok (.object fields) ∧ event.Tells fields

/-- An event with what a journal keeps of its context. -/
def kept (event : Event) : Event :=
  { event with context := Context.recordedFields event.context }

theorem line_eq {event : Event} {line : Text} (written : event.line? = some line) :
    line = Json.write (.object (kept event).fields) ++ ['\n'] ∧
      Context.fieldsDepth event.context ≤ Context.depthLimit := by
  rw [Event.line?, Context.record?] at written
  split at written
  · cases written
  · next shallow => exact ⟨(Option.some.inj written).symm, Nat.le_of_not_lt shallow⟩

/-- A line that is written is not nested too deep to be read. -/
theorem line_tells [Json.Nesting] {event : Event} {line : Text}
    (formed : WellFormed (.object (kept event).context)) (short : ShortVersion event)
    (written : event.line? = some line) : LineTells (kept event) line := by
  have eventFormed : WellFormed (.object (kept event).fields) := formed_fields formed short
  obtain ⟨spelled, shallow⟩ := line_eq written
  have reachable : Context.depth (.object (kept event).fields) ≤ Json.Nesting.limit := by
    have same : Context.fieldsDepth (kept event).context = Context.fieldsDepth event.context :=
      Context.fields_depth_recorded event.context
    have limit : Context.depthLimit = 255 := rfl
    have enough := Json.Nesting.enough
    rw [depth_fields, same]
    omega
  obtain ⟨read, same, parsed⟩ := Json.of_text_write eventFormed reachable
  obtain ⟨fields, rfl, sameFields⟩ := Json.same_object same
  exact ⟨_, fields, spelled, is_entry_object eventFormed, parsed, tells_of_same sameFields⟩

theorem report_line_tells [Json.Nesting] {time : Text} {report : Report} {line : Text}
    (formed : WellFormed (.object report.context))
    (written : (Event.ofReport time report).line? = some line) :
    LineTells (Event.ofReport time report) line := by
  have short : ShortVersion (Event.ofReport time report) := by
    have one : (Text.ofNat 1).length ≤ Text.integerLimit := by decide
    exact one
  have whole : kept (Event.ofReport time report) = Event.ofReport time report := by
    have context := Context.recorded_fields_of_well_formed report.context formed.2
    exact congrArg (fun context => { Event.ofReport time report with context }) context
  have keptFormed : WellFormed (.object (kept (Event.ofReport time report)).context) := by
    rw [whole]
    exact formed
  have tells := line_tells keptFormed short written
  rwa [whole] at tells

theorem lines_tell [Json.Nesting] {events : List Event} {lines : List Text}
    (written : List.Forall₂ (fun event line => event.line? = some line) events lines)
    (emitted : ∀ event ∈ events, ∃ time report, event = Event.ofReport time report ∧
      WellFormed (.object report.context)) :
    List.Forall₂ LineTells events lines := by
  induction written with
  | nil => exact .nil
  | cons line _ induction =>
      obtain ⟨time, report, rfl, formed⟩ := emitted _ List.mem_cons_self
      have others := induction fun event member => emitted event (List.mem_cons_of_mem _ member)
      exact .cons (report_line_tells formed line) others

/-- Whether a name is the wanted one; nothing and the empty text want every name. -/
def isWanted (wanted : Option Text) (name : Text) : Bool :=
  match wanted with
  | none | some [] => true
  | some wanted => name == wanted

/-- Whether an event passes both filters. -/
def fits (level type : Option Text) (event : Event) : Bool :=
  isWanted level event.level.name && isWanted type event.type.name

/-- A value that was read is an object that tells an event. -/
def Records (event : Event) (value : Json) : Prop :=
  ∃ fields, value = .object fields ∧ event.Tells fields

theorem passes_of_text {key name : Text} {fields : Json.Fields}
    (found : fields.get? key = some (.string name.signs)) (wanted : Option Text) :
    passes key wanted fields = isWanted wanted name := by
  cases wanted with
  | none => rfl
  | some wanted =>
      cases wanted with
      | nil => rfl
      | cons c rest =>
          change holds key (c :: rest) fields = (name == c :: rest)
          rw [holds, found]
          exact Bool.eq_iff_iff.mpr (by simp [Signs.signs_inj])

theorem filtered_tell {events : List Event} {all : List Json.Fields}
    (each : List.Forall₂ Event.Tells events all) (level type : Option Text) :
    List.Forall₂ Event.Tells (events.filter (fits level type))
      (all.filter fun fields => passes Event.Part.level.name level fields &&
        passes Event.Part.type.name type fields) := by
  induction each with
  | nil => exact .nil
  | @cons event fields events all tells _ induction =>
      have same : fits level type event = (passes Event.Part.level.name level fields &&
          passes Event.Part.type.name type fields) := by
        rw [fits, passes_of_text tells.level level, passes_of_text tells.type type]
      rw [List.filter_cons, List.filter_cons, ← same]
      split
      · exact .cons tells induction
      · exact induction

section Read

variable [Json.Nesting] {journal : Journal} {files : Files} {path : Path} {place : Place}

theorem lines_are_entries {events : List Event} {lines : List Text}
    (told : List.Forall₂ LineTells events lines) :
    ∃ (entries : List Text) (all : List Json.Fields), lines = entries.map (· ++ ['\n']) ∧
      (∀ entry ∈ entries, IsEntry entry) ∧
      List.Forall₂ (fun entry value => Json.ofText entry = .ok value) entries
        (all.map .object) ∧
      List.Forall₂ Event.Tells events all := by
  induction told with
  | nil => exact ⟨[], [], rfl, nofun, .nil, .nil⟩
  | cons first _ induction =>
      obtain ⟨entry, fields, rfl, isEntry, parsed, tells⟩ := first
      obtain ⟨entries, all, rfl, areEntries, allParsed, allTell⟩ := induction
      exact ⟨entry :: entries, fields :: all, rfl, List.forall_mem_cons.mpr ⟨isEntry, areEntries⟩,
        .cons parsed allParsed, .cons tells allTell⟩

/-- Where the lines of some events are all that stands in the file of a journal, reading tells the
events. -/
theorem read_tells (leads : journal.file = some path) (located : files.locate path = .ok place)
    (free : files.at? place ≠ some .directory) {events : List Event} {lines : List Text}
    (told : List.Forall₂ LineTells events lines)
    (content : files.contentAt place = Text.bytes lines.flatten) (level type : Option Text)
    (limit : Nat) :
    ∃ values, journal.read files level type (some limit) = .ok (some values) ∧
      List.Forall₂ Records ((events.reverse.filter (fits level type)).take limit) values := by
  obtain ⟨entries, all, rfl, areEntries, parsed, tell⟩ := lines_are_entries told
  rw [read_eq_told leads located free content, entries_of_lines areEntries,
    newest_told_objects parsed]
  refine ⟨_, rfl, List.forall₂_take limit ?_⟩
  rw [List.filter_reverse, List.forall₂_reverse_iff, List.forall₂_map_right_iff]
  exact (filtered_tell tell level type).imp fun event fields tells => ⟨fields, rfl, tells⟩

end Read

end Journal
end PostfixSheet
