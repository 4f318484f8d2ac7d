import PostfixSheet.Proofs.Journal.Reading
import PostfixSheet.Proofs.Journal.Recording
import PostfixSheet.Proofs.Json.Behind
import Mathlib.Data.List.DropRight

/-!
# An event behind any content

An event is written behind whatever a file holds. If the file ends a line there, the event stands on
a line of its own and is told before all that was told. If a line is left open there, as by a write
that was broken off, the event is put to that line. Neither of the two is told then, and the file is
read as if it were cut after its last line end.
-/

namespace PostfixSheet.Text

/-- What stands behind the last line end of a text. -/
def unfinished (text : Text) : Text := text.rtakeWhile (!endsLine ·)

/-- A text up to its last line end. -/
def finished (text : Text) : Text := text.rdropWhile (!endsLine ·)

/-- Behind the last line end of a text there are blanks at most. -/
def EndsLine (text : Text) : Prop := ∀ c ∈ unfinished text, isBlank c = true

theorem finished_append_unfinished (text : Text) : finished text ++ unfinished text = text :=
  List.rdropWhile_append_rtakeWhile

theorem unfinished_uncut (text : Text) : ∀ c ∈ unfinished text, endsLine c = false := by
  intro c member
  simpa using List.mem_rtakeWhile_imp member

theorem finished_cases (text : Text) :
    finished text = [] ∨ ∃ body d, endsLine d = true ∧ finished text = body ++ [d] := by
  by_cases empty : finished text = []
  · exact .inl empty
  · have last : ¬(!endsLine ((finished text).getLast empty)) = true :=
      List.rdropWhile_last_not _ text empty
    refine .inr ⟨(finished text).dropLast, (finished text).getLast empty, by simpa using last, ?_⟩
    exact (List.dropLast_append_getLast empty).symm

theorem entries_concat {d : Char} (ends : endsLine d = true) (text : Text) :
    entries (text ++ [d]) = entries text := by
  change said (splitWhere endsLine (text ++ [d])) = said (splitWhere endsLine text)
  rw [split_where_at_cut ends, said_append]
  exact List.append_nil _

/-- A line is put to what is left open of a text. -/
theorem entries_append {line : Text} (uncut : ∀ c ∈ line, endsLine c = false) (text : Text) :
    entries (text ++ line) = entries (finished text) ++ said [unfinished text ++ line] := by
  have lastUncut : ∀ c ∈ unfinished text ++ line, endsLine c = false := by
    intro c member
    exact (List.mem_append.mp member).elim (unfinished_uncut text c) (uncut c)
  have parted : text ++ line = finished text ++ (unfinished text ++ line) := by
    rw [← List.append_assoc, finished_append_unfinished]
  rw [parted]
  rcases finished_cases text with empty | ⟨body, d, ends, same⟩
  · rw [empty, List.nil_append, entries, split_where_uncut lastUncut]
    rfl
  · rw [same, entries_concat ends, List.append_assoc, List.singleton_append]
    change said (splitWhere endsLine _) = said (splitWhere endsLine body) ++ said _
    rw [split_where_at_cut ends, split_where_uncut lastUncut, said_append]

theorem entries_eq (text : Text) :
    entries text = entries (finished text) ++ said [unfinished text] := by
  have cut := @entries_append [] nofun text
  rwa [List.append_nil, List.append_nil] at cut

theorem said_of_blanks {blanks : Text} (all : ∀ c ∈ blanks, isBlank c = true) :
    said [blanks] = [] := by
  have none : strip blanks = [] := by
    rw [strip, trim, List.dropWhile_eq_nil_iff.mpr all]
    rfl
  rw [said, List.map_singleton, none]
  rfl

end PostfixSheet.Text

namespace PostfixSheet

open Json (WellFormed)

theorem Json.is_blank_of_is_space {c : Char} (space : isSpace c = true) : Text.isBlank c = true := by
  simp only [isSpace, Bool.or_eq_true, beq_iff_eq] at space
  rcases space with ((rfl | rfl) | rfl) | rfl
  all_goals decide

/-- No name of a part of an event is the start of a token. -/
theorem Event.Part.stands_bare (part : Part) : Json.StandsBare part.name := by
  intro rest
  cases part
  all_goals exact List.mem_singleton_self _

theorem Event.keys_stand_bare (event : Event) :
    ∀ key ∈ event.fields.map Prod.fst, Json.StandsBare key := by
  intro key member
  rw [fields] at member
  simp only [List.map_cons, List.map_nil, List.mem_cons, List.not_mem_nil, or_false] at member
  rcases member with rfl | rfl | rfl | rfl | rfl | rfl | rfl
  all_goals exact Part.stands_bare _

namespace Journal

theorem IsEntry.strip_behind {entry : Text} (isEntry : IsEntry entry) (front : Text) :
    Text.strip (front ++ entry) = front.dropWhile Text.isBlank ++ entry := by
  let whole := front.dropWhile Text.isBlank ++ entry
  have entryStart : entry.dropWhile Text.isBlank = entry := by
    cases entry with
    | nil => rfl
    | cons c rest => exact List.dropWhile_cons_of_neg (by simp [isEntry.first c rfl])
  have start : (front ++ entry).dropWhile Text.isBlank = whole := by
    rw [List.dropWhile_append, entryStart]
    split
    · next blank => exact (congrArg (· ++ entry) (List.isEmpty_iff.mp blank)).symm
    · rfl
  have idle : whole.dropWhile Text.isBlank = whole := by
    rw [← start, List.dropWhile_idempotent]
  have first : ∀ c ∈ whole.head?, Text.isBlank c = false := by
    intro c head
    have marked := List.head?_dropWhile_not Text.isBlank whole
    rw [idle, head] at marked
    exact marked
  have last : ∀ c ∈ whole.getLast?, Text.isBlank c = false := by
    intro c ending
    rw [List.getLast?_append_of_ne_nil _ isEntry.given] at ending
    exact isEntry.last c ending
  calc
    Text.strip (front ++ entry) = Text.strip whole := by
      rw [Text.strip, Text.strip, Text.trim, Text.trim, start, idle]
    _ = whole := Text.trim_of_ends first last

/-- Behind an open line an entry is put to what the line has so far. -/
theorem entries_behind {entry : Text} (isEntry : IsEntry entry) (text : Text) :
    Text.entries (text ++ entry ++ ['\n']) = Text.entries (Text.finished text) ++
      [(Text.unfinished text).dropWhile Text.isBlank ++ entry] := by
  have kept : (!((Text.unfinished text).dropWhile Text.isBlank ++ entry).isEmpty) = true := by
    simp [isEntry.given]
  rw [Text.entries_concat (by decide), Text.entries_append fun c => isEntry.ends_no_line,
    Text.said, List.map_singleton, isEntry.strip_behind, List.filter_cons, if_pos kept]
  rfl

/-- Behind a line end an entry is a line of its own. -/
theorem entries_behind_line_end {entry text : Text} (isEntry : IsEntry entry)
    (ends : Text.EndsLine text) :
    Text.entries (text ++ entry ++ ['\n']) = Text.entries text ++ [entry] := by
  rw [entries_behind isEntry, Text.entries_eq text, Text.said_of_blanks ends,
    List.dropWhile_eq_nil_iff.mpr ends]
  simp

section Told

variable [Json.Nesting] {level type : Option Text} {lines : List Text} {line : Text}

/-- What one more line adds at which the reading does not end. -/
theorem told_concat (readable : haltOf? line = none)
    (object : ∀ value ∈ valueOf? line, strayOf? value = none) :
    told level type (lines ++ [line]) =
      (told level type lines).map (· ++ (valueOf? line).toList.filter (isTold level type)) := by
  have values : (lines ++ [line]).filterMap valueOf? =
      lines.filterMap valueOf? ++ (valueOf? line).toList := by
    rw [List.filterMap_append, List.filterMap_cons]
    cases valueOf? line <;> rfl
  have excess : (lines ++ [line]).findSome? haltOf? = lines.findSome? haltOf? := by
    rw [List.findSome?_append, List.findSome?_singleton, readable, Option.or_none]
  have objects : (valueOf? line).toList.findSome? strayOf? = none :=
    List.findSome?_eq_none_iff.mpr fun value member => object value (Option.mem_toList.mp member)
  have stops (filtered : Bool) : stopOf? filtered (lines ++ [line]) = stopOf? filtered lines := by
    rw [stopOf?, stopOf?, excess, values, List.findSome?_append, objects, Option.or_none]
  rw [told_eq, told_eq, stops, values, List.filter_append]
  cases stopOf? (isFilter level || isFilter type) lines with
  | some error => rfl
  | none => rfl

theorem told_concat_object {fields : Json.Fields} (parsed : Json.ofText line = .ok (.object fields)) :
    told level type (lines ++ [line]) = (told level type lines).map (· ++
      if isWantedObject level type (.object fields) then [.object fields] else []) := by
  obtain ⟨readable, value⟩ := value_of_parsed parsed
  have object : strayOf? (.object fields) = none := rfl
  have added : (valueOf? line).toList.filter (isTold level type) =
      if isWantedObject level type (.object fields) then [.object fields] else [] := by
    rw [value, wanted_eq_told object, Option.toList_some, List.filter_singleton]
    cases isTold level type (.object fields) <;> rfl
  rw [told_concat readable, added]
  intro found same
  obtain rfl := Option.some.inj (value.symm.trans same)
  exact object

/-- A last line that is not read changes nothing, unless the reading ends at a line. -/
theorem told_concat_unread (unread : ∀ value, Json.ofText line ≠ .ok value) :
    told level type (lines ++ [line]) = told level type lines ∨
      ∃ stop error, haltOf? stop = some error ∧
        told level type (lines ++ [line]) = .error error := by
  have silent : valueOf? line = none := by
    rw [valueOf?]
    split
    · next value parsed => exact absurd parsed (unread value)
    · rfl
  cases halt : haltOf? line with
  | none =>
      left
      rw [told_concat halt (by simp [silent]), silent]
      cases told level type lines with
      | error error => rfl
      | ok values => exact congrArg Except.ok (List.append_nil values)
  | some last =>
      right
      have found : ∃ error, (lines ++ [line]).findSome? haltOf? = some error := by
        rw [List.findSome?_append, List.findSome?_singleton, halt]
        cases lines.findSome? haltOf? with
        | none => exact ⟨last, rfl⟩
        | some error => exact ⟨error, rfl⟩
      obtain ⟨error, first⟩ := found
      obtain ⟨stop, _, ends⟩ := List.exists_of_findSome?_eq_some first
      refine ⟨stop, error, ends, ?_⟩
      rw [told_eq, stopOf?, first]
      rfl

theorem newest_told_concat_object {fields : Json.Fields}
    (parsed : Json.ofText line = .ok (.object fields)) (limit : Nat) :
    newestTold level type (some (limit + 1 : Nat)) (lines ++ [line]) =
      if isWantedObject level type (.object fields) then
        (newestTold level type (some limit) lines).map (·.map (.object fields :: ·))
      else newestTold level type (some (limit + 1 : Nat)) lines := by
  rw [newestTold, newestTold, newestTold, told_concat_object parsed]
  split
  · cases told level type lines with
    | error error => rfl
    | ok values =>
        change Except.ok (some ((values ++ [_]).reverse.take (limit + 1))) = _
        rw [List.reverse_concat]
        rfl
  · cases told level type lines with
    | error error => rfl
    | ok values =>
        change Except.ok (some (takeUpTo _ (values ++ []).reverse)) = _
        rw [List.append_nil]
        rfl

theorem newest_told_concat_unread (unread : ∀ value, Json.ofText line ≠ .ok value)
    (limit : Option Int) :
    newestTold level type limit (lines ++ [line]) = newestTold level type limit lines ∨
      ∃ stop error, haltOf? stop = some error ∧
        newestTold level type limit (lines ++ [line]) = .error error := by
  rw [newestTold, newestTold]
  rcases told_concat_unread unread with same | ⟨stop, error, halt, ends⟩
  · exact .inl (by rw [same])
  · exact .inr ⟨stop, error, halt, by rw [ends]; rfl⟩

end Told

section Written

variable [Json.Nesting] {journal : Journal} {files grown : Files} {path : Path} {place : Place}
  {text : Text} {event : Event}

theorem read_put (leads : journal.file = some path) (located : files.locate path = .ok place)
    (free : files.at? place ≠ some .directory) (level type : Option Text) (limit : Option Int) :
    journal.read (files.put place (.file (Text.bytes text))) level type limit =
      newestTold level type limit (Text.entries text) := by
  have there : (files.put place (.file (Text.bytes text))).locate path = .ok place :=
    Files.locate_of_grows (Files.grows_put_file free) located
  refine read_eq_told leads there ?_ (Files.content_at_put free) level type limit
  rw [Files.at_put_file free]
  nofun

/-- What is read before and after an event is written. -/
theorem read_recorded (leads : journal.file = some path) (located : files.locate path = .ok place)
    (stands : files.contentAt place = Text.bytes text)
    (recorded : journal.record files event = .ok grown) :
    files.at? place ≠ some .directory ∧ ∃ line, event.line? = some line ∧
      (∀ level type limit, journal.read files level type limit =
        newestTold level type limit (Text.entries text)) ∧
      ∀ level type limit, journal.read grown level type limit =
        newestTold level type limit (Text.entries (text ++ line)) := by
  rcases Workspace.record_ok_cases recorded with
    ⟨silent, _⟩ | ⟨file, line, spot, leadsTo, written, found, free, rfl⟩
  · rw [leads] at silent
    cases silent
  · obtain rfl := Option.some.inj (leads.symm.trans leadsTo)
    obtain rfl := Except.ok.inj (located.symm.trans found)
    refine ⟨free, line, written, read_eq_told leads located free stands, ?_⟩
    intro level type limit
    have grows : Text.bytes text ++ Text.bytes line = Text.bytes (text ++ line) := by
      simp only [Text.bytes, List.flatMap_append]
    rw [stands, grows]
    exact read_put leads located free level type limit

/-- An event behind a line end is told before all that was told. -/
theorem newest_told_behind_line_end {entry : Text} {fields : Json.Fields} (isEntry : IsEntry entry)
    (parsed : Json.ofText entry = .ok (.object fields)) (tells : event.Tells fields)
    (ends : Text.EndsLine text) (level type : Option Text) (limit : Nat) :
    newestTold level type (some (limit + 1 : Nat)) (Text.entries (text ++ (entry ++ ['\n']))) =
      if fits level type event then
        (newestTold level type (some limit) (Text.entries text)).map (·.map (.object fields :: ·))
      else newestTold level type (some (limit + 1 : Nat)) (Text.entries text) := by
  have same : isWantedObject level type (.object fields) = fits level type event := by
    rw [isWantedObject, fits, passes_of_text tells.level level, passes_of_text tells.type type]
  rw [← List.append_assoc, entries_behind_line_end isEntry ends, newest_told_concat_object parsed,
    same]

/-- An event behind an open line is not told, and neither is the line. -/
theorem newest_told_behind_open_line {line : Text} (formed : WellFormed (.object (kept event).context))
    (short : ShortVersion event) (written : event.line? = some line)
    (openLine : ¬Text.EndsLine text) (level type : Option Text) (limit : Option Int) :
    newestTold level type limit (Text.entries (text ++ line)) =
        newestTold level type limit (Text.entries (Text.finished text)) ∨
      ∃ stop error, haltOf? stop = some error ∧
        newestTold level type limit (Text.entries (text ++ line)) = .error error := by
  have eventFormed : WellFormed (.object (kept event).fields) := formed_fields formed short
  rw [(line_eq written).1, ← List.append_assoc, entries_behind (is_entry_object eventFormed)]
  apply newest_told_concat_unread
  cases front : (Text.unfinished text).dropWhile Text.isBlank with
  | nil => exact absurd (List.dropWhile_eq_nil_iff.mp front) openLine
  | cons c rest =>
      have marked := List.head?_dropWhile_not Text.isBlank (Text.unfinished text)
      rw [front] at marked
      have mark : Json.isSpace c = false :=
        Bool.eq_false_iff.mpr fun space => by simp [Json.is_blank_of_is_space space] at marked
      exact Json.object_behind_unread eventFormed (by simp [Event.fields])
        (Event.keys_stand_bare (kept event)) mark rest

theorem length_of_told {lines : List Text} {limit : Nat} {values : List Json}
    (tells : newestTold none none (some limit) lines = .ok (some values)) :
    values.length = min limit (lines.filterMap valueOf?).length := by
  have unset : (isFilter none || isFilter none) = false := rfl
  have readable := (stop_eq_none_iff.mp (newest_told_ok tells)).1
  rw [unfiltered_tells unset readable] at tells
  obtain rfl := Option.some.inj (Except.ok.inj tells)
  rw [List.length_take, List.length_reverse]

/-- An event that is written behind any content is told before all that was told, if the content
ends its last line and reading does not end at one of the lines before. If a line is left open, the
file is read as if neither the line nor the event were there, unless the reading ends at a line. -/
theorem written_event_is_told (leads : journal.file = some path)
    (located : files.locate path = .ok place) (stands : files.contentAt place = Text.bytes text)
    (formed : WellFormed (.object (kept event).context)) (short : ShortVersion event)
    (recorded : journal.record files event = .ok grown) :
    ∃ value, Records (kept event) value ∧
      ((∀ limit : Nat, ∃ values,
          journal.read files none none (some limit) = .ok (some values) ∧
          journal.read grown none none (some (limit + 1 : Nat)) = .ok (some (value :: values))) ↔
        Text.EndsLine text ∧ ∀ line ∈ Text.entries text, haltOf? line = none) ∧
      (Text.EndsLine text → ∀ (level type : Option Text) (limit : Nat),
        journal.read grown level type (some (limit + 1 : Nat)) =
          if fits level type event then
            (journal.read files level type (some limit)).map (·.map (value :: ·))
          else journal.read files level type (some (limit + 1 : Nat))) ∧
      (¬Text.EndsLine text → ∀ level type limit,
        journal.read grown level type limit = journal.read
            (files.put place (.file (Text.bytes (Text.finished text)))) level type limit ∨
          ∃ stop error, haltOf? stop = some error ∧
            journal.read grown level type limit = .error error) := by
  obtain ⟨free, line, written, before, after⟩ := read_recorded leads located stands recorded
  obtain ⟨entry, fields, rfl, isEntry, parsed, tells⟩ := line_tells formed short written
  have behindEnd (ends : Text.EndsLine text) (level type : Option Text) (limit : Nat) :
      journal.read grown level type (some (limit + 1 : Nat)) =
        if fits level type event then
          (journal.read files level type (some limit)).map (·.map (.object fields :: ·))
        else journal.read files level type (some (limit + 1 : Nat)) := by
    rw [after, before, before]
    exact newest_told_behind_line_end isEntry parsed tells ends level type limit
  have behindOpen (openLine : ¬Text.EndsLine text) (level type : Option Text) (limit : Option Int) :
      journal.read grown level type limit = journal.read
          (files.put place (.file (Text.bytes (Text.finished text)))) level type limit ∨
        ∃ stop error, haltOf? stop = some error ∧
          journal.read grown level type limit = .error error := by
    rw [after, read_put leads located free]
    exact newest_told_behind_open_line formed short written openLine level type limit
  refine ⟨.object fields, ⟨fields, rfl, tells⟩, ⟨?_, ?_⟩, behindEnd, behindOpen⟩
  · intro told
    have readable : ∀ line ∈ Text.entries text, haltOf? line = none := by
      obtain ⟨values, read, _⟩ := told 0
      rw [before] at read
      exact (stop_eq_none_iff.mp (newest_told_ok read)).1
    refine ⟨?_, readable⟩
    by_contra openLine
    -- the limit is the number of all values that the file tells before the event is written
    obtain ⟨values, all, more⟩ := told ((Text.entries text).filterMap valueOf?).length
    rcases behindOpen openLine none none _ with same | ⟨_, _, _, ends⟩
    · rw [before] at all
      rw [same, read_put leads located free] at more
      have sizes := length_of_told all
      have finished := length_of_told more
      rw [Text.entries_eq text, List.filterMap_append, List.length_append] at sizes finished
      rw [List.length_cons] at finished
      omega
    · exact absurd (more.symm.trans ends) nofun
  · rintro ⟨ends, readable⟩ limit
    have unset : (isFilter none || isFilter none) = false := rfl
    have read := (before none none (some limit)).trans (unfiltered_tells unset readable limit)
    refine ⟨_, read, ?_⟩
    rw [behindEnd ends, read]
    rfl

end Written

/-- An event with a path in its context. -/
def notice : Event :=
  let path : Json.Fields := [("path".toList, .string "a.csv".toList)]
  ⟨⟨.info, .fileRead, "read".toList, path, none⟩, 1, "0".toList⟩

theorem notice_formed : WellFormed (.object (kept notice).context) ∧ ShortVersion notice := by
  have one : (Text.ofNat 1).length ≤ Text.integerLimit := by decide
  exact ⟨⟨by decide, ⟨_, rfl⟩, ⟨_, rfl⟩, trivial⟩, one⟩

/-- An array, an object, and blanks behind the last line end. -/
def endedText : Text := "[1]\r\n\x7b\"b\": 2\x7d\u2028 \t".toList

def endedFiles : Files := ⟨[([fileName], .file (Text.bytes endedText))]⟩

theorem notice_is_told_behind_line_end :
    reader.file = some ⟨[], [fileName]⟩ ∧
    endedFiles.locate ⟨[], [fileName]⟩ = .ok [fileName] ∧
    endedFiles.contentAt [fileName] = Text.bytes endedText ∧
    Text.EndsLine endedText ∧
    (∃ grown value, reader.record endedFiles notice = .ok grown ∧ Records (kept notice) value ∧
      reader.read grown none none (some (1 : Nat)) = .ok (some [value]) ∧
      reader.read grown none none (some (3 : Nat)) =
        .ok (some [value, .object [("b".toList, .integer 2)], .array [.integer 1]])) ∧
    damagedFiles.locate ⟨[], [fileName]⟩ = .ok [fileName] ∧
    damagedFiles.contentAt [fileName] = Text.bytes damagedText ∧
    ¬Text.EndsLine damagedText ∧
    ∃ grown, reader.record damagedFiles notice = .ok grown ∧
      (reader.read grown none none (some 1) = reader.read (damagedFiles.put [fileName]
          (.file (Text.bytes (Text.finished damagedText)))) none none (some 1) ∨
        ∃ stop error, haltOf? stop = some error ∧
          reader.read grown none none (some 1) = .error error) := by
  obtain ⟨formed, short⟩ := notice_formed
  have leads : reader.file = some ⟨[], [fileName]⟩ := rfl
  have blanks : Text.unfinished endedText = [' ', '\t'] := rfl
  have torn : Text.unfinished damagedText = ['\x7b', '\x22', 'n'] := rfl
  have ends : Text.EndsLine endedText := by
    rw [Text.EndsLine, blanks, List.forall_mem_cons, List.forall_mem_singleton]
    exact ⟨rfl, rfl⟩
  have openLine : ¬Text.EndsLine damagedText := by
    rw [Text.EndsLine, torn, List.forall_mem_cons]
    exact fun all => absurd all.1 (by decide)
  have located : endedFiles.locate ⟨[], [fileName]⟩ = .ok [fileName] := rfl
  have stands : endedFiles.contentAt [fileName] = Text.bytes endedText := rfl
  have found : damagedFiles.locate ⟨[], [fileName]⟩ = .ok [fileName] := rfl
  have holds : damagedFiles.contentAt [fileName] = Text.bytes damagedText := rfl
  have recorded : ∃ grown, reader.record endedFiles notice = .ok grown := ⟨_, rfl⟩
  have damaged : ∃ grown, reader.record damagedFiles notice = .ok grown := ⟨_, rfl⟩
  obtain ⟨grown, recorded⟩ := recorded
  obtain ⟨other, damaged⟩ := damaged
  obtain ⟨value, records, _, told, _⟩ :=
    written_event_is_told leads located stands formed short recorded
  obtain ⟨_, _, _, _, cut⟩ := written_event_is_told leads found holds formed short damaged
  exact ⟨leads, located, stands, ends, ⟨grown, value, recorded, records, told ends none none 0,
    told ends none none 2⟩, found, holds, openLine, other, damaged, cut openLine none none (some 1)⟩

/-- Two objects of which the second has no line end behind it. -/
def openText : Text := "\x7b\"a\": 1\x7d\n\x7b\"b\": 2\x7d".toList

def openFiles : Files := ⟨[([fileName], .file (Text.bytes openText))]⟩

/-- What was told last is not told any more once an event is written behind it, and neither is the
event. -/
theorem last_line_is_lost :
    ∃ grown, reader.record openFiles notice = .ok grown ∧
      reader.read openFiles none none (some 200) = .ok (some
        [.object [("b".toList, .integer 2)], .object [("a".toList, .integer 1)]]) ∧
      reader.read grown none none (some 1) = .ok (some [.object [("a".toList, .integer 1)]]) ∧
      reader.read grown none none (some 200) =
        .ok (some [.object [("a".toList, .integer 1)]]) := by
  have recorded : ∃ grown, reader.record openFiles notice = .ok grown := ⟨_, rfl⟩
  obtain ⟨grown, recorded⟩ := recorded
  obtain ⟨formed, short⟩ := notice_formed
  have leads : reader.file = some ⟨[], [fileName]⟩ := rfl
  have located : openFiles.locate ⟨[], [fileName]⟩ = .ok [fileName] := rfl
  have stands : openFiles.contentAt [fileName] = Text.bytes openText := rfl
  obtain ⟨_, line, written, before, after⟩ := read_recorded leads located stands recorded
  have isEntry := is_entry_object (formed_fields formed short)
  obtain ⟨inner, braces⟩ := Json.write_object (kept notice).fields
  have lines : Text.entries (openText ++ line) =
      ["\x7b\"a\": 1\x7d".toList, "\x7b\"b\": 2\x7d\x7b".toList ++ (inner ++ ['\x7d'])] := by
    rw [(line_eq written).1, ← List.append_assoc, entries_behind isEntry, braces]
    rfl
  refine ⟨grown, recorded, ?_, ?_, ?_⟩
  · rfl
  · rw [after, lines]
    rfl
  · rw [after, lines]
    rfl

end Journal
end PostfixSheet
