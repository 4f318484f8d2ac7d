import PostfixSheet.Journal.Log
import PostfixSheet.Proofs.Files.Tree
import PostfixSheet.Proofs.Text.Pieces
import PostfixSheet.Proofs.Text.Utf8

/-!
# What a journal tells of any file

Reading goes through the lines of a file that say something, whatever they are. A line that is no
JSON is passed over, and the filters choose among the objects. Two kinds of line are not passed over
but end the reading: a line that is nested too deep or has an integer that is too long to be read,
and, where a filter is set, a line with a value that is no object. Without a filter such a value is
told like an object.
-/

namespace PostfixSheet.Text

/-- The pieces that say something, each without the blanks around it. -/
def said (pieces : List Text) : List Text := (pieces.map strip).filter (!·.isEmpty)

theorem said_nil_cons (pieces : List Text) : said ([] :: pieces) = said pieces := rfl

theorem said_cons_congr {pieces others : List Text} (same : said pieces = said others)
    (piece : Text) : said (piece :: pieces) = said (piece :: others) := by
  rw [said, said] at same
  rw [said, said, List.map_cons, List.map_cons, List.filter_cons, List.filter_cons, same]

theorem said_append (pieces others : List Text) :
    said (pieces ++ others) = said pieces ++ said others := by
  rw [said, List.map_append, List.filter_append]
  rfl

/-- A line end of two characters cuts twice, but there is nothing between the two. -/
theorem pieces_unified (text : Text) :
    ∃ first rest others, splitWhere endsLine text = first :: rest ∧
      splitWhere endsLine (unifyLineEnds text) = first :: others ∧ said rest = said others := by
  induction text using unifyLineEnds.induct with
  | case1 => exact ⟨[], [], [], rfl, rfl, rfl⟩
  | case2 rest induction =>
      obtain ⟨first, pieces, others, cut, cutUnified, same⟩ := induction
      refine ⟨[], [] :: first :: pieces, first :: others, ?_, ?_, ?_⟩
      · rw [← cut]
        rfl
      · rw [← cutUnified, unifyLineEnds]
        rfl
      · rw [said_nil_cons]
        exact said_cons_congr same first
  | case3 c rest other induction =>
      obtain ⟨first, pieces, others, cut, cutUnified, same⟩ := induction
      have unified : unifyLineEnds (c :: rest) =
          (if c = '\r' then '\n' else c) :: unifyLineEnds rest := by
        rw [unifyLineEnds]
        exact other
      by_cases ends : endsLine c = true
      · have endsUnified : endsLine (if c = '\r' then '\n' else c) = true := by
          split
          · rfl
          · exact ends
        refine ⟨[], first :: pieces, first :: others, ?_, ?_, said_cons_congr same first⟩
        · rw [split_where_cons, if_pos ends, cut]
        · rw [unified, split_where_cons, if_pos endsUnified, cutUnified]
      · have notReturn : c ≠ '\r' := by
          rintro rfl
          exact ends rfl
        refine ⟨c :: first, pieces, others, ?_, ?_, same⟩
        · rw [split_where_cons, if_neg ends, cut]
          rfl
        · rw [unified, if_neg notReturn, split_where_cons, if_neg ends, cutUnified]
          rfl

/-- A journal has the same lines with its line ends made one kind. -/
theorem entries_unified (text : Text) : entries (unifyLineEnds text) = entries text := by
  obtain ⟨first, pieces, others, cut, cutUnified, same⟩ := pieces_unified text
  change said _ = said _
  rw [cut, cutUnified]
  exact (said_cons_congr same first).symm

end PostfixSheet.Text

namespace PostfixSheet.Journal

/-- What is wrong with a value that is no object, where a filter asks for its fields. -/
def strayOf? (value : Json) : Option ReadError :=
  if value.kind = .object then none else some (.notObject value.kind)

/-- Nothing and the empty text are no filter. -/
def isFilter : Option Text → Bool
  | none | some [] => false
  | some _ => true

/-- Whether fields pass a filter; nothing and the empty text let everything pass. -/
def passes (key : Text) (wanted : Option Text) (fields : Json.Fields) : Bool :=
  match wanted with
  | none | some [] => true
  | some wanted => holds key wanted fields

/-- Whether a value is an object that passes both filters. -/
def isWantedObject (level type : Option Text) : Json → Bool
  | .object fields =>
      passes Event.Part.level.name level fields && passes Event.Part.type.name type fields
  | _ => false

/-- Whether a value is told, if reading does not end at it. -/
def isTold (level type : Option Text) (value : Json) : Bool :=
  (strayOf? value).isSome || isWantedObject level type value

/-- A choice among values that may fail, made for one value after the other. -/
theorem filter_m_eq {Value Fault : Type} {choose : Value → Except Fault Bool}
    (chosen : Value → Bool) (faultOf? : Value → Option Fault)
    (decides : ∀ value, choose value = (faultOf? value).elim (.ok (chosen value)) .error)
    (values : List Value) :
    values.filterM choose =
      (values.findSome? faultOf?).elim (.ok (values.filter chosen)) .error := by
  have collected : ∀ done, values.filterAuxM choose done =
      (values.findSome? faultOf?).elim (.ok ((values.filter chosen).reverse ++ done)) .error := by
    induction values with
    | nil => exact fun _ => rfl
    | cons value values induction =>
        intro done
        rw [List.filterAuxM, decides, List.findSome?_cons, List.filter_cons]
        cases faultOf? value with
        | some fault => rfl
        | none =>
            have further := induction (cond (chosen value) (value :: done) done)
            refine further.trans ?_
            cases chosen value with
            | true => simp
            | false => rfl
  rw [List.filterM, collected]
  cases values.findSome? faultOf? with
  | some fault => rfl
  | none =>
      rw [List.append_nil]
      exact congrArg Except.ok (List.reverse_reverse _)

/-- What one filter lets pass. -/
def suits (key : Text) (wanted : Option Text) : Json → Bool
  | .object fields => passes key wanted fields
  | _ => true

theorem suits_unset {wanted : Option Text} (unset : isFilter wanted = false) (key : Text)
    (value : Json) : suits key wanted value = true := by
  unfold isFilter at unset
  split at unset
  · cases value <;> rfl
  · cases value <;> rfl
  · cases unset

theorem filter_suits_unset {wanted : Option Text} (unset : isFilter wanted = false) (key : Text)
    (values : List Json) : values.filter (suits key wanted) = values :=
  List.filter_eq_self.mpr fun value _ => suits_unset unset key value

/-- A filter keeps what suits it, and fails at the first value that is no object. -/
theorem select_eq (key : Text) (wanted : Option Text) (values : List Json) :
    select key wanted values = (if isFilter wanted then values.findSome? strayOf? else none).elim
      (.ok (values.filter (suits key wanted))) .error := by
  cases wanted with
  | none => exact congrArg Except.ok (filter_suits_unset rfl key values).symm
  | some wanted =>
      cases wanted with
      | nil => exact congrArg Except.ok (filter_suits_unset rfl key values).symm
      | cons c rest =>
          refine filter_m_eq (suits key (some (c :: rest))) strayOf? ?_ values
          intro value
          cases value <;> rfl

theorem find_some_filter {values : List Json} (chosen : Json → Bool)
    (objects : values.findSome? strayOf? = none) :
    (values.filter chosen).findSome? strayOf? = none := by
  rw [List.findSome?_eq_none_iff] at objects ⊢
  exact fun value member => objects value (List.mem_of_mem_filter member)

theorem suits_both (level type : Option Text) (value : Json) :
    (suits Event.Part.type.name type value && suits Event.Part.level.name level value) =
      isTold level type value := by
  cases value with
  | object fields => exact Bool.and_comm _ _
  | _ => rfl

theorem filter_told (level type : Option Text) (values : List Json) :
    values.filter (isTold level type) = (values.filter (suits Event.Part.level.name level)).filter
      (suits Event.Part.type.name type) := by
  rw [List.filter_filter]
  exact (List.filter_congr fun value _ => suits_both level type value).symm

theorem take_filter {Value : Type} {chosen : Value → Bool} {values : List Value} {n : Nat}
    (all : ∀ value ∈ values.take n, chosen value = true) :
    (values.filter chosen).take n = values.take n := by
  induction values generalizing n with
  | nil => rfl
  | cons value values induction =>
      cases n with
      | zero => rfl
      | succ n =>
          rw [List.take_succ_cons, List.forall_mem_cons] at all
          rw [List.filter_cons, if_pos all.1, List.take_succ_cons, List.take_succ_cons,
            induction all.2]

section

variable {level type : Option Text} {value : Json} {values : List Json}

theorem stray_of_wanted (wanted : isWantedObject level type value = true) :
    strayOf? value = none := by
  cases value with
  | object fields => rfl
  | _ => cases wanted

theorem wanted_eq_told (object : strayOf? value = none) :
    isWantedObject level type value = isTold level type value := by
  rw [isTold, object]
  rfl

theorem told_of_objects (objects : ∀ value ∈ values, strayOf? value = none) :
    values.filter (isTold level type) = values.filter (isWantedObject level type) :=
  List.filter_congr fun value member => (wanted_eq_told (objects value member)).symm

theorem is_told_unset (unset : (isFilter level || isFilter type) = false) (value : Json) :
    isTold level type value = true := by
  obtain ⟨noLevel, noType⟩ := Bool.or_eq_false_iff.mp unset
  rw [← suits_both, suits_unset noLevel, suits_unset noType]
  rfl

end

section Lines

variable [Json.Nesting]

/-- The value of a line that is JSON. -/
def valueOf? (line : Text) : Option Json :=
  match Json.ofText line with
  | .ok value => some value
  | .error _ => none

/-- Why reading ends at a line, if it does: an integer in it is too long, or it is nested too deep. -/
def haltOf? (line : Text) : Option ReadError :=
  match Json.ofText line with
  | .error (.integerTooLong digits) => some (.integerTooLong digits)
  | .error .tooDeep => some .tooDeep
  | _ => none

/-- Why reading some lines ends before all of them are read, if it does. -/
def stopOf? (filtered : Bool) (lines : List Text) : Option ReadError :=
  match lines.findSome? haltOf? with
  | some error => some error
  | none => if filtered then (lines.filterMap valueOf?).findSome? strayOf? else none

/-- The values that some lines tell, the oldest first. -/
def told (level type : Option Text) (lines : List Text) : Except ReadError (List Json) := do
  let values ← valuesOf lines
  let values ← select Event.Part.level.name level values
  select Event.Part.type.name type values

/-- What reading some lines tells: the newest of their values, as far as the limit allows. -/
def newestTold (level type : Option Text) (limit : Option Int) (lines : List Text) :
    Except ReadError (Option (List Json)) :=
  (told level type lines).map fun values => some (takeUpTo limit values.reverse)

theorem values_of_eq (lines : List Text) :
    valuesOf lines =
      (lines.findSome? haltOf?).elim (.ok (lines.filterMap valueOf?)) .error := by
  induction lines with
  | nil => rfl
  | cons line lines induction =>
      rw [valuesOf, List.findSome?_cons, List.filterMap_cons, haltOf?, valueOf?]
      cases Json.ofText line with
      | ok value =>
          simp only [induction]
          cases lines.findSome? haltOf? with
          | some error => rfl
          | none => rfl
      | error fault =>
          cases fault with
          | malformed => exact induction
          | integerTooLong digits => rfl
          | tooDeep => rfl

/-- What is told of some lines: all values that pass the filters, unless the reading ends before. -/
theorem told_eq (level type : Option Text) (lines : List Text) :
    told level type lines = (stopOf? (isFilter level || isFilter type) lines).elim
      (.ok ((lines.filterMap valueOf?).filter (isTold level type))) .error := by
  rw [told, values_of_eq, stopOf?]
  cases lines.findSome? haltOf? with
  | some error => rfl
  | none =>
      generalize lines.filterMap valueOf? = values
      simp only [Option.elim_none, filter_told, bind, Except.bind, select_eq]
      cases setLevel : isFilter level with
      | false =>
          rw [filter_suits_unset setLevel]
          rfl
      | true =>
          cases objects : values.findSome? strayOf? with
          | some error => rfl
          | none =>
              have further := find_some_filter (suits Event.Part.level.name level) objects
              simp only [Option.elim_none, further, ite_self]

theorem stop_eq_none_iff {filtered : Bool} {lines : List Text} :
    stopOf? filtered lines = none ↔ (∀ line ∈ lines, haltOf? line = none) ∧
      (filtered = true → ∀ value ∈ lines.filterMap valueOf?, strayOf? value = none) := by
  rw [stopOf?, ← List.findSome?_eq_none_iff, ← List.findSome?_eq_none_iff]
  cases lines.findSome? haltOf? with
  | some error => exact ⟨nofun, nofun⟩
  | none =>
      cases filtered with
      | false => exact ⟨fun _ => ⟨rfl, nofun⟩, fun _ => rfl⟩
      | true => exact ⟨fun none => ⟨rfl, fun _ => none⟩, fun none => none.2 rfl⟩

theorem told_nothing (level type : Option Text) : told level type [] = .ok [] := by
  rw [told_eq]
  cases isFilter level || isFilter type with
  | false => rfl
  | true => rfl

section Read

variable {journal : Journal} {files : Files} {path : Path} {place : Place} {text : Text}

/-- Reading a file tells its lines, the newest first. A file that is not there counts as empty. -/
theorem read_eq_told (leads : journal.file = some path) (located : files.locate path = .ok place)
    (free : files.at? place ≠ some .directory) (content : files.contentAt place = Text.bytes text)
    (level type : Option Text) (limit : Option Int) :
    journal.read files level type limit = newestTold level type limit (Text.entries text) := by
  have decoded : Text.ofBytes (files.contentAt place) = .ok text := by
    rw [content, Text.of_bytes_bytes]
  rw [read, leads]
  cases here : files.at? place with
  | none =>
      have empty : text = [] := by
        rw [Files.contentAt, here] at decoded
        exact (Except.ok.inj decoded).symm
      have silent : told level type (Text.entries []) = .ok [] := told_nothing level type
      have nothing : takeUpTo limit [] = [] := by
        unfold takeUpTo
        split
        · rfl
        · exact List.take_nil
        · exact List.take_nil
      have absent : files.isThere path = .ok false := by
        rw [Files.is_there_of_locate located, here]
        rfl
      rw [empty, newestTold, silent]
      simp only [absent]
      exact congrArg (fun values => Except.ok (some values)) nothing.symm
  | some entry =>
      cases entry with
      | directory => exact absurd here free
      | file bytes =>
          have same : files.contentAt place = bytes := by rw [Files.contentAt, here]
          have there : files.isThere path = .ok true := by
            rw [Files.is_there_of_locate located, here]
            rfl
          have loaded : files.read path = .ok bytes := Files.read_ok_iff.mpr ⟨place, located, here⟩
          rw [same] at decoded
          simp only [there, loaded, decoded, Text.entries_unified, newestTold, told]
          simp only [bind, Except.bind]
          cases valuesOf (Text.entries text) with
          | error error => rfl
          | ok values =>
              simp only
              cases select Event.Part.level.name level values with
              | error error => rfl
              | ok values =>
                simp only
                cases select Event.Part.type.name type values with
                | error error => rfl
                | ok values => rfl

end Read

/-- The objects of some lines that pass both filters, the newest first. -/
def objectsOf (level type : Option Text) (lines : List Text) : List Json :=
  ((lines.filterMap valueOf?).filter (isWantedObject level type)).reverse

section Told

variable {level type : Option Text} {lines : List Text}

theorem newest_told_ok {limit : Option Int} {result : Option (List Json)}
    (tells : newestTold level type limit lines = .ok result) :
    stopOf? (isFilter level || isFilter type) lines = none := by
  rw [newestTold, told_eq] at tells
  cases stops : stopOf? (isFilter level || isFilter type) lines with
  | none => rfl
  | some error =>
      rw [stops] at tells
      cases tells

theorem newest_told_of_goes (goes : stopOf? (isFilter level || isFilter type) lines = none)
    (limit : Nat) :
    newestTold level type (some limit) lines =
      .ok (some (((lines.filterMap valueOf?).filter (isTold level type)).reverse.take limit)) := by
  rw [newestTold, told_eq, goes]
  rfl

theorem newest_told_error_iff {limit : Option Int} {error : ReadError} :
    newestTold level type limit lines = .error error ↔
      stopOf? (isFilter level || isFilter type) lines = some error := by
  rw [newestTold, told_eq]
  cases stopOf? (isFilter level || isFilter type) lines with
  | some stop => simp [Except.map]
  | none => simp [Except.map]

/-- With a filter set, one value that is no object keeps all from being told. -/
theorem filtered_tells_objects_iff (set : (isFilter level || isFilter type) = true) (limit : Nat) :
    newestTold level type (some limit) lines = .ok (some ((objectsOf level type lines).take limit)) ↔
      (∀ line ∈ lines, haltOf? line = none) ∧
        ∀ value ∈ lines.filterMap valueOf?, strayOf? value = none := by
  constructor
  · intro tells
    obtain ⟨readable, objects⟩ := stop_eq_none_iff.mp (newest_told_ok tells)
    exact ⟨readable, objects set⟩
  · rintro ⟨readable, objects⟩
    rw [newest_told_of_goes (stop_eq_none_iff.mpr ⟨readable, fun _ => objects⟩),
      told_of_objects objects]
    rfl

/-- Without a filter the values of all kinds are told. -/
theorem unfiltered_tells (unset : (isFilter level || isFilter type) = false)
    (readable : ∀ line ∈ lines, haltOf? line = none) (limit : Nat) :
    newestTold level type (some limit) lines =
      .ok (some ((lines.filterMap valueOf?).reverse.take limit)) := by
  have goes : stopOf? (isFilter level || isFilter type) lines = none :=
    stop_eq_none_iff.mpr ⟨readable, fun set => absurd (set.symm.trans unset) nofun⟩
  have all : (lines.filterMap valueOf?).filter (isTold level type) = lines.filterMap valueOf? :=
    List.filter_eq_self.mpr fun value _ => is_told_unset unset value
  rw [newest_told_of_goes goes, all]

theorem unfiltered_tells_objects_iff (unset : (isFilter level || isFilter type) = false)
    (limit : Nat) :
    newestTold level type (some limit) lines = .ok (some ((objectsOf level type lines).take limit)) ↔
      (∀ line ∈ lines, haltOf? line = none) ∧
        ∀ value ∈ (lines.filterMap valueOf?).reverse.take limit, strayOf? value = none := by
  constructor
  · intro tells
    obtain ⟨readable, _⟩ := stop_eq_none_iff.mp (newest_told_ok tells)
    refine ⟨readable, ?_⟩
    intro value member
    rw [unfiltered_tells unset readable] at tells
    rw [Option.some.inj (Except.ok.inj tells)] at member
    have wanted := List.mem_reverse.mp (List.mem_of_mem_take member)
    exact stray_of_wanted (List.mem_filter.mp wanted).2
  · rintro ⟨readable, objects⟩
    have wanted : ∀ value ∈ (lines.filterMap valueOf?).reverse.take limit,
        isWantedObject level type value = true := by
      intro value member
      rw [wanted_eq_told (objects value member), is_told_unset unset]
    rw [unfiltered_tells unset readable, objectsOf, ← List.filter_reverse, take_filter wanted]

end Told

/-- What a file of any content tells. It is the newest objects that pass the filters exactly if no
line has an integer that is too long or is nested too deep, and no value that could be told is
anything but an object. Else the reading ends at the first such line, or it tells values of every
kind. -/
theorem any_file_is_read {journal : Journal} {files : Files} {path : Path} {place : Place}
    {text : Text} (leads : journal.file = some path) (located : files.locate path = .ok place)
    (content : files.at? place = some (.file (Text.bytes text))) (level type : Option Text)
    (limit : Nat) :
    (journal.read files level type (some limit) =
        .ok (some ((objectsOf level type (Text.entries text)).take limit)) ↔
      (∀ line ∈ Text.entries text, haltOf? line = none) ∧
        ∀ value ∈ (if isFilter level || isFilter type then (Text.entries text).filterMap valueOf?
            else ((Text.entries text).filterMap valueOf?).reverse.take limit),
          strayOf? value = none) ∧
    (∀ error, journal.read files level type (some limit) = .error error ↔
      stopOf? (isFilter level || isFilter type) (Text.entries text) = some error) ∧
    ((∀ line ∈ Text.entries text, haltOf? line = none) →
      (isFilter level || isFilter type) = false →
      journal.read files level type (some limit) =
        .ok (some (((Text.entries text).filterMap valueOf?).reverse.take limit))) := by
  have free : files.at? place ≠ some .directory := by simp [content]
  have stands : files.contentAt place = Text.bytes text := by rw [Files.contentAt, content]
  rw [read_eq_told leads located free stands]
  refine ⟨?_, fun error => newest_told_error_iff,
    fun readable unset => unfiltered_tells unset readable limit⟩
  split
  · next set => exact filtered_tells_objects_iff set limit
  · next unset => exact unfiltered_tells_objects_iff (Bool.not_eq_true _ ▸ unset) limit

end Lines

/-- Lines with and without blanks around them: an event, a word, an array, an object, and the start of
an object. -/
def damagedText : Text :=
  "\x7b\"level\": \"info\"\x7d\u2028\r\n event\n[1]\n\t\x7b\"n\": 7\x7d \n\x7b\"n".toList

def damagedFiles : Files := ⟨[([fileName], .file (Text.bytes damagedText))]⟩

def reader : Journal := ⟨some ⟨[], [fileName]⟩, none⟩

theorem damaged_file_is_read :
    reader.file = some ⟨[], [fileName]⟩ ∧ damagedFiles.locate ⟨[], [fileName]⟩ = .ok [fileName] ∧
    damagedFiles.at? [fileName] = some (.file (Text.bytes damagedText)) ∧
    reader.read damagedFiles none none (some (1 : Nat)) =
      .ok (some ((objectsOf none none (Text.entries damagedText)).take 1)) ∧
    reader.read damagedFiles none none (some (3 : Nat)) =
      .ok (some (((Text.entries damagedText).filterMap valueOf?).reverse.take 3)) ∧
    reader.read damagedFiles (some "info".toList) none (some (1 : Nat)) =
      .error (.notObject .array) := by
  have readable : ∀ line ∈ Text.entries damagedText, haltOf? line = none := by decide +kernel
  have leads : reader.file = some ⟨[], [fileName]⟩ := rfl
  have located : damagedFiles.locate ⟨[], [fileName]⟩ = .ok [fileName] := rfl
  have content : damagedFiles.at? [fileName] = some (.file (Text.bytes damagedText)) := rfl
  obtain ⟨newest, _, _⟩ := any_file_is_read leads located content none none 1
  obtain ⟨_, _, all⟩ := any_file_is_read leads located content none none 3
  obtain ⟨_, ends, _⟩ := any_file_is_read leads located content (some "info".toList) none 1
  refine ⟨leads, located, content, newest.mpr ⟨readable, ?_⟩, all readable rfl, (ends _).mpr rfl⟩
  intro value member
  have object : value ∈ [Json.object [("n".toList, .integer 7)]] := member
  rw [List.mem_singleton.mp object]
  rfl

/-- An array is told beside the objects, and it keeps a filter from telling any of them. -/
theorem stray_line_is_not_skipped :
    objectsOf none none (Text.entries damagedText) =
      [.object [("n".toList, .integer 7)], .object [("level".toList, .string "info".toList)]] ∧
    reader.read damagedFiles none none (some 200) =
      .ok (some [.object [("n".toList, .integer 7)], .array [.integer 1],
        .object [("level".toList, .string "info".toList)]]) ∧
    objectsOf (some "info".toList) none (Text.entries damagedText) =
      [.object [("level".toList, .string "info".toList)]] ∧
    reader.read damagedFiles (some "info".toList) none (some 200) =
      .error (.notObject .array) := ⟨rfl, rfl, rfl, rfl⟩

end PostfixSheet.Journal
