import PostfixSheet.Settings.File
import PostfixSheet.Proofs.Json.Fields
import PostfixSheet.Proofs.Sheet.Session

/-!
# Settings that are loaded can be used

The fields of a settings file are put over the standard ones. If each of the four fields that are
checked is what it has to be, the settings are loaded, and a sheet of any text can be read and worked
out with them: the separator and the ceiling that were let through are taken again where they are
used. Otherwise the first of the four that is not what it has to be is named.
-/

namespace PostfixSheet

theorem bind_ok_iff {Fault Value Result : Type} {first : Except Fault Value}
    {next : Value → Except Fault Result} {result : Result} :
    first >>= next = .ok result ↔ ∃ value, first = .ok value ∧ next value = .ok result := by
  cases first with
  | error fault => exact ⟨nofun, fun ⟨_, same, _⟩ => nomatch same⟩
  | ok value =>
      constructor
      · exact fun further => ⟨value, rfl, further⟩
      · intro ⟨other, same, further⟩
        cases same
        exact further

theorem bind_error_iff {Fault Value Result : Type} {first : Except Fault Value}
    {next : Value → Except Fault Result} {fault : Fault} :
    first >>= next = .error fault ↔
      first = .error fault ∨ ∃ value, first = .ok value ∧ next value = .error fault := by
  cases first with
  | error other =>
      constructor
      · rintro ⟨⟩
        exact .inl rfl
      · rintro (⟨⟨⟩⟩ | ⟨_, ⟨⟩, _⟩)
        rfl
  | ok value =>
      constructor
      · exact fun further => .inr ⟨value, rfl, further⟩
      · intro failed
        rcases failed with same | ⟨other, same, further⟩
        · cases same
        · cases same
          exact further

theorem map_error_ok_iff {Fault Other Value : Type} {first : Except Fault Value}
    {change : Fault → Other} {value : Value} :
    first.mapError change = .ok value ↔ first = .ok value := by
  cases first with
  | error fault => exact ⟨nofun, nofun⟩
  | ok found =>
      change Except.ok found = .ok value ↔ _
      rw [Except.ok.injEq, Except.ok.injEq]

namespace Settings

/-! What the checked fields have to be -/

/-- What the value of a checked field has to be. -/
def Checked.Accepts (value : Json) : Checked → Prop
  | .separator | .errorToken => ∃ signs, value = .string signs ∧ signs ≠ []
  | .ceiling => ∃ n : Int, value = .integer n ∧ 0 < n
  | .journalDirectory => value = .null ∨ ∃ signs, value = .string signs

/-- The order in which the fields are checked. -/
def Checked.inOrder : List Checked := [.separator, .ceiling, .errorToken, .journalDirectory]

def journalDirectoryValue : Option Signs → Json
  | none => .null
  | some signs => .string signs

variable {value : Json} {fields given : Json.Fields} {settings : Settings} {field : Checked}

theorem filled_eq_some_iff {filled : Filled} :
    filled? value = some filled ↔ value = .string filled.signs := by
  cases value with
  | string signs =>
      rw [filled?, Json.string.injEq]
      split
      · constructor
        · rintro ⟨⟩
          rfl
        · rintro rfl
          rfl
      · next empty =>
        constructor
        · exact nofun
        · rintro rfl
          exact absurd filled.ne_nil empty
  | null | bool _ | integer _ | float _ | array _ | object _ | foreign _ _ => exact ⟨nofun, nofun⟩

theorem ceiling_eq_some_iff {ceiling : Ceiling} :
    ceiling? value = some ceiling ↔ value = .integer ceiling.cells := by
  cases value with
  | integer n =>
      rw [ceiling?, Ceiling.ofInt, Json.integer.injEq]
      split
      · next positive =>
        constructor
        · rintro ⟨⟩
          exact (Int.toNat_of_nonneg positive.le).symm
        · rintro rfl
          rfl
      · next bad =>
        constructor
        · exact nofun
        · rintro rfl
          exact absurd (Int.natCast_pos.mpr ceiling.pos) bad
  | null | bool _ | float _ | string _ | array _ | object _ | foreign _ _ => exact ⟨nofun, nofun⟩

theorem journal_directory_eq_some_iff {directory : Option Signs} :
    journalDirectory? value = some directory ↔ value = journalDirectoryValue directory := by
  cases value with
  | null | string _ => cases directory <;> simp [journalDirectory?, journalDirectoryValue]
  | bool _ | integer _ | float _ | array _ | object _ | foreign _ _ =>
      cases directory <;> exact ⟨nofun, nofun⟩

theorem check_ok_iff {Value : Type} {read? : Json → Option Value} {found : Value} :
    check fields field read? = .ok found ↔ read? (valueOf fields field.name) = some found := by
  rw [check]
  cases read? (valueOf fields field.name) <;> simp

theorem check_error_iff {Value : Type} {read? : Json → Option Value} {other : Checked} :
    check fields field read? = .error other ↔
      other = field ∧ ∀ found, read? (valueOf fields field.name) ≠ some found := by
  rw [check]
  cases read? (valueOf fields field.name) <;> simp [eq_comm]

/-- Settings are what the checked fields say, each read from its own value. -/
structure IsRead (fields : Json.Fields) (settings : Settings) : Prop where
  kept : settings.fields = fields
  separator : valueOf fields Checked.separator.name = .string settings.separator.signs
  ceiling : valueOf fields Checked.ceiling.name = .integer settings.ceiling.cells
  errorToken : valueOf fields Checked.errorToken.name = .string settings.errorToken.signs
  journalDirectory : valueOf fields Checked.journalDirectory.name =
    journalDirectoryValue settings.journalDirectory

theorem of_fields_ok (loaded : ofFields fields = .ok settings) : IsRead fields settings := by
  simp only [ofFields, bind_ok_iff, check_ok_iff] at loaded
  obtain ⟨separator, isSeparator, ceiling, isCeiling, token, isToken, directory, isDirectory,
    same⟩ := loaded
  cases same
  exact ⟨rfl, filled_eq_some_iff.mp isSeparator, ceiling_eq_some_iff.mp isCeiling,
    filled_eq_some_iff.mp isToken, journal_directory_eq_some_iff.mp isDirectory⟩

theorem IsRead.accepts (read : IsRead fields settings) (field : Checked) :
    field.Accepts (valueOf fields field.name) := by
  cases field with
  | separator => exact ⟨_, read.separator, settings.separator.ne_nil⟩
  | ceiling => exact ⟨_, read.ceiling, Int.natCast_pos.mpr settings.ceiling.pos⟩
  | errorToken => exact ⟨_, read.errorToken, settings.errorToken.ne_nil⟩
  | journalDirectory =>
      rw [read.journalDirectory]
      cases settings.journalDirectory with
      | none => exact .inl rfl
      | some signs => exact .inr ⟨signs, rfl⟩

theorem accepts_filled_iff :
    (∃ signs, value = .string signs ∧ signs ≠ []) ↔ ∃ filled, filled? value = some filled := by
  simp only [filled_eq_some_iff]
  constructor
  · rintro ⟨signs, same, given⟩
    exact ⟨⟨signs, given⟩, same⟩
  · rintro ⟨filled, same⟩
    exact ⟨filled.signs, same, filled.ne_nil⟩

theorem accepts_separator_iff :
    Checked.separator.Accepts value ↔ ∃ separator, filled? value = some separator :=
  accepts_filled_iff

theorem accepts_error_token_iff :
    Checked.errorToken.Accepts value ↔ ∃ token, filled? value = some token := accepts_filled_iff

theorem accepts_ceiling_iff :
    Checked.ceiling.Accepts value ↔ ∃ ceiling, ceiling? value = some ceiling := by
  simp only [ceiling_eq_some_iff]
  constructor
  · rintro ⟨n, rfl, positive⟩
    refine ⟨⟨n.toNat, Int.pos_iff_toNat_pos.mp positive⟩, ?_⟩
    rw [Int.toNat_of_nonneg positive.le]
  · rintro ⟨ceiling, same⟩
    exact ⟨_, same, Int.natCast_pos.mpr ceiling.pos⟩

theorem accepts_journal_directory_iff :
    Checked.journalDirectory.Accepts value ↔
      ∃ directory, journalDirectory? value = some directory := by
  simp only [journal_directory_eq_some_iff]
  constructor
  · rintro (rfl | ⟨signs, rfl⟩)
    · exact ⟨none, rfl⟩
    · exact ⟨some signs, rfl⟩
  · rintro ⟨_ | signs, rfl⟩
    · exact .inl rfl
    · exact .inr ⟨signs, rfl⟩

section

variable {Value : Type} {read? : Json → Option Value} {found : Value} {other : Checked}

theorem accepts_of_check
    (exactly : ∀ value, field.Accepts value ↔ ∃ found, read? value = some found)
    (passed : check fields field read? = .ok found) : field.Accepts (valueOf fields field.name) :=
  (exactly _).mpr ⟨found, check_ok_iff.mp passed⟩

theorem refused_of_check
    (exactly : ∀ value, field.Accepts value ↔ ∃ found, read? value = some found)
    (failed : check fields field read? = .error other) :
    other = field ∧ ¬field.Accepts (valueOf fields field.name) := by
  obtain ⟨same, bad⟩ := check_error_iff.mp failed
  refine ⟨same, ?_⟩
  rw [exactly]
  exact fun ⟨found, read⟩ => bad found read

end

/-- The field that is named is not what it has to be, and those that are checked before it are. -/
structure IsFirst (fields : Json.Fields) (field : Checked) : Prop where
  before : ∃ earlier later, Checked.inOrder = earlier ++ field :: later ∧
    ∀ other ∈ earlier, other.Accepts (valueOf fields other.name)
  refused : ¬field.Accepts (valueOf fields field.name)

theorem of_fields_error (refused : ofFields fields = .error field) : IsFirst fields field := by
  simp only [ofFields, bind_error_iff] at refused
  rcases refused with failed | ⟨_, separator, failed | ⟨_, ceiling, failed | ⟨_, token, failed |
    ⟨_, _, ⟨⟩⟩⟩⟩⟩
  · obtain ⟨rfl, bad⟩ := refused_of_check (fun _ => accepts_separator_iff) failed
    exact ⟨⟨[], _, rfl, by simp⟩, bad⟩
  · have separator := accepts_of_check (fun _ => accepts_separator_iff) separator
    obtain ⟨rfl, bad⟩ := refused_of_check (fun _ => accepts_ceiling_iff) failed
    exact ⟨⟨[.separator], _, rfl, by simpa using separator⟩, bad⟩
  · have separator := accepts_of_check (fun _ => accepts_separator_iff) separator
    have ceiling := accepts_of_check (fun _ => accepts_ceiling_iff) ceiling
    obtain ⟨rfl, bad⟩ := refused_of_check (fun _ => accepts_error_token_iff) failed
    exact ⟨⟨[.separator, .ceiling], _, rfl, by simp [separator, ceiling]⟩, bad⟩
  · have separator := accepts_of_check (fun _ => accepts_separator_iff) separator
    have ceiling := accepts_of_check (fun _ => accepts_ceiling_iff) ceiling
    have token := accepts_of_check (fun _ => accepts_error_token_iff) token
    obtain ⟨rfl, bad⟩ := refused_of_check (fun _ => accepts_journal_directory_iff) failed
    exact ⟨⟨[.separator, .ceiling, .errorToken], _, rfl, by simp [separator, ceiling, token]⟩, bad⟩

end Settings

/-! The fields that a file gives -/

namespace Settings

section

variable [Yaml.Reader]
variable {files : Files} {asked : Option Path} {given fields : Json.Fields} {settings : Settings}

/-- The fields that are put over the standard ones: those of the file that is to be read, and none
if there is no such file. -/
inductive Gives (files : Files) (asked : Option Path) : Json.Fields → Prop
  | none (nowhere : fileToRead files asked = .ok none) : Gives files asked []
  | file {path : Path} {content : Json} {given : Json.Fields}
      (found : fileToRead files asked = .ok (some path))
      (read : document files path = .ok content) (fields : fieldsOf path content = .ok given) :
      Gives files asked given

theorem Gives.nodup (gives : Gives files asked given) : (given.map Prod.fst).Nodup := by
  cases gives with
  | none => exact .nil
  | @file path content _ found read fields =>
      cases content with
      | object members =>
          cases fields
          simp only [document, bind_ok_iff, map_error_ok_iff] at read
          obtain ⟨_, _, _, _, read⟩ := read
          exact Yaml.Reader.distinct read
      | null | bool _ | integer _ | float _ | string _ | array _ | foreign _ _ =>
          rw [fieldsOf] at fields
          split at fields
          · cases fields
          · cases fields
            exact .nil
          · exact nofun

theorem Gives.load_eq (gives : Gives files asked given) :
    load files asked = (ofGiven given).mapError .invalid := by
  cases gives with
  | none nowhere =>
      rw [load, nowhere]
      rfl
  | file found read fields =>
      rw [load, found]
      change ((document files _).bind (fieldsOf _) >>= _) = _
      rw [read]
      change (fieldsOf _ _ >>= _) = _
      rw [fields]
      rfl

/-- Settings that are loaded come from fields that are given. -/
theorem Gives.of_load_ok (loaded : load files asked = .ok settings) :
    ∃ given, Gives files asked given ∧ ofGiven given = .ok settings := by
  simp only [load, bind_ok_iff] at loaded
  obtain ⟨place, found, gave⟩ := loaded
  cases place with
  | none =>
      obtain ⟨given, nothing, checked⟩ := bind_ok_iff.mp gave
      cases nothing
      exact ⟨[], .none found, map_error_ok_iff.mp checked⟩
  | some path =>
      obtain ⟨given, gave, checked⟩ := bind_ok_iff.mp gave
      obtain ⟨content, read, fields⟩ := bind_ok_iff.mp gave
      exact ⟨given, .file found read fields, map_error_ok_iff.mp checked⟩

end

theorem nodup_standard : (standardFields.map Prod.fst).Nodup := by decide

/-- The value of a name when some fields are put over the standard ones. -/
def valueOver (given : Json.Fields) (name : Text) : Json :=
  ((given.get? name).or (standardFields.get? name)).getD .null

theorem get_merged (distinct : (given.map Prod.fst).Nodup) (name : Signs) :
    (standardFields.merge given).get? name = (given.get? name).or (standardFields.get? name) :=
  Json.get_merge distinct

theorem value_of_merged (distinct : (given.map Prod.fst).Nodup) (name : Text) :
    valueOf (standardFields.merge given) name = valueOver given name := by
  rw [valueOf, get_merged distinct, valueOver]

/-- A checked field is never missing, since it is among the standard ones. -/
theorem get_merged_checked (distinct : (given.map Prod.fst).Nodup) (field : Checked) :
    (standardFields.merge given).get? field.name =
      some (valueOf (standardFields.merge given) field.name) := by
  have standard : ∃ value, standardFields.get? field.name = some value := by
    cases field <;> exact ⟨_, rfl⟩
  obtain ⟨value, standard⟩ := standard
  rw [valueOf, get_merged distinct, standard]
  cases given.get? field.name <;> rfl

/-- Settings under whose fields the values stand that are used, and these can be used: a sheet of any
text is read with the separator, the ceiling is taken, and working out the sheet comes to an end,
whatever becomes of the reports. -/
structure Usable [CallStack] (settings : Settings) : Prop where
  separator : settings.fields.get? Checked.separator.name = some (.string settings.separator.signs)
  ceiling : settings.fields.get? Checked.ceiling.name = some (.integer settings.ceiling.cells)
  errorToken : settings.fields.get? Checked.errorToken.name =
    some (.string settings.errorToken.signs)
  journalDirectory : settings.fields.get? Checked.journalDirectory.name =
    some (journalDirectoryValue settings.journalDirectory)
  enters : Ceiling.ofInt settings.ceiling.cells = .ok settings.ceiling
  works : ∀ text w, ∃ grid workspace sheet output,
    Grid.ofSource text settings.separator.signs = .ok grid ∧
    (∀ outcome left,
      (Session.start w grid settings.ceiling settings.errorToken.signs.shown).Passes outcome left ↔
        outcome = (workspace, sheet, output) ∧ left = .none) ∧
    Sheet.IsSnapshot (settings.sheet grid) sheet output

theorem of_source_ok (text : Text) {separator : Signs} (given : separator ≠ []) :
    ∃ grid, Grid.ofSource text separator = .ok grid := by
  rw [Grid.ofSource]
  cases known : separator.text? with
  | none => exact ⟨_, rfl⟩
  | some separator =>
      rw [Signs.text_eq_some_iff.mp known, ne_eq, Signs.signs_eq_nil] at given
      have separates : Separator.ofText? separator = some ⟨separator, given⟩ := dif_pos given
      exact ⟨⟨(Grid.sourceLines text).map (Text.fields ⟨separator, given⟩), ⟨separator, given⟩⟩,
        by simp only [Grid.ofText, separates]⟩

section

variable [CallStack]

theorem IsRead.usable (distinct : (given.map Prod.fst).Nodup)
    (read : IsRead (standardFields.merge given) settings) : settings.Usable := by
  have stands : ∀ field : Checked, settings.fields.get? field.name =
      some (valueOf (standardFields.merge given) field.name) := by
    rw [read.kept]
    exact get_merged_checked distinct
  refine ⟨?_, ?_, ?_, ?_, ?_, ?_⟩
  · rw [stands, read.separator]
  · rw [stands, read.ceiling]
  · rw [stands, read.errorToken]
  · rw [stands, read.journalDirectory]
  · rw [Ceiling.ofInt, dif_pos (Int.natCast_pos.mpr settings.ceiling.pos)]
    rfl
  · intro text w
    obtain ⟨grid, made⟩ := of_source_ok text settings.separator.ne_nil
    exact ⟨grid, _, _, _, made, fun outcome left => Session.passes_iff rfl,
      Sheet.pass_is_snapshot _⟩

/-- How loading ends when some fields are given. -/
structure LoadsAs (given : Json.Fields) (outcome : Except FileFault Settings) : Prop where
  loaded_iff : (∃ settings, outcome = .ok settings) ↔
    ∀ field : Checked, field.Accepts (valueOver given field.name)
  loaded : ∀ settings, outcome = .ok settings →
    (settings.fields.map Prod.fst).Nodup ∧
    (∀ name value, (name, value) ∈ given → settings.fields.get? name = some value) ∧
    (∀ name, name ∉ given.map Prod.fst →
      settings.fields.get? name = standardFields.get? name) ∧
    settings.Usable
  /-- The fault names the first field in order that is not what it has to be. -/
  refused : ∀ fault, outcome = .error fault →
    ∃ earlier field later, Checked.inOrder = earlier ++ field :: later ∧
      (∀ other ∈ earlier, other.Accepts (valueOver given other.name)) ∧
      ¬field.Accepts (valueOver given field.name) ∧
      fault = .invalid field ∧ fault.content? = some (field.name, field.rule)

theorem of_given_loads (distinct : (given.map Prod.fst).Nodup) :
    LoadsAs given ((ofGiven given).mapError .invalid) := by
  have value : ∀ name, valueOf (standardFields.merge given) name = valueOver given name :=
    value_of_merged distinct
  cases ended : ofFields (standardFields.merge given) with
  | ok settings =>
      have read : IsRead (standardFields.merge given) settings := of_fields_ok ended
      rw [ofGiven, ended]
      refine ⟨?_, ?_, nofun⟩
      · constructor
        · intro _ field
          rw [← value]
          exact read.accepts field
        · exact fun _ => ⟨settings, rfl⟩
      · rintro _ ⟨⟩
        rw [read.kept]
        refine ⟨Json.nodup_merge nodup_standard given, ?_, ?_, read.usable distinct⟩
        · intro name value member
          rw [get_merged distinct, Json.get_of_mem distinct member, Option.some_or]
        · intro name absent
          rw [get_merged distinct, Json.get_eq_none absent, Option.none_or]
  | error field =>
      obtain ⟨⟨earlier, later, order, accepted⟩, refused⟩ := of_fields_error ended
      simp only [value] at accepted refused
      rw [ofGiven, ended]
      refine ⟨?_, nofun, ?_⟩
      · constructor
        · exact fun ⟨_, loaded⟩ => nomatch loaded
        · exact fun accepts => absurd (accepts field) refused
      · rintro _ ⟨⟩
        exact ⟨earlier, field, later, order, accepted, refused, rfl, rfl⟩

/-- Whatever fields a file gives, and whatever fields are put over the standard ones at all, settings
are loaded that can be used, or the first field that is not what it has to be is named. -/
theorem loaded_settings_are_usable [Yaml.Reader] :
    (∀ files asked given, Gives files asked given → LoadsAs given (load files asked)) ∧
    (∀ files asked settings, load files asked = .ok settings →
      ∃ given, Gives files asked given ∧ settings.Usable) ∧
    ∀ given : Json.Fields, (given.map Prod.fst).Nodup →
      LoadsAs given ((ofGiven given).mapError .invalid) := by
  refine ⟨?_, ?_, fun given distinct => of_given_loads distinct⟩
  · intro files asked given gives
    rw [gives.load_eq]
    exact of_given_loads gives.nodup
  · intro files asked settings loaded
    obtain ⟨given, gives, checked⟩ := Gives.of_load_ok loaded
    exact ⟨given, gives, (of_fields_ok checked).usable gives.nodup⟩

end

/-- A separator of two characters, a ceiling beyond all bounds and a field that is not known. -/
def broadFile : Files :=
  ⟨[(["conf.yaml".toList], .file
    (Text.bytes "separator: '::'\nmax_depth: 0x10000000000000000\nextra: [1]\n".toList))]⟩

/-- A text is missing, and a truth value is no number. -/
def faultyFields : Json.Fields :=
  [(Checked.errorToken.name, .string []), (Checked.ceiling.name, .bool true)]

/-- The ceiling is named, though the text that is missing was given first. -/
theorem broad_settings_are_usable :
    let asked := some (Path.ofText "conf.yaml".toList)
    (∃ given settings, Gives broadFile asked given ∧ load broadFile asked = .ok settings ∧
      settings.separator.signs = "::".toList ∧ settings.ceiling.cells = 2 ^ 64 ∧
      Text.signs "extra".toList ∈ settings.fields.map Prod.fst ∧ settings.Usable ∧
      ∀ name value, (name, value) ∈ given → settings.fields.get? name = some value) ∧
    ofGiven faultyFields = .error .ceiling ∧
    Checked.separator.Accepts (valueOver faultyFields Checked.separator.name) ∧
    ¬Checked.ceiling.Accepts (valueOver faultyFields Checked.ceiling.name) := by
  intro asked
  obtain ⟨byFile, complete, byFields⟩ := loaded_settings_are_usable
  constructor
  · have seen : (load broadFile asked).toOption.map (fun settings =>
        (settings.separator.signs, settings.ceiling.cells, settings.fields.map Prod.fst)) =
        some (Text.signs "::".toList, 2 ^ 64,
          standardFields.map Prod.fst ++ [Text.signs "extra".toList]) := by
      decide +kernel
    cases loaded : load broadFile asked with
    | error fault =>
        rw [loaded] at seen
        cases seen
    | ok settings =>
        rw [loaded] at seen
        obtain ⟨separator, ceiling, names⟩ := by simpa [Except.toOption] using seen
        obtain ⟨given, gives, usable⟩ := complete broadFile asked settings loaded
        have kept := ((byFile broadFile asked given gives).loaded settings loaded).2.1
        refine ⟨given, settings, gives, rfl, separator, ceiling, ?_, usable, kept⟩
        rw [names]
        exact List.mem_append_right _ (List.mem_singleton_self _)
  · have refused : ofGiven faultyFields = .error .ceiling := by rfl
    have distinct : (faultyFields.map Prod.fst).Nodup := by decide
    obtain ⟨earlier, field, later, order, accepted, bad, same, -⟩ :=
      (byFields faultyFields distinct).refused (.invalid .ceiling) (by rw [refused]; rfl)
    cases same
    refine ⟨refused, accepted _ ?_, bad⟩
    have first : earlier.head? = some .separator := by
      cases earlier <;> simp_all [Checked.inOrder]
    exact List.mem_of_mem_head? first

end Settings
end PostfixSheet
