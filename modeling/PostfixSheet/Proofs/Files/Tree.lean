import PostfixSheet.Files.Tree

/-!
# What writing does to the tree

A file that is written changes at its own place and nowhere else, and making directories changes no
file. Neither takes a directory away, so a path that leads to a place leads there for good.
-/

namespace PostfixSheet.Files

variable {files grown : Files} {place other : Place} {path : Path} {content : List UInt8}

/-- The bytes at a place; none where no file stands. -/
def contentAt (files : Files) (place : Place) : List UInt8 :=
  match files.at? place with
  | some (.file content) => content
  | _ => []

/-- What is a directory in one tree is one in the other. -/
def Grows (files grown : Files) : Prop :=
  ∀ place, files.at? place = some .directory → grown.at? place = some .directory

theorem Grows.refl (files : Files) : files.Grows files := fun _ => id

theorem Grows.trans {later : Files} (first : files.Grows grown) (further : grown.Grows later) :
    files.Grows later := fun place here => further place (first place here)

theorem not_given_of_at (here : files.at? place ≠ some .directory) : isGiven place = false := by
  cases given : isGiven place with
  | false => rfl
  | true =>
      have directory : files.at? place = some .directory := by rw [at?, if_pos given]
      exact absurd directory here

theorem lookup_put (entries : List (Place × Entry)) (place : Place) (entry : Entry) :
    (put ⟨entries⟩ place entry).entries.lookup place = some entry := by
  rw [put]
  split
  · next there =>
    induction entries with
    | nil => cases there
    | cons first rest induction =>
        obtain ⟨key, old⟩ := first
        by_cases same : key = place
        · simp only [List.map_cons, if_pos same, List.lookup_cons, beq_self_eq_true]
        · have miss : (place == key) = false := by simpa using Ne.symm same
          have further : rest.any (·.1 == place) = true := by simpa [same] using there
          simp only [List.map_cons, if_neg same, List.lookup_cons, miss]
          exact induction further
  · next absent =>
    have missed : entries.lookup place = none := by
      rw [List.lookup_eq_none_iff]
      intro old member
      rw [bne_iff_ne]
      intro same
      apply absent
      exact List.any_eq_true.mpr ⟨old, member, beq_iff_eq.mpr same.symm⟩
    simp only [List.lookup_append, missed, List.lookup_cons, beq_self_eq_true, Option.none_or]

theorem lookup_put_of_ne (entries : List (Place × Entry)) (entry : Entry)
    (differs : other ≠ place) :
    (put ⟨entries⟩ place entry).entries.lookup other = entries.lookup other := by
  have miss : (other == place) = false := by simpa using differs
  rw [put]
  split
  · next there =>
    clear there
    induction entries with
    | nil => rfl
    | cons first rest induction =>
        obtain ⟨key, old⟩ := first
        by_cases same : key = place
        · simp only [List.map_cons, same, if_true, List.lookup_cons, miss]
          exact induction
        · simp only [List.map_cons, if_neg same, List.lookup_cons]
          cases other == key with
          | true => rfl
          | false => exact induction
  · simp only [List.lookup_append, List.lookup_cons, miss, List.lookup_nil, Option.or_none]

theorem at_put_self {entry : Entry} (free : isGiven place = false) :
    (files.put place entry).at? place = some entry := by
  rw [at?, if_neg (by simp [free]), lookup_put]

theorem at_put_of_ne {entry : Entry} (differs : other ≠ place) :
    (files.put place entry).at? other = files.at? other := by
  rw [at?, at?, lookup_put_of_ne files.entries entry differs]

theorem follow_of_grows (grows : files.Grows grown) {names : List Text} {start : Place}
    (followed : files.follow start names = .ok place) : grown.follow start names = .ok place := by
  induction names generalizing start with
  | nil => exact followed
  | cons name names induction =>
      rw [follow] at followed
      split at followed
      · cases followed
      · cases followed
      · next here =>
        rw [follow, grows start here]
        split at followed
        · cases followed
        · next short =>
          rw [if_neg short]
          exact induction followed

theorem follow_from_ok_iff {written root : Text} {names : List Text} :
    files.followFrom written root names = .ok place ↔
      Path.canName written = true ∧ (Text.bytes written).length ≤ Path.textLimit ∧
        files.follow (if root.isEmpty then [] else [root]) names = .ok place := by
  rw [followFrom]
  cases Path.canName written with
  | false => exact ⟨nofun, nofun⟩
  | true =>
      by_cases long : Path.textLimit < (Text.bytes written).length
      · simp [long, Nat.not_le.mpr long]
      · rw [if_neg (by decide), if_neg long]
        cases files.follow (if root.isEmpty then [] else [root]) names with
        | error cause => exact ⟨nofun, nofun⟩
        | ok reached =>
            change Except.ok reached = Except.ok place ↔ _
            simp [Nat.not_lt.mp long]

theorem locate_of_grows (grows : files.Grows grown) (located : files.locate path = .ok place) :
    grown.locate path = .ok place := by
  rw [locate, follow_from_ok_iff] at located ⊢
  obtain ⟨nameable, short, followed⟩ := located
  exact ⟨nameable, short, follow_of_grows grows followed⟩

theorem follow_append (start : Place) (names : List Text) (last : Text) :
    files.follow start (names ++ [last]) =
      (files.follow start names).bind fun reached => files.follow reached [last] := by
  induction names generalizing start with
  | nil => rfl
  | cons name names induction =>
      rw [List.cons_append, follow, follow]
      cases files.at? start with
      | none => rfl
      | some entry =>
          cases entry with
          | file _ => rfl
          | directory =>
              simp only
              split
              · rfl
              · exact induction _

/-- A path leads to a place of its own last name. -/
theorem last_of_locate_child {name : Text} (proper : name ≠ upName ∧ name ≠ [] ∧ name ≠ ['.'])
    (located : files.locate (path.child name) = .ok place) : place.getLast? = some name := by
  obtain ⟨notUp, notEmpty, notHere⟩ := proper
  obtain ⟨_, _, steps⟩ := follow_from_ok_iff.mp located
  rw [Path.child, follow_append] at steps
  cases followed : files.follow (if path.root.isEmpty then [] else [path.root]) path.names with
  | error cause =>
      rw [followed] at steps
      cases steps
  | ok reached =>
      rw [followed, Except.bind, follow] at steps
      split at steps
      · cases steps
      · cases steps
      · split at steps
        · cases steps
        · rw [follow, next, if_neg notUp, if_neg (by simp [notEmpty, notHere])] at steps
          cases steps
          exact List.getLast?_concat

/-- A file is changed at the place of the path; one that is not there is made. -/
theorem modify_ok_iff {change : List UInt8 → List UInt8} :
    files.modify path change = .ok grown ↔
      ∃ place, files.locate path = .ok place ∧ files.at? place ≠ some .directory ∧
        grown = files.put place (.file (change (files.contentAt place))) := by
  rw [modify]
  cases located : files.locate path with
  | error error => exact ⟨nofun, nofun⟩
  | ok place =>
      cases here : files.at? place with
      | none => simp [bind, Except.bind, here, contentAt, eq_comm]
      | some entry =>
          cases entry with
          | directory => simp [bind, Except.bind, here]
          | file old => simp [bind, Except.bind, here, contentAt, eq_comm]

/-- Appending writes behind what stands at the place of the path. -/
theorem append_ok_iff :
    files.append path content = .ok grown ↔
      ∃ place, files.locate path = .ok place ∧ files.at? place ≠ some .directory ∧
        grown = files.put place (.file (files.contentAt place ++ content)) := modify_ok_iff

theorem write_ok_iff :
    files.write path content = .ok grown ↔
      ∃ place, files.locate path = .ok place ∧ files.at? place ≠ some .directory ∧
        grown = files.put place (.file content) := modify_ok_iff

theorem read_ok_iff :
    files.read path = .ok content ↔
      ∃ place, files.locate path = .ok place ∧ files.at? place = some (.file content) := by
  rw [read]
  cases files.locate path with
  | error error => exact ⟨nofun, nofun⟩
  | ok place =>
      cases here : files.at? place with
      | none => simp [bind, Except.bind, here]
      | some entry =>
          cases entry with
          | directory => simp [bind, Except.bind, here]
          | file old => simp [bind, Except.bind, here]

theorem is_there_of_locate (located : files.locate path = .ok place) :
    files.isThere path = .ok (files.at? place).isSome := by
  rw [isThere, located]

section Appended

variable (free : files.at? place ≠ some .directory)

include free

theorem at_put_file : (files.put place (.file content)).at? place = some (.file content) :=
  at_put_self (not_given_of_at free)

theorem content_at_put : (files.put place (.file content)).contentAt place = content := by
  rw [contentAt, at_put_file free]

theorem grows_put_file : files.Grows (files.put place (.file content)) := by
  intro other here
  by_cases same : other = place
  · subst same
    exact absurd here free
  · rwa [at_put_of_ne same]

end Appended

/-- One tree has what the other has, and beyond it directories only. -/
def OnlyGains (files grown : Files) : Prop :=
  ∀ place, grown.at? place = files.at? place ∨
    (files.at? place = none ∧ grown.at? place = some .directory)

theorem OnlyGains.refl (files : Files) : files.OnlyGains files := fun _ => .inl rfl

theorem OnlyGains.trans {later : Files} (first : files.OnlyGains grown)
    (further : grown.OnlyGains later) : files.OnlyGains later := by
  intro place
  rcases first place with same | ⟨absent, made⟩
  · rcases further place with kept | ⟨absent, made⟩
    · exact .inl (kept.trans same)
    · exact .inr ⟨same ▸ absent, made⟩
  · rcases further place with kept | ⟨missing, _⟩
    · exact .inr ⟨absent, kept.trans made⟩
    · rw [made] at missing
      cases missing

theorem OnlyGains.grows (gains : files.OnlyGains grown) : files.Grows grown := by
  intro place here
  rcases gains place with same | ⟨_, made⟩
  · exact same.trans here
  · exact made

theorem OnlyGains.content_at_eq (gains : files.OnlyGains grown) (place : Place) :
    grown.contentAt place = files.contentAt place := by
  rcases gains place with same | ⟨absent, made⟩
  · rw [contentAt, contentAt, same]
  · rw [contentAt, contentAt, absent, made]

theorem OnlyGains.file_iff (gains : files.OnlyGains grown) :
    grown.at? place = some (.file content) ↔ files.at? place = some (.file content) := by
  rcases gains place with same | ⟨absent, made⟩
  · rw [same]
  · rw [absent, made]
    exact ⟨nofun, nofun⟩

theorem make_directory_only_gains (made : files.makeDirectory path = .ok grown) :
    files.OnlyGains grown := by
  rw [makeDirectory] at made
  cases located : files.locate path with
  | error error =>
      rw [located] at made
      cases made
  | ok place =>
      rw [located] at made
      cases here : files.at? place with
      | some entry => simp [bind, Except.bind, here] at made
      | none =>
          obtain rfl : files.put place .directory = grown := by
            simpa [bind, Except.bind, here] using made
          intro other
          by_cases same : other = place
          · subst same
            have free : files.at? other ≠ some .directory := by simp [here]
            exact .inr ⟨here, at_put_self (not_given_of_at free)⟩
          · exact .inl (at_put_of_ne same)

theorem ensure_directory_within_only_gains (files : Files) (depth : Nat) (path : Path) :
    files.OnlyGains (files.ensureDirectoryWithin depth path).1 := by
  induction depth generalizing path with
  | zero =>
      rw [ensureDirectoryWithin]
      split
      · next made => exact make_directory_only_gains made
      · split
        · exact .refl files
        · exact .refl files
  | succ depth induction =>
      rw [ensureDirectoryWithin]
      split
      · next made => exact make_directory_only_gains made
      · split
        · have above := induction path.parent
          simp only
          split
          · next failed => rwa [failed] at above
          · next reached =>
            rw [reached] at above
            split
            · next made => exact above.trans (make_directory_only_gains made)
            · exact above
        · exact .refl files

theorem ensure_directory_only_gains (files : Files) (path : Path) :
    files.OnlyGains (files.ensureDirectory path).1 :=
  ensure_directory_within_only_gains files path.names.length path

end PostfixSheet.Files
