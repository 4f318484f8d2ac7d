import PostfixSheet.Proofs.Files.Tree

/-!
# Where a path leads

A path is followed through directories alone, so trees with the same directories agree on where it
leads. A path as it is written and its normal form never lead to two different places.
-/

namespace PostfixSheet.Files

variable {files other : Files} {place : Place} {path : Path}

/-- The same places are directories in both trees. -/
def SameDirectories (files other : Files) : Prop :=
  ∀ place, files.at? place = some .directory ↔ other.at? place = some .directory

theorem SameDirectories.refl (files : Files) : files.SameDirectories files := fun _ => Iff.rfl

theorem SameDirectories.symm (same : files.SameDirectories other) : other.SameDirectories files :=
  fun place => (same place).symm

theorem SameDirectories.trans {later : Files} (first : files.SameDirectories other)
    (further : other.SameDirectories later) : files.SameDirectories later :=
  fun place => (first place).trans (further place)

theorem SameDirectories.grows (same : files.SameDirectories other) : files.Grows other :=
  fun place => (same place).mp

theorem SameDirectories.locate_iff (same : files.SameDirectories other) :
    files.locate path = .ok place ↔ other.locate path = .ok place :=
  ⟨locate_of_grows same.grows, locate_of_grows same.symm.grows⟩

theorem same_directories_put_file {content : List UInt8}
    (free : files.at? place ≠ some .directory) :
    files.SameDirectories (files.put place (.file content)) := by
  intro elsewhere
  constructor
  · exact grows_put_file free elsewhere
  · intro here
    by_cases same : elsewhere = place
    · subst same
      rw [at_put_file free] at here
      cases here
    · rwa [at_put_of_ne same] at here

/-- The names that say nothing lead nowhere else. -/
theorem follow_proper_names {names : List Text} {start : Place}
    (followed : files.follow start names = .ok place) :
    files.follow start (names.filter fun name => !name.isEmpty && name != ['.']) = .ok place := by
  induction names generalizing start with
  | nil => exact followed
  | cons name names induction =>
      rw [follow] at followed
      split at followed
      · cases followed
      · cases followed
      · next here =>
        split at followed
        · cases followed
        · next short =>
          have further := induction followed
          by_cases silent : name = [] ∨ name = ['.']
          · have stays : next start name = start := by
              have notUp : name ≠ upName := by
                rcases silent with rfl | rfl
                · decide
                · decide
              rw [next, if_neg notUp, if_pos silent]
            rw [List.filter_cons_of_neg (by rcases silent with rfl | rfl <;> decide)]
            rwa [stays] at further
          · rw [List.filter_cons_of_pos (by simpa using silent), follow, here]
            simp only [if_neg short]
            exact further

/-- A path as it is written leads where its normal form leads. -/
theorem locate_as_written {text : Text} {reached : Place}
    (written : files.locateText text = .ok reached)
    (located : files.locate (Path.ofText text) = .ok place) : reached = place := by
  rw [locateText] at written
  split at written
  · cases written
  · have names := follow_proper_names (follow_from_ok_iff.mp written).2.2
    have normal := (follow_from_ok_iff.mp located).2.2
    exact Except.ok.inj (names.symm.trans normal)

/-- Where a file stands no directory is found under the path as it is written. -/
theorem find_ne_directory {text : Text} {content : List UInt8}
    (read : files.read (Path.ofText text) = .ok content) :
    files.find? text ≠ some .directory := by
  obtain ⟨place, located, here⟩ := read_ok_iff.mp read
  intro found
  rw [find?] at found
  split at found
  · next reached written =>
    rw [locate_as_written written located, here] at found
    cases found
  · cases found

end PostfixSheet.Files
