import PostfixSheet.Evaluation.Cell
import PostfixSheet.Proofs.Machine.Outcome
import PostfixSheet.Proofs.Token.Kind
import Mathlib.Data.Set.Function

/-!
# Moving cells

Cells may go to other places if the references to them follow. What an evaluation ends with does not
depend on where its cells stand or on their order, so a moved cell has the value it had, and an error
names the cells that it named by their new labels. Only the addresses that labels can name take part:
no reference leads to any other.
-/

namespace PostfixSheet

namespace Text

/-- A word after a move: a reference follows the cell that it names, and all other words stay, the
references among them that name no cell. -/
def follow (place : Address → Address) (word : Text) : Text :=
  match Token.ofText word with
  | .reference _ (some a) => (place a).label
  | _ => word

end Text

namespace Token

def follow (place : Address → Address) : Token → Token
  | .reference _ (some a) => .reference (place a).label (some (place a))
  | token => token

end Token

namespace Address

/-- The label of the place that the cell with a given label goes to. A label that names no cell
stays. -/
def followLabel (place : Address → Address) (label : Text) : Text :=
  match ofLabel? label with
  | some a => (place a).label
  | none => label

theorem follow_label_label (place : Address → Address) {a : Address} (nameable : a.Nameable) :
    followLabel place a.label = (place a).label := by
  rw [followLabel, of_label_label nameable]

end Address

namespace EvalError

/-- The error with every cell that it names at its new place. -/
def follow (place : Address → Address) : EvalError → EvalError
  | .cycle path => .cycle (path.map place)
  | .missingCell label => .missingCell (Address.followLabel place label)
  | error => error

theorem follow_of_is_own {place : Address → Address} {error : EvalError}
    (own : Machine.IsOwn error) : error.follow place = error := by
  cases error with
  | cycle _ | missingCell _ => exact own.elim
  | tooDeep _ | exhausted _ | noValue | missingOperand _ | leftOver _ | divisionByZero => rfl

end EvalError

namespace Grid

/-- One grid is another with its cells moved. There is a cell at a place exactly if there is one at
the address that goes there, and its words are the words of that cell, each after the move. -/
structure IsMoved (place : Address → Address) (grid moved : Grid) : Prop where
  onto : Set.BijOn place {a | a.Nameable} {a | a.Nameable}
  cells : ∀ a, a.Nameable → (moved.get? (place a)).map Text.words =
    (grid.get? a).map fun text => (Text.words text).map (Text.follow place)

end Grid

namespace Machine

variable {answer other : Answer} {place : Address → Address}

theorem step_follow {token : Token}
    (named : ∀ label a, token = .reference label (some a) →
      other (place a).label (some (place a)) =
        (answer label (some a)).mapError (EvalError.follow place))
    (unnamed : ∀ label, token = .reference label none →
      other label none = (answer label none).mapError (EvalError.follow place))
    (stack : List Float) :
    step other stack (token.follow place) =
      (step answer stack token).mapError (EvalError.follow place) := by
  cases token with
  | number text value => rfl
  | unrecognized text => rfl
  | operator op =>
      change step answer stack (.operator op) = _
      cases stepped : step answer stack (.operator op) with
      | ok next => rfl
      | error error =>
          have own := step_operator_error_is_own stepped
          exact congrArg Except.error (EvalError.follow_of_is_own own).symm
  | reference label address =>
      cases address with
      | none =>
          change step other stack (.reference label none) = _
          rw [step, step, unnamed label rfl]
          cases answer label none <;> rfl
      | some a =>
          rw [Token.follow, step, step, named label a rfl]
          cases answer label (some a) <;> rfl

end Machine

namespace Token

theorem of_text_follow {place : Address → Address}
    (stays : Set.MapsTo place {a | a.Nameable} {a | a.Nameable}) (word : Text) :
    ofText (Text.follow place word) = (ofText word).follow place := by
  unfold Text.follow
  cases read : ofText word with
  | number text value => exact read
  | operator op => exact read
  | unrecognized text => exact read
  | reference label address =>
      cases address with
      | none => exact read
      | some a => exact of_text_label (stays (nameable_of_reference read))

/-- The label of a reference that names no cell names none as it stands in the token either. -/
theorem follow_label_of_unnamed {word label : Text} (read : ofText word = .reference label none)
    (place : Address → Address) : Address.followLabel place label = label := by
  have unnamed : Address.ofLabel? label = none := by
    unfold ofText at read
    split at read
    · cases read
    · split at read
      · next shape =>
        obtain ⟨rfl, none⟩ := Token.reference.inj read
        rw [Address.of_label_upper shape, none]
      · split at read <;> cases read
  rw [Address.followLabel, unnamed]

end Token

namespace Evaluation

variable {place : Address → Address}

theorem drop_while_map_place (injective : Set.InjOn place {a | a.Nameable}) {path : List Address}
    {a : Address} (named : ∀ b ∈ path, b.Nameable) (nameable : a.Nameable) :
    (path.map place).dropWhile (· != place a) = (path.dropWhile (· != a)).map place := by
  induction path with
  | nil => rfl
  | cons b path induction =>
      by_cases same : b = a
      · rw [same, List.map_cons, List.dropWhile_cons_of_neg (by simp),
          List.dropWhile_cons_of_neg (by simp), List.map_cons]
      · have apart : place b ≠ place a := by
          intro equal
          exact same (injective (named b (by simp)) nameable equal)
        rw [List.map_cons, List.dropWhile_cons_of_pos (by simpa using apart),
          List.dropWhile_cons_of_pos (by simpa using same)]
        exact induction fun c member => named c (by simp [member])

variable {grid moved : Grid} {room : Room}

/-- A text refers to cells after a move exactly if it did before. -/
theorem bound_follow (tokens : List Token) :
    room.bound (tokens.map (Token.follow place)) = room.bound tokens := by
  have asks : ∀ token : Token, (token.follow place).asks = token.asks := by
    intro token
    cases token with
    | number | operator | unrecognized => rfl
    | reference label address => cases address <;> rfl
  simp only [Room.bound, List.any_map, Function.comp_def, asks]

theorem scan_moved (isMoved : grid.IsMoved place moved) {a : Address} (nameable : a.Nameable)
    {text : Text} (found : grid.get? a = some text) :
    ∃ new, moved.get? (place a) = some new ∧
      Token.scan new = (Token.scan text).map (Token.follow place) := by
  have cells := isMoved.cells a nameable
  rw [found] at cells
  obtain ⟨new, foundNew, words⟩ := Option.map_eq_some_iff.mp cells
  refine ⟨new, foundNew, ?_⟩
  rw [Token.scan, Token.scan, words, List.map_map, List.map_map]
  apply List.map_congr_left
  intro word _
  exact Token.of_text_follow isMoved.onto.mapsTo word

theorem missing_moved (isMoved : grid.IsMoved place moved) {a : Address} (nameable : a.Nameable)
    (missing : grid.get? a = none) : moved.get? (place a) = none := by
  have cells := isMoved.cells a nameable
  rw [missing] at cells
  exact Option.map_eq_none_iff.mp cells

theorem cell_again_moved (isMoved : grid.IsMoved place moved) {remaining : Nat}
    {path : List Address} {a : Address} (named : ∀ b ∈ path, b.Nameable) (nameable : a.Nameable)
    (again : a ∈ path) :
    cellOnPath moved room remaining (path.map place) (place a) =
      (cellOnPath grid room remaining path a).mapError (EvalError.follow place) := by
  rw [cell_on_path_of_mem again, cell_on_path_of_mem (List.mem_map_of_mem again),
    drop_while_map_place isMoved.onto.injOn named nameable]
  have round : (path.dropWhile (· != a)).map place ++ [place a] =
      (path.dropWhile (· != a) ++ [a]).map place := by
    rw [List.map_append, List.map_singleton]
  exact congrArg (fun cells => Except.error (EvalError.cycle cells)) round

theorem answer_unnamed_moved {remaining : Nat} {path : List Address} {text label : Text}
    (member : .reference label none ∈ Token.scan text) :
    answerOnPath moved room remaining (path.map place) label none =
      (answerOnPath grid room remaining path label none).mapError (EvalError.follow place) := by
  obtain ⟨word, _, read⟩ := List.mem_map.mp member
  have stays := Token.follow_label_of_unnamed read place
  exact congrArg (fun label => Except.error (EvalError.missingCell label)) stays.symm

theorem not_mem_map_place (injective : Set.InjOn place {a | a.Nameable}) {path : List Address}
    {a : Address} (named : ∀ b ∈ path, b.Nameable) (nameable : a.Nameable) (first : a ∉ path) :
    place a ∉ path.map place := by
  intro again
  obtain ⟨b, member, same⟩ := List.mem_map.mp again
  rw [injective (named b member) nameable same] at member
  exact first member

/-- An evaluation under a path is the evaluation of the moved cell under the moved path. -/
theorem cell_on_path_moved (isMoved : grid.IsMoved place moved) {remaining : Nat}
    {path : List Address} {a : Address} (named : ∀ b ∈ path, b.Nameable) (nameable : a.Nameable) :
    cellOnPath moved room remaining (path.map place) (place a) =
      (cellOnPath grid room remaining path a).mapError (EvalError.follow place) := by
  induction remaining generalizing path a with
  | zero =>
      by_cases again : a ∈ path
      · exact cell_again_moved isMoved named nameable again
      · have first := not_mem_map_place isMoved.onto.injOn named nameable again
        rw [cell_on_path_zero again, cell_on_path_zero first, List.length_map]
        rfl
  | succ remaining induction =>
      by_cases again : a ∈ path
      · exact cell_again_moved isMoved named nameable again
      · have first := not_mem_map_place isMoved.onto.injOn named nameable again
        rw [cell_on_path_succ again, cell_on_path_succ first]
        cases found : grid.get? a with
        | none =>
            rw [missing_moved isMoved nameable found]
            have renamed := Address.follow_label_label place nameable
            exact congrArg (fun label => Except.error (EvalError.missingCell label)) renamed.symm
        | some text =>
            obtain ⟨new, foundNew, scanned⟩ := scan_moved isMoved nameable found
            have longer : path.map place ++ [place a] = (path ++ [a]).map place := by simp
            have namedLonger : ∀ b ∈ path ++ [a], b.Nameable := by
              intro b member
              rcases List.mem_append.mp member with member | member
              · exact named b member
              · rwa [List.mem_singleton.mp member]
            rw [foundNew, longer, List.length_map]
            simp only [scanned, bound_follow]
            by_cases space : path.length < room.bound (Token.scan text)
            · simp only [space, if_true]
              apply Machine.run_rename fun _ => EvalError.follow_of_is_own
              intro token member stack
              apply Machine.step_follow
              · intro label b same
                rw [same] at member
                exact induction namedLonger (Token.nameable_of_mem_scan member)
              · intro label same
                rw [same] at member
                exact answer_unnamed_moved member
            · simp only [space, if_false]
              rfl

/-- Moved cells keep what they end with, and their errors follow them. -/
theorem moved_cell_ends_alike [CallStack] {place : Address → Address} {grid moved : Grid}
    (isMoved : grid.IsMoved place moved) (ceiling : Ceiling) {a : Address}
    (nameable : a.Nameable) :
    cell moved ceiling (place a) =
      (cell grid ceiling a).mapError (EvalError.follow place) := by
  have outermost : ∀ b ∈ ([] : List Address), b.Nameable := by simp
  exact cell_on_path_moved isMoved outermost nameable

/-- The first two columns change places. -/
def turnColumns (a : Address) : Address := ⟨Equiv.swap 0 1 a.column, a.row⟩

theorem turn_columns_onto : Set.BijOn turnColumns {a | a.Nameable} {a | a.Nameable} := by
  have back : ∀ a, turnColumns (turnColumns a) = a := by
    intro a
    simp only [turnColumns, Equiv.swap_apply_self]
  have sameRow : Set.MapsTo turnColumns {a | a.Nameable} {a | a.Nameable} := by
    intro a nameable
    exact nameable
  exact Set.InvOn.bijOn ⟨fun a _ => back a, fun a _ => back a⟩ sameRow sameRow

/-- A cell that leads into a round of two others, a reference to a place outside of the grid, and
one to no place. -/
def tangledSheet : Grid :=
  ⟨[["b01".toList, "c1 1 +".toList, "B1 2 *".toList, "b7 1 +".toList, "a0 1 +".toList]], .comma⟩

def turnedSheet : Grid :=
  ⟨[["C1 1 +".toList, "A1".toList, "A1 2 *".toList, "A7 1 +".toList, "a0 1 +".toList]], .comma⟩

theorem tangled_is_turned : tangledSheet.IsMoved turnColumns turnedSheet where
  onto := turn_columns_onto
  cells := by
    rintro ⟨column, row⟩ _
    cases row with
    | succ row => rfl
    | zero =>
        rcases column with _ | _ | _ | _ | _ | column
        · decide +kernel
        · decide +kernel
        · decide +kernel
        · decide +kernel
        · decide +kernel
        · have beyond : Equiv.swap 0 1 (column + 5) = column + 5 :=
            Equiv.swap_apply_of_ne_of_ne (by omega) (by omega)
          rw [turnColumns, beyond]
          rfl

theorem tangled_sheet_follows :
    (tangledSheet.IsMoved turnColumns turnedSheet ∧ Address.Nameable ⟨0, 0⟩) ∧
      cell turnedSheet .standard ⟨1, 0⟩ =
        (cell tangledSheet .standard ⟨0, 0⟩).mapError (EvalError.follow turnColumns) ∧
      cell turnedSheet .standard ⟨1, 0⟩ = .error (.cycle [⟨0, 0⟩, ⟨2, 0⟩, ⟨0, 0⟩]) ∧
      cell turnedSheet .standard ⟨3, 0⟩ = .error (.missingCell "A7".toList) ∧
      cell turnedSheet .standard ⟨4, 0⟩ = .error (.missingCell "A0".toList) := by
  have first : Address.Nameable ⟨0, 0⟩ := by decide +kernel
  have fourth : Address.Nameable ⟨3, 0⟩ := by decide +kernel
  have fifth : Address.Nameable ⟨4, 0⟩ := by decide +kernel
  have round := moved_cell_ends_alike tangled_is_turned .standard first
  have outside := moved_cell_ends_alike tangled_is_turned .standard fourth
  have nowhere := moved_cell_ends_alike tangled_is_turned .standard fifth
  refine ⟨⟨tangled_is_turned, first⟩, round, round.trans ?_, outside.trans ?_, nowhere.trans ?_⟩
  · decide +kernel
  · decide +kernel
  · decide +kernel

end Evaluation
end PostfixSheet
