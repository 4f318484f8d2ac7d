import PostfixSheet.Proofs.Address.Label
import PostfixSheet.Proofs.Grid.Cells
import Mathlib.Data.List.Induction
import Mathlib.Data.List.Nodup
import Mathlib.Data.List.ReduceOption

/-!
# The frame of a grid

A frame shows a grid by its columns. Columns have different letters, so gathering them under their
names loses none, and an entry stands under the label that refers to its cell. Rows that are too
short end in holes; without the holes the rows of the frame are those of the grid.
-/

namespace PostfixSheet.Column

theorem letters_injective : Function.Injective letters := by
  intro one other same
  have columns := congrArg ofLetters same
  rw [of_letters_letters, of_letters_letters] at columns
  exact Int.natCast_inj.mp columns

end PostfixSheet.Column

namespace PostfixSheet.Grid

namespace Frame

variable (columns : List (Text × List (Option Text))) (name : Text) (entries : List (Option Text))

/-- One more column under a name. If there is a column of that name, it takes its place. -/
def insert : List (Text × List (Option Text)) → Text → List (Option Text) →
    List (Text × List (Option Text))
  | [], name, entries => [(name, entries)]
  | (other, others) :: rest, name, entries =>
      if other = name then (name, entries) :: rest
      else (other, others) :: insert rest name entries

/-- Columns that are gathered one after the other under their names. -/
def gather (columns : List (Text × List (Option Text))) : List (Text × List (Option Text)) :=
  columns.foldl (fun sofar column => insert sofar column.1 column.2) []

def names (frame : Frame) : List Text := frame.columns.map Prod.fst

/-- The entry in a row of the column of a name. Nothing if there is no such column or row. -/
def entry? (frame : Frame) (name : Text) (row : Nat) : Option (Option Text) :=
  (frame.columns.lookup name).bind (·[row]?)

/-- The frame row by row. -/
def rows (frame : Frame) : List (List (Option Text)) :=
  (List.range frame.height).map fun row => frame.columns.map fun column => column.2[row]?.join

theorem insert_new (new : name ∉ columns.map Prod.fst) :
    insert columns name entries = columns ++ [(name, entries)] := by
  induction columns with
  | nil => rfl
  | cons column columns induction =>
      rw [List.map_cons, List.mem_cons, not_or] at new
      rw [insert, if_neg (Ne.symm new.1), induction new.2, List.cons_append]

theorem gather_of_nodup (distinct : (columns.map Prod.fst).Nodup) : gather columns = columns := by
  induction columns using List.reverseRecOn with
  | nil => rfl
  | append_singleton columns column induction =>
      rw [List.map_append, List.nodup_append] at distinct
      obtain ⟨before, _, apart⟩ := distinct
      have new : column.1 ∉ columns.map Prod.fst :=
        fun member => apart _ member _ (by simp) rfl
      have gathered := induction before
      rw [gather] at gathered ⊢
      rw [List.foldl_concat, gathered, insert_new _ _ _ new]

end Frame

section OfGrid

variable {grid : Grid} {column row : Nat} {cells : List Text}

theorem width_pos_iff : 0 < grid.width ↔ ∃ cells ∈ grid.rows, cells ≠ [] := by
  obtain ⟨bounded, attained⟩ := grid.width_is_longest
  constructor
  · intro positive
    obtain ⟨cells, member, longest⟩ := attained.resolve_left (Nat.ne_of_gt positive)
    refine ⟨cells, member, ?_⟩
    rintro rfl
    exact absurd longest.symm (Nat.ne_of_gt positive)
  · rintro ⟨cells, member, filled⟩
    exact (List.length_pos_iff.mpr filled).trans_le (bounded cells member)

theorem names_frame (grid : Grid) :
    grid.frame.names = (List.range grid.width).map Column.letters := by
  rw [Frame.names, frame, List.map_map]
  rfl

theorem nodup_names_frame (grid : Grid) : grid.frame.names.Nodup := by
  rw [names_frame]
  exact List.nodup_range.map Column.letters_injective

theorem lookup_letters (entries : Nat → List (Option Text)) {columns : List Nat}
    (member : column ∈ columns) :
    (columns.map fun column => (Column.letters column, entries column)).lookup
      (Column.letters column) = some (entries column) := by
  induction columns with
  | nil => cases member
  | cons first columns induction =>
      rw [List.map_cons, List.lookup_cons]
      by_cases same : column = first
      · rw [same, beq_self_eq_true]
      · have miss : (Column.letters column == Column.letters first) = false :=
          beq_false_of_ne fun equal => same (Column.letters_injective equal)
        rw [miss]
        exact induction ((List.mem_cons.mp member).resolve_left same)

/-- An entry of a frame is what the grid has there, and a hole where the row is too short. -/
theorem entry_frame (inside : column < grid.width) (found : grid.rows[row]? = some cells) :
    grid.frame.entry? (Column.letters column) row = some cells[column]? := by
  rw [Frame.entry?, frame, lookup_letters _ (List.mem_range.mpr inside), Option.bind_some,
    List.getElem?_map, found, Option.map_some]

theorem get_of_row (found : grid.rows[row]? = some cells) :
    grid.get? ⟨column, row⟩ = cells[column]? := by
  rw [get?, found]
  rfl

theorem height_frame (filled : 0 < grid.width) : grid.frame.height = grid.height := by
  obtain ⟨width, widthEq⟩ := Nat.exists_eq_add_one.mpr filled
  rw [Frame.height, frame, widthEq, List.range_succ_eq_map, List.map_cons]
  exact List.length_map _

/-- A row of a frame is that of the grid with a hole for each column that it does not reach. -/
theorem row_frame (found : grid.rows[row]? = some cells) (bounded : cells.length ≤ grid.width) :
    (grid.frame.columns.map fun column => column.2[row]?.join) =
      cells.map some ++ List.replicate (grid.width - cells.length) none := by
  have entries : (grid.frame.columns.map fun column => column.2[row]?.join) =
      (List.range grid.width).map (cells[·]?) := by
    simp only [frame, List.map_map, Function.comp_def, List.getElem?_map, found, Option.map_some,
      Option.join_some]
  rw [entries]
  apply List.ext_getElem?
  intro column
  rcases Nat.lt_or_ge column cells.length with inside | outside
  · rw [List.getElem?_append_left (by simpa using inside)]
    simp [inside, inside.trans_le bounded]
  · have hole : cells[column]? = none := List.getElem?_eq_none outside
    rw [List.getElem?_append_right (by simpa using outside), List.length_map,
      List.getElem?_replicate, List.getElem?_map]
    by_cases within : column < grid.width
    · rw [List.getElem?_range within, Option.map_some, hole, if_pos (by omega)]
    · rw [List.getElem?_eq_none (by simpa using within), if_neg (by omega), Option.map_none]

/-- A frame without its holes is the grid. -/
theorem rows_without_holes (filled : 0 < grid.width) :
    grid.frame.rows.map List.reduceOption = grid.rows := by
  rw [Frame.rows, height_frame filled, List.map_map]
  apply List.ext_getElem
  · rw [List.length_map, List.length_range, height]
  · intro row inRange inside
    have found : grid.rows[row]? = some grid.rows[row] := List.getElem?_eq_getElem inside
    have bounded := grid.width_is_longest.1 _ (List.getElem_mem inside)
    have whole : (grid.rows[row].map some).reduceOption = grid.rows[row] := by
      rw [List.reduceOption, List.filterMap_map]
      exact List.filterMap_some
    rw [List.getElem_map, List.getElem_range, Function.comp_apply, row_frame found bounded,
      List.reduceOption_append, List.reduceOption_replicate_none, List.append_nil, whole]

theorem rows_eq_of_frame {other : Grid} (filled : 0 < grid.width)
    (same : other.frame = grid.frame) : other.rows = grid.rows := by
  have widths : other.width = grid.width := by
    simpa [frame] using congrArg (fun frame : Frame => frame.columns.length) same
  rw [← rows_without_holes (widths ▸ filled), same, rows_without_holes filled]

end OfGrid

/-- The frame of a grid that is not empty has the columns of the grid, no two of one name, and its
rows. Under the letters of a column and the number of a row stands what the label of the two refers
to, and a hole where the row is too short. Without the holes the frame is the grid. -/
theorem frame_shows_grid (grid : Grid) (filled : ∃ cells ∈ grid.rows, cells ≠ []) :
    grid.frame.columns.length = grid.width ∧
    grid.frame.names.Nodup ∧
    Frame.gather grid.frame.columns = grid.frame.columns ∧
    grid.frame.height = grid.height ∧
    (∀ column ∈ grid.frame.columns, column.2.length = grid.height) ∧
    (∀ name ∈ grid.frame.names, ∀ row < grid.height,
      (Text.ofNat (row + 1)).length ≤ Text.integerLimit →
      grid.frame.entry? name row =
        some ((Address.ofLabel? (name ++ Text.ofNat (row + 1))).bind grid.get?)) ∧
    (∀ column < grid.width, ∀ row cells, grid.rows[row]? = some cells →
      grid.frame.entry? (Column.letters column) row = some (grid.get? ⟨column, row⟩) ∧
      (grid.frame.entry? (Column.letters column) row = some none ↔ cells.length ≤ column)) ∧
    grid.frame.rows.map List.reduceOption = grid.rows ∧
    ∀ other : Grid, other.frame = grid.frame → other.rows = grid.rows := by
  have wide := width_pos_iff.mpr filled
  have distinct := nodup_names_frame grid
  refine ⟨?_, distinct, Frame.gather_of_nodup _ distinct, height_frame wide, ?_, ?_, ?_,
    rows_without_holes wide, fun other same => rows_eq_of_frame wide same⟩
  · rw [frame, List.length_map, List.length_range]
  · intro column member
    obtain ⟨_, _, rfl⟩ := List.mem_map.mp member
    exact List.length_map _
  · intro name named row inside short
    rw [names_frame] at named
    obtain ⟨column, member, rfl⟩ := List.mem_map.mp named
    have found : grid.rows[row]? = some grid.rows[row] := List.getElem?_eq_getElem inside
    have nameable : Address.Nameable ⟨column, row⟩ := short
    have referred : Address.ofLabel? (Column.letters column ++ Text.ofNat (row + 1)) =
        some ⟨column, row⟩ := Address.of_label_label nameable
    rw [entry_frame (List.mem_range.mp member) found, referred, Option.bind_some,
      get_of_row found]
  · intro column inside row cells found
    rw [entry_frame inside found, get_of_row found]
    exact ⟨rfl, by rw [Option.some_inj, List.getElem?_eq_none_iff]⟩

/-- A row of one cell, a row without any, and a row of three. -/
def ragged : Grid :=
  ⟨[["1".toList], [], ["B7".toList, "".toList, "2 3 +".toList]], .comma⟩

theorem ragged_frame_shows_grid :
    (∃ cells ∈ ragged.rows, cells ≠ []) ∧
    "C".toList ∈ ragged.frame.names ∧ (Text.ofNat 3).length ≤ Text.integerLimit ∧
    ragged.frame.entry? "C".toList 2 = some ((Address.ofLabel? "C3".toList).bind ragged.get?) ∧
    ragged.frame.entry? "B".toList 0 = some (ragged.get? ⟨1, 0⟩) ∧
    ragged.frame.entry? "B".toList 1 = some none ∧
    ragged.frame.rows.map List.reduceOption = ragged.rows := by
  have filled : ∃ cells ∈ ragged.rows, cells ≠ [] := ⟨["1".toList], by decide, by decide⟩
  have named : "C".toList ∈ ragged.frame.names := by decide +kernel
  have short : (Text.ofNat 3).length ≤ Text.integerLimit := by decide
  obtain ⟨_, _, _, _, _, referred, places, whole, _⟩ := frame_shows_grid ragged filled
  have last := referred _ named 2 (by decide) short
  have first := (places 1 (by decide) 0 ["1".toList] rfl).1
  have hole := (places 1 (by decide) 1 [] rfl).2
  have second : Column.letters 1 = "B".toList := by decide +kernel
  rw [second] at first hole
  exact ⟨filled, named, short, last, first, hole.mpr (by decide), whole⟩

end PostfixSheet.Grid
