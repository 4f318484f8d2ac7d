import PostfixSheet.Grid
import Mathlib.Data.List.Basic

/-!
# The cells of a grid

A grid lists the addresses of its cells row by row, and it has a text for exactly the addresses that
it lists. Writing into cells keeps the shape of a grid, and two grids of one shape that show the same
text in every cell are the same grid.
-/

namespace PostfixSheet.Address

theorem lt_iff {a b : Address} :
    a < b ↔ a.row < b.row ∨ (a.row = b.row ∧ a.column < b.column) := by
  change a.before b = true ↔ _
  simp [before]

end PostfixSheet.Address

namespace PostfixSheet.Grid

theorem get_eq_some_iff {grid : Grid} {a : Address} {text : Text} :
    grid.get? a = some text ↔
      ∃ cells, grid.rows[a.row]? = some cells ∧ cells[a.column]? = some text := by
  simp [get?, Option.bind_eq_some_iff]

/-- There is no cell where the row or the column lies outside. -/
theorem get_eq_none_iff {grid : Grid} {a : Address} :
    grid.get? a = none ↔
      grid.rows.length ≤ a.row ∨ ((grid.rows[a.row]?).getD []).length ≤ a.column := by
  rw [get?]
  cases inside : grid.rows[a.row]? with
  | none =>
      have outside := List.getElem?_eq_none_iff.mp inside
      exact ⟨fun _ => .inl outside, fun _ => rfl⟩
  | some cells =>
      have bound := (List.getElem?_eq_some_iff.mp inside).1
      change cells[a.column]? = none ↔ _ ∨ cells.length ≤ a.column
      rw [List.getElem?_eq_none_iff, or_iff_right (Nat.not_le.mpr bound)]

/-- A text can be written into exactly the cells that have one. -/
theorem set_eq (grid : Grid) (a : Address) (value : Text) :
    grid.set? a value = (grid.get? a).map fun _ =>
      { grid with rows := grid.rows.modify a.row (·.set a.column value) } := by
  rw [set?]
  cases found : grid.get? a with
  | none => exact if_pos (get_eq_none_iff.mp found)
  | some text =>
      have inside := mt get_eq_none_iff.mpr (Option.ne_none_iff_exists'.mpr ⟨text, found⟩)
      exact if_neg inside

theorem mem_addresses_iff {grid : Grid} {a : Address} :
    a ∈ grid.addresses ↔ ∃ text, grid.get? a = some text := by
  simp only [addresses, List.mem_flatMap, List.mem_map, List.mem_range, Prod.exists,
    List.mem_zipIdx_iff_getElem?, get_eq_some_iff]
  constructor
  · rintro ⟨cells, row, found, column, bound, rfl⟩
    exact ⟨cells[column], cells, found, List.getElem?_eq_getElem bound⟩
  · rintro ⟨text, cells, found, entry⟩
    obtain ⟨bound, _⟩ := List.getElem?_eq_some_iff.mp entry
    exact ⟨cells, a.row, found, a.column, bound, rfl⟩

theorem addresses_sorted (grid : Grid) : grid.addresses.Pairwise (· < ·) := by
  have rows : grid.rows.zipIdx.Pairwise fun one other => one.2 < other.2 := by
    apply List.pairwise_map.mp
    rw [List.zipIdx_map_snd]
    exact List.pairwise_lt_range'
  rw [addresses, List.pairwise_flatMap]
  constructor
  · intro row _
    rw [List.pairwise_map]
    refine List.pairwise_lt_range.imp ?_
    intro one other less
    exact Address.lt_iff.mpr (.inr ⟨rfl, less⟩)
  · refine rows.imp ?_
    intro one other less a inOne b inOther
    obtain ⟨_, _, rfl⟩ := List.mem_map.mp inOne
    obtain ⟨_, _, rfl⟩ := List.mem_map.mp inOther
    exact Address.lt_iff.mpr (.inl less)

/-- The grid with another text in one cell, or as it is if it has no such cell. -/
def put (grid : Grid) (a : Address) (value : Text) : Grid := (grid.set? a value).getD grid

theorem put_eq (grid : Grid) (a : Address) (value : Text) :
    grid.put a value = { grid with rows := grid.rows.modify a.row (·.set a.column value) } := by
  cases found : grid.get? a with
  | some text => rw [put, set_eq, found, Option.map_some, Option.getD_some]
  | none =>
      have kept : grid.rows.modify a.row (·.set a.column value) = grid.rows := by
        apply List.ext_getElem?
        intro row
        rw [List.getElem?_modify]
        cases inside : grid.rows[row]? with
        | none => rfl
        | some cells =>
            by_cases same : a.row = row
            · have short : cells.length ≤ a.column := by
                rw [← List.getElem?_eq_none_iff]
                simpa [get?, same, inside] using found
              simp [same, List.set_eq_of_length_le short]
            · simp [same]
      rw [put, set_eq, found, Option.map_none, Option.getD_none, kept]

theorem get_put (grid : Grid) (a b : Address) (value : Text) :
    (grid.put a value).get? b =
      if a = b then (grid.get? b).map fun _ => value else grid.get? b := by
  simp only [put_eq, get?, List.getElem?_modify]
  cases inside : grid.rows[b.row]? with
  | none => simp
  | some cells =>
      by_cases sameRow : a.row = b.row
      · by_cases sameColumn : a.column = b.column
        · have same : a = b := by
            cases a
            cases b
            simp_all
          have written : (cells.set b.column value)[b.column]? =
              cells[b.column]?.map fun _ => value := List.getElem?_set_self'
          simp [same, written]
        · have other : a ≠ b := fun same => sameColumn (congrArg Address.column same)
          simp [sameRow, other, sameColumn]
      · have other : a ≠ b := fun same => sameRow (congrArg Address.row same)
        simp [sameRow, other]

def shape (grid : Grid) : List Nat := grid.rows.map List.length

theorem shape_put (grid : Grid) (a : Address) (value : Text) :
    (grid.put a value).shape = grid.shape := by
  rw [shape, shape, put_eq]
  apply List.ext_getElem?
  intro row
  simp only [List.getElem?_map, List.getElem?_modify]
  cases grid.rows[row]? with
  | none => rfl
  | some cells =>
      by_cases same : a.row = row
      · simp [same]
      · simp [same]

theorem separator_put (grid : Grid) (a : Address) (value : Text) :
    (grid.put a value).separator = grid.separator := by
  rw [put_eq]

/-- Grids of one shape with the same texts are the same. -/
theorem eq_of_get {one other : Grid} (separator : one.separator = other.separator)
    (shape : one.shape = other.shape) (cells : ∀ a, one.get? a = other.get? a) : one = other := by
  have rows : one.rows = other.rows := by
    have height : one.rows.length = other.rows.length := by
      simpa [Grid.shape] using congrArg List.length shape
    apply List.ext_getElem height
    intro row inOne inOther
    apply List.ext_getElem?
    intro column
    simpa [get?, inOne, inOther] using cells ⟨column, row⟩
  cases one
  cases other
  simp_all

/-- The texts of a grid row by row are those of its addresses. -/
theorem texts_by_row (grid : Grid) :
    grid.rows.flatten.map some = grid.addresses.map grid.get? := by
  have row : ∀ entry ∈ grid.rows.zipIdx,
      entry.1.map some = ((List.range entry.1.length).map fun column => ⟨column, entry.2⟩).map
        grid.get? := by
    intro entry member
    have found : grid.rows[entry.2]? = some entry.1 := List.mem_zipIdx_iff_getElem?.mp member
    apply List.ext_getElem?
    intro column
    simp only [List.getElem?_map, List.map_map]
    by_cases inside : column < entry.1.length
    · simp [inside, get?, found]
    · simp [inside]
  calc
    grid.rows.flatten.map some = ((grid.rows.zipIdx.map Prod.fst).map (List.map some)).flatten := by
      rw [List.zipIdx_map_fst, List.map_flatten]
    _ = (grid.rows.zipIdx.map fun entry => entry.1.map some).flatten := by rw [List.map_map]; rfl
    _ = grid.addresses.map grid.get? := by
      rw [List.map_congr_left row, addresses, List.map_flatMap, List.flatMap_def]

theorem length_addresses (grid : Grid) : grid.addresses.length = grid.rows.flatten.length := by
  have same := congrArg List.length grid.texts_by_row
  rwa [List.length_map, List.length_map, eq_comm] at same

theorem addresses_of_shape {one other : Grid} (same : one.shape = other.shape) :
    one.addresses = other.addresses := by
  have listed : ∀ grid : Grid, grid.addresses = grid.shape.zipIdx.flatMap fun entry =>
      (List.range entry.1).map fun column => ⟨column, entry.2⟩ := by
    intro grid
    rw [Grid.shape, List.zipIdx_map, List.flatMap_map]
    rfl
  rw [listed one, listed other, same]

/-- The width is the length of a longest row; without rows it is zero. -/
theorem width_is_longest (grid : Grid) :
    (∀ row ∈ grid.rows, row.length ≤ grid.width) ∧
      (grid.width = 0 ∨ ∃ row ∈ grid.rows, row.length = grid.width) := by
  have longest : grid.width = (grid.rows.map List.length).max?.getD 0 := by
    rw [width, ← List.foldl_map, List.foldl_max]
    exact Nat.zero_max _
  rw [longest]
  constructor
  · intro row member
    exact List.le_max?_getD_of_mem (List.mem_map_of_mem member)
  · cases found : (grid.rows.map List.length).max? with
    | none => exact .inl rfl
    | some greatest =>
        have attained := (List.max?_eq_some_iff.mp found).1
        exact .inr (List.mem_map.mp attained)

end PostfixSheet.Grid
