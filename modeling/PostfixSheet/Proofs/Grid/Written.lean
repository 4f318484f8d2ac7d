import PostfixSheet.Proofs.Grid.Cells
import PostfixSheet.Proofs.Text.LineEnds

/-!
# Written grids read back

A grid is read from what it was written to, if all of its texts stay on one line, its separator has a
character that no cell has, and its text has no blanks at the ends. Grids of words have none, since
a written grid starts and ends with a cell; the blanks at the ends of a separator do no harm.
-/

namespace PostfixSheet.Grid

/-- The grid has rows and cells in all of them, its texts are on one line each, and its separator has
the given character, which no cell has. -/
structure IsLined (grid : Grid) (own : Char) : Prop where
  rows : grid.rows ≠ []
  cells : ∀ row ∈ grid.rows, row ≠ []
  between : Text.OneLine grid.separator.text
  within : ∀ row ∈ grid.rows, ∀ cell ∈ row, Text.OneLine cell
  held : own ∈ grid.separator.text
  apart : ∀ row ∈ grid.rows, ∀ cell ∈ row, own ∉ cell

/-- The grid has rows and cells in all of them, and every cell is a text without blanks and without
the given character. -/
structure IsWordy (grid : Grid) (foreign : Char) : Prop where
  rows : grid.rows ≠ []
  cells : ∀ row ∈ grid.rows, row ≠ []
  some : ∀ row ∈ grid.rows, ∀ cell ∈ row, cell ≠ []
  unbroken : ∀ row ∈ grid.rows, ∀ cell ∈ row, Text.Unbroken cell
  apart : ∀ row ∈ grid.rows, ∀ cell ∈ row, foreign ∉ cell

variable {grid : Grid} {own : Char}

theorem IsLined.one_line (lined : grid.IsLined own) {row : List Text} (member : row ∈ grid.rows) :
    Text.OneLine (Text.joinFields grid.separator row) := by
  constructor
  · intro inside
    rcases Text.mem_intercalate inside with inside | ⟨cell, further, inside⟩
    · exact lined.between.1 inside
    · exact (lined.within row member cell further).1 inside
  · intro inside
    rcases Text.mem_intercalate inside with inside | ⟨cell, further, inside⟩
    · exact lined.between.2 inside
    · exact (lined.within row member cell further).2 inside

theorem IsLined.unify_render (lined : grid.IsLined own) :
    Text.unifyLineEnds grid.render = grid.render := by
  apply Text.unify_line_ends_of_no_return
  intro inside
  rcases Text.mem_intercalate inside with feed | ⟨line, member, inside⟩
  · exact absurd feed (by decide)
  · obtain ⟨row, further, rfl⟩ := List.mem_map.mp member
    exact (lined.one_line further).1 inside

theorem IsLined.source_lines (lined : grid.IsLined own)
    (stripped : Text.strip grid.render = grid.render) :
    sourceLines grid.render = grid.rows.map (Text.joinFields grid.separator) := by
  rw [sourceLines, lined.unify_render, stripped]
  apply Text.lines_join_lines
  · simpa using lined.rows
  · intro line member
    obtain ⟨row, further, rfl⟩ := List.mem_map.mp member
    exact (lined.one_line further).2

theorem of_text_eq (text : Text) (separator : Separator) :
    ofText text separator.text =
      .ok ⟨(sourceLines text).map (Text.fields separator), separator⟩ := by
  have read : Separator.ofText? separator.text = .some separator := by
    simp [Separator.ofText?, separator.ne_nil]
  rw [ofText, read]

theorem IsLined.of_text_render (lined : grid.IsLined own)
    (stripped : Text.strip grid.render = grid.render) :
    ofText grid.render grid.separator.text = .ok grid := by
  have rows : (grid.rows.map (Text.joinFields grid.separator)).map (Text.fields grid.separator) =
      grid.rows := by
    rw [List.map_map]
    refine (List.map_congr_left ?_).trans (List.map_id _)
    intro row member
    exact Text.fields_join_fields (lined.cells row member) lined.held (lined.apart row member)
  rw [of_text_eq, lined.source_lines stripped, rows]

theorem not_mem_of_unbroken {text : Text} (unbroken : Text.Unbroken text) {c : Char}
    (blank : Text.isBlank c = true) : c ∉ text := by
  intro member
  rw [unbroken c member] at blank
  cases blank

theorem IsWordy.is_lined (wordy : grid.IsWordy own) (held : own ∈ grid.separator.text)
    (between : Text.OneLine grid.separator.text) : grid.IsLined own where
  rows := wordy.rows
  cells := wordy.cells
  between := between
  within row member cell further :=
    have unbroken := wordy.unbroken row member cell further
    ⟨not_mem_of_unbroken unbroken (by decide), not_mem_of_unbroken unbroken (by decide)⟩
  held := held
  apart := wordy.apart

theorem IsWordy.strip_render (wordy : grid.IsWordy own) : Text.strip grid.render = grid.render := by
  have linesSome : ∀ line ∈ grid.rows.map (Text.joinFields grid.separator), line ≠ [] := by
    intro line member
    obtain ⟨row, inside, rfl⟩ := List.mem_map.mp member
    exact Text.intercalate_ne_nil (wordy.some row inside) (wordy.cells row inside)
  apply Text.trim_of_ends
  · intro c starts
    obtain ⟨line, member, starts⟩ := Text.head_intercalate linesSome starts
    obtain ⟨row, inside, rfl⟩ := List.mem_map.mp member
    obtain ⟨cell, further, starts⟩ := Text.head_intercalate (wordy.some row inside) starts
    exact wordy.unbroken row inside cell further c (List.mem_of_mem_head? starts)
  · intro c ends
    obtain ⟨line, member, ends⟩ := Text.last_intercalate linesSome ends
    obtain ⟨row, inside, rfl⟩ := List.mem_map.mp member
    obtain ⟨cell, further, ends⟩ := Text.last_intercalate (wordy.some row inside) ends
    exact wordy.unbroken row inside cell further c (List.mem_of_mem_getLast? ends)

/-- A grid of words is read back from its text. -/
theorem of_text_render (wordy : grid.IsWordy own) (held : own ∈ grid.separator.text)
    (noReturn : '\r' ∉ grid.separator.text) (noFeed : '\n' ∉ grid.separator.text) :
    ofText grid.render grid.separator.text = .ok grid :=
  (wordy.is_lined held ⟨noReturn, noFeed⟩).of_text_render wordy.strip_render

/-- A grid that was read has rows, and cells in all of them. -/
theorem shape_of_text {text separator : Text} (read : ofText text separator = .ok grid) :
    grid.shape ≠ [] ∧ 0 ∉ grid.shape := by
  rw [ofText] at read
  split at read
  · next found =>
    cases read
    constructor
    · simp [shape, sourceLines, Text.lines, Text.split_where_ne_nil]
    · simp [shape, Text.fields, Text.fields_after_ne_nil]
  · cases read

end PostfixSheet.Grid
