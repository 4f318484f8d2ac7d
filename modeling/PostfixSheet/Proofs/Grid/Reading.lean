import PostfixSheet.Proofs.Grid.Written
import PostfixSheet.Proofs.Text.LineEnds

/-!
# What reading a sheet keeps

A sheet is read from its source: the text with one kind of line end and without the blanks at its
ends. The source is not lost. It has a row for each of its lines and is put together again from the
cells, for every separator; and read again it gives the same rows. The other way round, a grid of
texts on one line each is read back from what it was written to, unless blanks at the ends are lost.
-/

namespace PostfixSheet.Text

def Blank (text : Text) : Prop := ∀ c ∈ text, isBlank c = true

/-- A text is another one without the blanks at its ends. -/
structure IsStripped (text stripped : Text) : Prop where
  cut : ∃ front back, text = front ++ stripped ++ back ∧ Blank front ∧ Blank back
  first : ∀ c ∈ stripped.head?, isBlank c = false
  last : ∀ c ∈ stripped.getLast?, isBlank c = false

theorem exists_dropped (cut : Char → Bool) (text : Text) :
    ∃ front, text = front ++ text.dropWhile cut ∧ (∀ c ∈ front, cut c = true) ∧
      ∀ c ∈ (text.dropWhile cut).head?, cut c = false := by
  refine ⟨text.takeWhile cut, List.takeWhile_append_dropWhile.symm, ?_, ?_⟩
  · exact fun c member => List.all_eq_true.mp List.all_takeWhile c member
  · intro c member
    have stops := List.head?_dropWhile_not cut text
    rw [Option.mem_def.mp member] at stops
    simpa using stops

theorem is_stripped_strip (text : Text) : IsStripped text (strip text) := by
  obtain ⟨front, cutFront, blankFront, first⟩ := exists_dropped isBlank text
  rw [strip, trim]
  generalize text.dropWhile isBlank = rest at cutFront first
  obtain ⟨back, cutBack, blankBack, last⟩ := exists_dropped isBlank rest.reverse
  generalize rest.reverse.dropWhile isBlank = kept at cutBack last
  have parts : rest = kept.reverse ++ back.reverse := by
    rw [← List.reverse_append, ← cutBack, List.reverse_reverse]
  refine ⟨⟨front, back.reverse, ?_, blankFront, ?_⟩, ?_, ?_⟩
  · rw [List.append_assoc, ← parts]
    exact cutFront
  · exact fun c member => blankBack c (List.mem_reverse.mp member)
  · intro c member
    apply first
    rw [parts, List.head?_append, Option.mem_def.mp member]
    rfl
  · intro c member
    rw [List.getLast?_reverse] at member
    exact last c member

theorem IsStripped.strip_eq {text stripped : Text} (cut : IsStripped text stripped) :
    strip stripped = stripped := trim_of_ends cut.first cut.last

theorem IsStripped.mem {text stripped : Text} (cut : IsStripped text stripped) {c : Char}
    (member : c ∈ stripped) : c ∈ text := by
  obtain ⟨front, back, rfl, _⟩ := cut.cut
  exact List.mem_append_left _ (List.mem_append_right _ member)

end PostfixSheet.Text

namespace PostfixSheet.Grid

open Text (HasLines IsStripped OneLine)

/-- The source of a sheet: the lines of its text with a line feed between any two of them, and no
blanks at the ends. Two replacements one after the other make all line ends one kind. -/
structure IsSource (text source : Text) : Prop where
  lines : ∃ lines, HasLines text lines ∧ IsStripped (Text.joinLines lines) source
  replaced : source = Text.strip (Text.replaceAll Text.returnAlone ['\n']
    (Text.replaceAll Text.returnAndFeed ['\n'] text))

variable {text source : Text}

theorem is_source_strip (text : Text) : IsSource text (Text.strip (Text.unifyLineEnds text)) where
  lines := by
    refine ⟨_, Text.has_lines_of_unified text, ?_⟩
    rw [Text.join_lines_lines]
    exact Text.is_stripped_strip _
  replaced := by rw [Text.unify_line_ends_eq_replaced]

theorem IsSource.eq_strip (given : IsSource text source) :
    source = Text.strip (Text.unifyLineEnds text) := by
  rw [given.replaced, Text.unify_line_ends_eq_replaced]

theorem IsSource.no_return (given : IsSource text source) : '\r' ∉ source := by
  intro member
  rw [given.eq_strip] at member
  exact Text.no_return_in_unified text ((Text.is_stripped_strip _).mem member)

/-- A source is its own source. -/
theorem IsSource.source_lines (given : IsSource text source) :
    sourceLines source = Text.lines source := by
  obtain ⟨_, _, stripped⟩ := given.lines
  rw [sourceLines, Text.unify_line_ends_of_no_return given.no_return, stripped.strip_eq]

theorem IsSource.has_lines (given : IsSource text source) : HasLines source (Text.lines source) := by
  rw [Text.has_lines_iff, Text.unify_line_ends_of_no_return given.no_return]

theorem join_rows (lines : List Text) (separator : Separator) :
    (lines.map (Text.fields separator)).map (Text.joinFields separator) = lines := by
  rw [List.map_map]
  refine (List.map_congr_left ?_).trans (List.map_id lines)
  exact fun line _ => Text.join_fields_fields separator line

/-- Reading a sheet keeps its source: there is a row for each line of it and a cell for each field,
and writing the grid gives the source again. -/
theorem reading_keeps_source (text : Text) {separator : Text} (given : separator ≠ []) :
    ∃ grid source, Grid.ofText text separator = .ok grid ∧ IsSource text source ∧
      HasLines source (grid.rows.map separator.intercalate) ∧
      (∀ row ∈ grid.rows, row ≠ [] ∧
        ∀ cell ∈ row, ¬separator <:+: cell ∧ '\r' ∉ cell ∧ '\n' ∉ cell) ∧
      grid.render = source ∧ Grid.ofText grid.render separator = .ok grid := by
  have isSource := is_source_strip text
  generalize source_eq : Text.strip (Text.unifyLineEnds text) = source at isSource
  have read := of_text_eq text ⟨separator, given⟩
  rw [sourceLines, source_eq] at read
  have joined := join_rows (Text.lines source) ⟨separator, given⟩
  have rendered : Grid.render ⟨(Text.lines source).map (Text.fields ⟨separator, given⟩),
      ⟨separator, given⟩⟩ = source := by
    rw [render, joined, Text.join_lines_lines]
  refine ⟨_, source, read, isSource, ?_, ?_, rendered, ?_⟩
  · have lines := isSource.has_lines
    rwa [← joined] at lines
  · intro row member
    obtain ⟨line, inside, rfl⟩ := List.mem_map.mp member
    refine ⟨Text.fields_after_ne_nil _ _ _, ?_⟩
    intro cell further
    refine ⟨Text.not_infix_of_mem_fields further, ?_, ?_⟩
    · intro character
      have inLine := Text.mem_of_mem_fields further character
      exact isSource.no_return (Text.mem_of_mem_lines inside inLine)
    · intro character
      exact Text.no_feed_in_line inside (Text.mem_of_mem_fields further character)
  · rw [rendered]
    have again := of_text_eq source ⟨separator, given⟩
    rwa [isSource.source_lines] at again

theorem folded_separator_keeps_source :
    "aa".toList ≠ [] ∧ ∃ grid source,
      Grid.ofText " aaa\r\nb\raab \n".toList "aa".toList = .ok grid ∧
      IsSource " aaa\r\nb\raab \n".toList source ∧
      HasLines source (grid.rows.map "aa".toList.intercalate) ∧
      (∀ row ∈ grid.rows, row ≠ [] ∧
        ∀ cell ∈ row, ¬"aa".toList <:+: cell ∧ '\r' ∉ cell ∧ '\n' ∉ cell) ∧
      grid.render = source ∧ Grid.ofText grid.render "aa".toList = .ok grid := by
  have given : "aa".toList ≠ [] := by decide
  exact ⟨given, reading_keeps_source _ given⟩

theorem render_of_text {separator : Separator} {grid : Grid}
    (read : ofText text separator.text = .ok grid) :
    grid.render = Text.strip (Text.unifyLineEnds text) := by
  rw [of_text_eq] at read
  cases read
  rw [render, join_rows, sourceLines, Text.join_lines_lines]

/-- A written grid is read back exactly if there are no blanks at the ends of its text. -/
theorem written_grid_reads_back {grid : Grid} {own : Char} (lined : grid.IsLined own) :
    Grid.ofText grid.render grid.separator.text = .ok grid ↔
      (∀ c ∈ grid.render.head?, Text.isBlank c = false) ∧
        ∀ c ∈ grid.render.getLast?, Text.isBlank c = false := by
  constructor
  · intro read
    have kept := render_of_text read
    rw [lined.unify_render] at kept
    have stripped := Text.is_stripped_strip grid.render
    rw [← kept] at stripped
    exact ⟨stripped.first, stripped.last⟩
  · rintro ⟨first, last⟩
    exact lined.of_text_render (Text.trim_of_ends first last)

/-- Rows of three lengths, with empty cells and parts of the separator in the cells. -/
def jagged : Grid :=
  ⟨[["a:".toList, "b".toList, ":".toList], ["".toList, "::".toList], [": |".toList]],
    ⟨"::;:".toList, by decide⟩⟩

theorem jagged_is_lined : jagged.IsLined ';' where
  rows := by decide
  cells := by decide
  between := by decide
  within := by decide
  held := by decide
  apart := by decide

theorem jagged_reads_back :
    jagged.IsLined ';' ∧ Grid.ofText jagged.render "::;:".toList = .ok jagged := by
  have first : jagged.render.head? = some 'a' := by decide
  have last : jagged.render.getLast? = some '|' := by decide
  refine ⟨jagged_is_lined, (written_grid_reads_back jagged_is_lined).mpr ⟨?_, ?_⟩⟩
  · intro c starts
    cases first.symm.trans starts
    rfl
  · intro c ends
    cases last.symm.trans ends
    rfl

end PostfixSheet.Grid
