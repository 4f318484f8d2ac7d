import PostfixSheet.Proofs.Decimal.Shown
import PostfixSheet.Proofs.Grid.Written
import PostfixSheet.Proofs.Sheet.Snapshot

/-!
# A worked out sheet is worked out to itself

What a cell shows is one word, so a written result is read back cell by cell, and on the second pass
every cell is evaluated from its own text alone: a finite number has its value again, and the error
token means nothing and fails again.
-/

namespace PostfixSheet

section Stack

variable [CallStack]

namespace Evaluation

theorem cell_of_found {grid : Grid} {a : Address} {text : Text} (found : grid.get? a = some text)
    (ceiling : Ceiling) :
    cell grid ceiling a =
      Machine.run (answerOnPath grid CallStack.room (ceiling.cells - 1) [a])
        (Token.scan text) := by
  have cells : ceiling.cells = ceiling.cells - 1 + 1 := (Nat.sub_add_cancel ceiling.pos).symm
  rw [cell, cells, cell_on_path_succ List.not_mem_nil, found]
  exact if_pos (CallStack.bound_pos _)

theorem cell_of_number {grid : Grid} {a : Address} {x : Float}
    (found : grid.get? a = some (Number.text x)) (finite : x.isFinite = true) (ceiling : Ceiling) :
    cell grid ceiling a = .ok x := by
  have unbroken : Text.Unbroken (Number.text x) :=
    fun c member => Number.not_is_blank_of_mem_characters (Number.mem_text member)
  have scanned : Token.scan (Number.text x) = [.number (Number.text x) x] := by
    rw [Token.scan, Text.words_single (Number.text_ne_nil x) unbroken, List.map_singleton,
      Number.of_text_text finite]
  rw [cell_of_found found, scanned]
  rfl

theorem cell_of_error_token {grid : Grid} {a : Address}
    (found : grid.get? a = some Sheet.standardErrorToken) (ceiling : Ceiling) :
    cell grid ceiling a = .error .noValue := by
  have scanned : Token.scan Sheet.standardErrorToken = [.unrecognized Sheet.standardErrorToken] :=
    rfl
  rw [cell_of_found found, scanned]
  rfl

end Evaluation

namespace Grid

/-- What the cells of a grid show, and the standard error token where there is nothing to show. -/
def shown (grid : Grid) (ceiling : Ceiling) : Grid :=
  (Sheet.ofGrid grid ceiling Sheet.standardErrorToken).pass.output

theorem separator_shown (grid : Grid) (ceiling : Ceiling) :
    (grid.shown ceiling).separator = grid.separator := (Sheet.pass_is_snapshot _).separator

theorem shape_shown (grid : Grid) (ceiling : Ceiling) :
    (grid.shown ceiling).shape = grid.shape := (Sheet.pass_is_snapshot _).shape

theorem get_shown (grid : Grid) (ceiling : Ceiling) (a : Address) :
    (grid.shown ceiling).get? a = (grid.get? a).map fun _ =>
      match Evaluation.cell grid ceiling a with
      | .ok value => Number.text value
      | .error _ => Sheet.standardErrorToken := (Sheet.pass_is_snapshot _).cells a

variable {grid : Grid} {ceiling : Ceiling}

theorem get_shown_cases {a : Address} {text : Text} (found : (grid.shown ceiling).get? a = some text) :
    (∃ value, Evaluation.cell grid ceiling a = .ok value ∧ text = Number.text value) ∨
      text = Sheet.standardErrorToken := by
  rw [get_shown] at found
  obtain ⟨_, _, rfl⟩ := Option.map_eq_some_iff.mp found
  cases Evaluation.cell grid ceiling a with
  | ok value => exact .inl ⟨value, rfl, rfl⟩
  | error error => exact .inr rfl

omit [CallStack] in
theorem exists_get_of_mem {row : List Text} {text : Text} (member : row ∈ grid.rows)
    (inside : text ∈ row) : ∃ a, grid.get? a = some text := by
  obtain ⟨row', found⟩ := List.mem_iff_getElem?.mp member
  obtain ⟨column, entry⟩ := List.mem_iff_getElem?.mp inside
  exact ⟨⟨column, row'⟩, get_eq_some_iff.mpr ⟨row, found, entry⟩⟩

theorem shown_is_wordy (ceiling : Ceiling) {own : Char}
    (foreign : own ∉ Number.characters ++ Sheet.standardErrorToken) (given : grid.shape ≠ [])
    (filled : 0 ∉ grid.shape) : (grid.shown ceiling).IsWordy own := by
  have texts : ∀ row ∈ (grid.shown ceiling).rows, ∀ text ∈ row,
      text ≠ [] ∧ Text.Unbroken text ∧ own ∉ text := by
    intro row member text inside
    obtain ⟨a, found⟩ := exists_get_of_mem member inside
    rcases get_shown_cases found with ⟨value, _, rfl⟩ | rfl
    · refine ⟨Number.text_ne_nil value, ?_, ?_⟩
      · exact fun c member => Number.not_is_blank_of_mem_characters (Number.mem_text member)
      · exact fun member => foreign (List.mem_append_left _ (Number.mem_text member))
    · refine ⟨List.cons_ne_nil _ _, ?_, ?_⟩
      · have all : Sheet.standardErrorToken.all (fun c => !Text.isBlank c) = true := by decide
        intro c member
        simpa using List.all_eq_true.mp all c member
      · exact fun member => foreign (List.mem_append_right _ member)
  rw [← shape_shown grid ceiling] at given filled
  refine ⟨?_, ?_, ?_, ?_, ?_⟩
  · simpa [shape] using given
  · rintro row member rfl
    exact filled (List.mem_map.mpr ⟨[], member, rfl⟩)
  · exact fun row member text inside => (texts row member text inside).1
  · exact fun row member text inside => (texts row member text inside).2.1
  · exact fun row member text inside => (texts row member text inside).2.2

/-- Finite numbers are shown as they are shown, and so is the error token. -/
theorem shown_shown (finite : ∀ a value, Evaluation.cell grid ceiling a = .ok value →
    value.isFinite = true) : (grid.shown ceiling).shown ceiling = grid.shown ceiling := by
  apply eq_of_get (separator_shown _ _) (shape_shown _ _)
  intro a
  rw [get_shown (grid.shown ceiling)]
  cases found : (grid.shown ceiling).get? a with
  | none => rfl
  | some text =>
      rw [Option.map_some]
      congr 1
      rcases get_shown_cases found with ⟨value, valued, rfl⟩ | rfl
      · rw [Evaluation.cell_of_number found (finite a value valued)]
      · rw [Evaluation.cell_of_error_token found]

end Grid

/-- A result is read back from what it was written to, and working it out again changes nothing. -/
theorem result_is_reproduced {separator : Text} {own : Char} (noReturn : '\r' ∉ separator)
    (noFeed : '\n' ∉ separator) (held : own ∈ separator)
    (foreign : own ∉ "0123456789+-.einfa".toList ++ "#ERR".toList) (text : Text)
    (ceiling : Ceiling) :
    ∃ grid, Grid.ofText text separator = .ok grid ∧
      Grid.ofText (grid.shown ceiling).render separator = .ok (grid.shown ceiling) ∧
      ((∀ a value, Evaluation.cell grid ceiling a = .ok value → value.isFinite = true) →
        ((grid.shown ceiling).shown ceiling).render = (grid.shown ceiling).render) := by
  obtain ⟨given, rfl⟩ : ∃ given : Separator, given.text = separator :=
    ⟨⟨separator, List.ne_nil_of_mem held⟩, rfl⟩
  have read := Grid.of_text_eq text given
  obtain ⟨rows, filled⟩ := Grid.shape_of_text read
  refine ⟨_, read, ?_, ?_⟩
  · have back := Grid.of_text_render (Grid.shown_is_wordy ceiling foreign rows filled)
    rw [Grid.separator_shown] at back
    exact back held noReturn noFeed
  · intro finite
    rw [Grid.shown_shown finite]

end Stack

/-- A sheet with numbers apart by more than a comma: a quotient, a product with it, and a failure. -/
def spacedSheet : Grid :=
  ⟨[["1 3 /".toList, "A1 -2 *".toList], ["1 0 /".toList]], ⟨" | ".toList, by decide⟩⟩

theorem spaced_sheet_finite {a : Address} {value : Float}
    (valued : Evaluation.cell spacedSheet .standard a = .ok value) : value.isFinite = true := by
  cases inside : spacedSheet.get? a with
  | none =>
      rw [Evaluation.cell, Ceiling.standard, Evaluation.cell_on_path_succ List.not_mem_nil,
        inside] at valued
      cases valued
  | some text =>
      have member : a ∈ spacedSheet.addresses := Grid.mem_addresses_iff.mpr ⟨text, inside⟩
      have all : (spacedSheet.addresses.all fun a =>
          (Evaluation.cell spacedSheet .standard a).toOption.all Float.isFinite) = true := by
        decide +kernel
      have finite := List.all_eq_true.mp all a member
      rw [valued] at finite
      exact finite

theorem spaced_result_is_reproduced :
    ∃ grid, Grid.ofText "1 3 / | A1 -2 *\n1 0 /".toList " | ".toList = .ok grid ∧
      Grid.ofText (grid.shown .standard).render " | ".toList = .ok (grid.shown .standard) ∧
      ((grid.shown .standard).shown .standard).render = (grid.shown .standard).render := by
  have noReturn : '\r' ∉ " | ".toList := by decide
  have noFeed : '\n' ∉ " | ".toList := by decide
  have held : '|' ∈ " | ".toList := by decide
  have foreign : '|' ∉ "0123456789+-.einfa".toList ++ "#ERR".toList := by decide
  obtain ⟨grid, read, back, again⟩ := result_is_reproduced noReturn noFeed held foreign
    "1 3 / | A1 -2 *\n1 0 /".toList .standard
  have spaced : grid = spacedSheet := by
    have known : Grid.ofText "1 3 / | A1 -2 *\n1 0 /".toList " | ".toList = .ok spacedSheet := rfl
    exact Except.ok.inj (read.symm.trans known)
  subst spaced
  exact ⟨spacedSheet, read, back, again fun _ _ => spaced_sheet_finite⟩

end PostfixSheet
