import PostfixSheet.Workspace
import PostfixSheet.Proofs.Address.Label
import PostfixSheet.Proofs.Grid.Cells

/-!
# What a pass shows

A pass writes into every cell what the cell is worth on the grid as it was before the pass. Nothing
that is written is read, so the cells may be written in any order. The failures are those of the
cells without a value, row by row, and no two of them go by one label.
-/

namespace PostfixSheet.Address

theorem label_injective : Function.Injective label := by
  intro a b same
  have parts := label_parts_label a
  rw [same, label_parts_label b] at parts
  simp only [Option.some.injEq, Prod.mk.injEq] at parts
  obtain ⟨letters, digits⟩ := parts
  have column : b.column = a.column := by
    have read := congrArg Column.ofLetters letters
    rw [Column.of_letters_letters, Column.of_letters_letters] at read
    exact Int.ofNat.inj read
  have row : b.row + 1 = a.row + 1 := by
    have read := congrArg Text.decimal digits
    rwa [Text.decimal_of_nat, Text.decimal_of_nat] at read
  cases a
  cases b
  simp_all

end PostfixSheet.Address

namespace PostfixSheet.Grid

/-- Writes into some cells, in the given order, what a function gives for each. -/
def putEach (grid : Grid) (text : Address → Text) (order : List Address) : Grid :=
  order.foldl (fun grid a => grid.put a (text a)) grid

theorem put_each_cons (grid : Grid) (text : Address → Text) (a : Address) (order : List Address) :
    grid.putEach text (a :: order) = (grid.put a (text a)).putEach text order := rfl

variable {text : Address → Text}

theorem get_put_each (grid : Grid) (order : List Address) (b : Address) :
    (grid.putEach text order).get? b =
      if b ∈ order then (grid.get? b).map fun _ => text b else grid.get? b := by
  induction order generalizing grid with
  | nil => simp [putEach]
  | cons a order induction =>
      rw [put_each_cons, induction, get_put]
      by_cases same : a = b
      · simp [same, Function.comp_def]
      · simp [same, Ne.symm same]

theorem shape_put_each (grid : Grid) (order : List Address) :
    (grid.putEach text order).shape = grid.shape := by
  induction order generalizing grid with
  | nil => rfl
  | cons a order induction => rw [put_each_cons, induction, shape_put]

theorem separator_put_each (grid : Grid) (order : List Address) :
    (grid.putEach text order).separator = grid.separator := by
  induction order generalizing grid with
  | nil => rfl
  | cons a order induction => rw [put_each_cons, induction, separator_put]

end PostfixSheet.Grid

namespace PostfixSheet.Sheet

variable {sheet : Sheet}

/-- A sheet before a pass, and the sheet and the grid of results after it. -/
structure IsSnapshot [CallStack] (before after : Sheet) (output : Grid) : Prop where
  input : after.grid = before.grid
  separator : output.separator = before.grid.separator
  shape : output.shape = before.grid.shape
  cells : ∀ a, output.get? a = (before.grid.get? a).map fun _ =>
    match Evaluation.cell before.grid before.ceiling a with
    | .ok value => Number.text value
    | .error _ => before.errorToken
  failed : ∀ a error, (a, error) ∈ after.failures ↔
    a ∈ before.grid.addresses ∧ Evaluation.cell before.grid before.ceiling a = .error error
  byRow : (after.failures.map Prod.fst).Pairwise (· < ·)
  labels : (after.failures.map fun failure => failure.1.label).Nodup
  anyOrder : ∀ order, order.Perm before.results → before.outputOf order = output
  display : ∀ a ∈ before.grid.addresses, output.get? a = some (before.display a)

theorem set_eq_put (sheet : Sheet) (a : Address) (value : Text) :
    (sheet.set? a value).getD sheet = { sheet with grid := sheet.grid.put a value } := by
  rw [set?, Grid.put]
  cases sheet.grid.set? a value <;> rfl

theorem failures_sublist (results : List (Address × Except EvalError Float)) :
    ((failuresOf results).map Prod.fst).Sublist (results.map Prod.fst) := by
  induction results with
  | nil => exact .slnil
  | cons entry results induction =>
      obtain ⟨a, result⟩ := entry
      cases result with
      | ok value => exact induction.cons a
      | error error => exact induction.cons_cons a

variable [CallStack]

theorem output_of_eq {results : List (Address × Except EvalError Float)}
    (own : ∀ entry ∈ results, entry.2 = sheet.evaluate entry.1) :
    sheet.outputOf results = sheet.grid.putEach sheet.display (results.map Prod.fst) := by
  have fold : ∀ grid : Grid,
      results.foldl (fun grid entry => grid.put entry.1 (sheet.textOf entry.2)) grid =
        grid.putEach sheet.display (results.map Prod.fst) := by
    induction results with
    | nil => exact fun grid => rfl
    | cons entry results induction =>
        intro grid
        have first : entry.2 = sheet.evaluate entry.1 := own entry (by simp)
        have further := induction fun other member => own other (by simp [member])
        rw [List.foldl_cons, further, List.map_cons, Grid.put_each_cons, display, ← first]
  exact fold sheet.grid

theorem eq_evaluate_of_mem_results {entry : Address × Except EvalError Float}
    (member : entry ∈ sheet.results) : entry.2 = sheet.evaluate entry.1 := by
  obtain ⟨a, _, rfl⟩ := List.mem_map.mp member
  rfl

theorem results_addresses : sheet.results.map Prod.fst = sheet.grid.addresses := by
  simp [results, Function.comp_def]

/-- A pass writes what each cell of the input grid shows. -/
theorem pass_output (sheet : Sheet) :
    sheet.pass.output = sheet.grid.putEach sheet.display sheet.grid.addresses := by
  rw [← results_addresses]
  exact output_of_eq fun _ => eq_evaluate_of_mem_results

theorem get_output (a : Address) :
    sheet.pass.output.get? a = (sheet.grid.get? a).map fun _ => sheet.display a := by
  rw [pass_output, Grid.get_put_each]
  split
  · rfl
  · next outside =>
    rw [Grid.mem_addresses_iff] at outside
    cases found : sheet.grid.get? a with
    | none => rfl
    | some text => exact absurd ⟨text, found⟩ outside

theorem output_of_perm {order : List (Address × Except EvalError Float)}
    (perm : order.Perm sheet.results) : sheet.outputOf order = sheet.pass.output := by
  have own : ∀ entry ∈ order, entry.2 = sheet.evaluate entry.1 :=
    fun entry member => eq_evaluate_of_mem_results (perm.mem_iff.mp member)
  rw [output_of_eq own, pass_output]
  apply Grid.eq_of_get
  · rw [Grid.separator_put_each, Grid.separator_put_each]
  · rw [Grid.shape_put_each, Grid.shape_put_each]
  · intro a
    rw [Grid.get_put_each, Grid.get_put_each]
    have members : a ∈ order.map Prod.fst ↔ a ∈ sheet.grid.addresses := by
      rw [← results_addresses]
      exact (perm.map Prod.fst).mem_iff
    simp only [members]

theorem mem_failures_iff {a : Address} {error : EvalError} :
    (a, error) ∈ sheet.pass.sheet.failures ↔
      a ∈ sheet.grid.addresses ∧ sheet.evaluate a = .error error := by
  change (a, error) ∈ failuresOf sheet.results ↔ _
  simp only [failuresOf, results, List.mem_filterMap, List.mem_map, Prod.exists]
  constructor
  · rintro ⟨b, result, ⟨c, inside, same⟩, failed⟩
    obtain ⟨rfl, rfl⟩ := Prod.mk.inj same
    split at failed
    · cases failed
    · next found =>
      cases failed
      exact ⟨inside, found⟩
  · rintro ⟨inside, failed⟩
    exact ⟨a, sheet.evaluate a, ⟨a, inside, rfl⟩, by rw [failed]⟩

theorem failures_sorted : (sheet.pass.sheet.failures.map Prod.fst).Pairwise (· < ·) := by
  have listed := failures_sublist sheet.results
  rw [results_addresses] at listed
  exact sheet.grid.addresses_sorted.sublist listed

theorem failures_labels : (sheet.pass.sheet.failures.map fun failure => failure.1.label).Nodup := by
  rw [List.Nodup, List.pairwise_map]
  refine (List.pairwise_map.mp failures_sorted).imp ?_
  intro one other less same
  rw [Address.label_injective same, Address.lt_iff] at less
  omega

theorem pass_is_snapshot (sheet : Sheet) :
    IsSnapshot sheet sheet.pass.sheet sheet.pass.output where
  input := rfl
  separator := by rw [pass_output, Grid.separator_put_each]
  shape := by rw [pass_output, Grid.shape_put_each]
  cells := get_output
  failed _ _ := mem_failures_iff
  byRow := failures_sorted
  labels := failures_labels
  anyOrder _ := output_of_perm
  display a inside := by
    obtain ⟨text, found⟩ := Grid.mem_addresses_iff.mp inside
    rw [get_output, found, Option.map_some]

end PostfixSheet.Sheet
