import PostfixSheet.Proofs.Evaluation.Agreement
import PostfixSheet.Proofs.Sheet.Snapshot

/-!
# What a cell depends on

An evaluation looks at the cell it starts from and at those that references lead to from there. Two
grids that show the same texts at these addresses may differ in everything else, in their shape too:
the cell ends alike on both. An edit is therefore seen only in the cells that lead to the edited
one, and these are the same cells before the edit and after it.
-/

namespace PostfixSheet

namespace Evaluation

variable {grid other : Grid}

theorem cell_on_path_local {room : Room} {remaining : Nat} {path : List Address} {a : Address}
    (same : ∀ b, Reaches grid a b → other.get? b = grid.get? b) :
    cellOnPath other room remaining path a = cellOnPath grid room remaining path a := by
  induction remaining generalizing path a with
  | zero =>
      by_cases again : a ∈ path
      · exact cell_on_path_again again 0 0 room
      · rw [cell_on_path_zero again, cell_on_path_zero again]
  | succ remaining induction =>
      by_cases again : a ∈ path
      · exact cell_on_path_again again (remaining + 1) (remaining + 1) room
      · rw [cell_on_path_succ again, cell_on_path_succ again, same a .refl]
        cases found : grid.get? a with
        | none => rfl
        | some text =>
            have read : Machine.run (answerOnPath other room remaining (path ++ [a]))
                (Token.scan text) =
                  Machine.run (answerOnPath grid room remaining (path ++ [a])) (Token.scan text) := by
              apply Machine.run_congr
              intro label address member
              cases address with
              | none => rfl
              | some next =>
                  have refers : References grid a next := ⟨text, label, found, member⟩
                  apply induction
                  intro b reached
                  exact same b (.head refers reached)
            simp only [read]

theorem References.of_same_text {a b : Address} (refers : References grid a b)
    (same : other.get? a = grid.get? a) : References other a b := by
  obtain ⟨text, label, found, member⟩ := refers
  exact ⟨text, label, same.trans found, member⟩

/-- What leads to a cell does not depend on the text of that cell. -/
theorem reaches_of_same_elsewhere {a target : Address}
    (same : ∀ b, b ≠ target → other.get? b = grid.get? b) (reached : Reaches grid a target) :
    Reaches other a target := by
  induction reached using Relation.ReflTransGen.head_induction_on with
  | refl => exact .refl
  | @head b c refers _ induction =>
      by_cases arrived : b = target
      · rw [arrived]
      · exact .head (refers.of_same_text (same b arrived)) induction

end Evaluation

namespace Grid

theorem get_put_of_ne {grid : Grid} {a b : Address} (different : b ≠ a) (value : Text) :
    (grid.put a value).get? b = grid.get? b := by
  rw [get_put, if_neg different.symm]

theorem reaches_put_iff {grid : Grid} {a target : Address} {value : Text} :
    Evaluation.Reaches (grid.put target value) a target ↔ Evaluation.Reaches grid a target := by
  constructor
  · apply Evaluation.reaches_of_same_elsewhere
    intro b different
    exact (get_put_of_ne different value).symm
  · apply Evaluation.reaches_of_same_elsewhere
    intro b different
    exact get_put_of_ne different value

end Grid

namespace Sheet

/-- Two passes show and record the same at a cell. -/
structure Pass.SameAt (one other : Pass) (a : Address) : Prop where
  shown : one.output.get? a = other.output.get? a
  recorded : ∀ error, (a, error) ∈ one.sheet.failures ↔ (a, error) ∈ other.sheet.failures

theorem pass_same_at [CallStack] {one other : Sheet} {a : Address}
    (inside : one.grid.get? a = other.grid.get? a)
    (result : one.evaluate a = other.evaluate a) (errorToken : one.errorToken = other.errorToken) :
    one.pass.SameAt other.pass a where
  shown := by
    rw [get_output, get_output, inside, display, display, result]
    unfold textOf
    rw [errorToken]
  recorded := by
    intro error
    rw [mem_failures_iff, mem_failures_iff, Grid.mem_addresses_iff, Grid.mem_addresses_iff, inside,
      result]

end Sheet

/-- A cell ends with the same on all grids that agree where references lead to from it. Editing a
cell, or trying to, changes what a pass shows and records only for the cells that lead to it, and it
does not change which ones these are. -/
theorem result_is_local [CallStack] :
    (∀ (grid other : Grid) (ceiling : Ceiling) (a : Address),
      (∀ b, Evaluation.Reaches grid a b → other.get? b = grid.get? b) →
        Evaluation.cell other ceiling a = Evaluation.cell grid ceiling a) ∧
    ∀ (sheet : Sheet) (target : Address) (value : Text),
      let edited := (sheet.set? target value).getD sheet
      ∀ a, (Evaluation.Reaches edited.grid a target ↔ Evaluation.Reaches sheet.grid a target) ∧
        (¬Evaluation.Reaches sheet.grid a target → edited.pass.SameAt sheet.pass a) := by
  constructor
  · intro grid other ceiling a same
    exact Evaluation.cell_on_path_local same
  · intro sheet target value edited a
    have editedEq : edited = { sheet with grid := sheet.grid.put target value } :=
      sheet.set_eq_put target value
    rw [editedEq]
    refine ⟨Grid.reaches_put_iff, ?_⟩
    intro apart
    have same : ∀ b, Evaluation.Reaches sheet.grid a b →
        (sheet.grid.put target value).get? b = sheet.grid.get? b := by
      intro b reached
      apply Grid.get_put_of_ne
      rintro rfl
      exact apart reached
    exact Sheet.pass_same_at (same a .refl) (Evaluation.cell_on_path_local same) rfl

/-- The first cell refers to the second, and the third to the first. -/
def discountSheet : Grid := ⟨[["b1 4 *".toList, "2".toList, "A1 1 -".toList]], .comma⟩

/-- The same up to the third cell, with another shape. -/
def reorderedSheet : Grid := ⟨[["b1 4 *".toList, "2".toList], ["B1".toList]], .comma⟩

theorem discount_reaches {b : Address} (reached : Evaluation.Reaches discountSheet ⟨0, 0⟩ b) :
    b = ⟨0, 0⟩ ∨ b = ⟨1, 0⟩ := by
  induction reached with
  | refl => exact .inl rfl
  | @tail _ c _ refers here =>
      obtain ⟨text, label, found, member⟩ := refers
      rcases here with rfl | rfl
      · obtain rfl : "b1 4 *".toList = text := Option.some.inj found
        obtain ⟨four, scanned⟩ : ∃ four, Token.scan "b1 4 *".toList =
            [.reference "B1".toList (some ⟨1, 0⟩), .number ['4'] four, .operator .times] := ⟨_, rfl⟩
        have same : Token.reference label (some c) = .reference "B1".toList (some ⟨1, 0⟩) := by
          rw [scanned] at member
          simpa using member
        exact .inr (Option.some.inj (Token.reference.inj same).2)
      · obtain rfl : "2".toList = text := Option.some.inj found
        obtain ⟨two, scanned⟩ : ∃ two, Token.scan "2".toList = [.number ['2'] two] := ⟨_, rfl⟩
        rw [scanned] at member
        exact absurd member (by simp)

theorem discount_ends_alike :
    (∀ b, Evaluation.Reaches discountSheet ⟨0, 0⟩ b → reorderedSheet.get? b = discountSheet.get? b) ∧
      Evaluation.cell reorderedSheet .standard ⟨0, 0⟩ =
        Evaluation.cell discountSheet .standard ⟨0, 0⟩ ∧
      ¬Evaluation.Reaches discountSheet ⟨0, 0⟩ ⟨2, 0⟩ ∧
      let sheet := Sheet.ofGrid discountSheet .standard Sheet.standardErrorToken
      ((sheet.set? ⟨2, 0⟩ "A1 0 /".toList).getD sheet).pass.SameAt sheet.pass ⟨0, 0⟩ := by
  have same : ∀ b, Evaluation.Reaches discountSheet ⟨0, 0⟩ b →
      reorderedSheet.get? b = discountSheet.get? b := by
    intro b reached
    rcases discount_reaches reached with rfl | rfl <;> rfl
  have apart : ¬Evaluation.Reaches discountSheet ⟨0, 0⟩ ⟨2, 0⟩ := by
    intro reached
    have here := discount_reaches reached
    revert here
    decide
  exact ⟨same, result_is_local.1 discountSheet reorderedSheet .standard ⟨0, 0⟩ same, apart,
    (result_is_local.2 (Sheet.ofGrid discountSheet .standard Sheet.standardErrorToken) ⟨2, 0⟩
      "A1 0 /".toList ⟨0, 0⟩).2 apart⟩

end PostfixSheet
