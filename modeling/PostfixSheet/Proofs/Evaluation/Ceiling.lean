import PostfixSheet.Proofs.Evaluation.BottomUp
import PostfixSheet.Proofs.Evaluation.Composition

/-!
# What the limits refuse

The ceiling is asked where a cell is about to be entered: after the cells on the path have been
looked at, before the grid is. The call stack runs out later, when the text of the cell is to be
read. An evaluation with more room goes the same way up to the place where the other was refused, so
whatever else that one ended with, it ends with too. And a refusal is exact. As many cells have been
entered as the lower of the two limits allows, all of them different and each referring to the next,
so the grid has at least that many.
-/

namespace PostfixSheet.Evaluation

variable {grid : Grid} {ceiling : Ceiling} {room : Room}

/-- An evaluation with more room ends alike, unless the one with less is stopped by a limit that the
other does not have. -/
theorem cell_on_path_agree_above {stopped : EvalError → Prop} {wider : Room} {fewer more : Nat}
    (allowed : fewer = more ∨ fewer ≤ more ∧ ∀ depth, stopped (.tooDeep depth))
    (fits : room = wider ∨ room.Within wider ∧ ∀ depth, stopped (.exhausted depth))
    (path : List Address) (a : Address) :
    Machine.Agree stopped (fun _ => False) (cellOnPath grid room fewer path a)
      (cellOnPath grid wider more path a) := by
  induction fewer generalizing more path a with
  | zero =>
      by_cases again : a ∈ path
      · exact .inl (cell_on_path_again again 0 more wider)
      rcases allowed with rfl | ⟨_, known⟩
      · exact .inl ((cell_on_path_zero again).trans (cell_on_path_zero again).symm)
      · exact .inr (.inl ⟨_, cell_on_path_zero again, known _⟩)
  | succ fewer induction =>
      by_cases again : a ∈ path
      · exact .inl (cell_on_path_again again (fewer + 1) more wider)
      obtain ⟨more, rfl⟩ : ∃ before, more = before + 1 :=
        Nat.exists_eq_succ_of_ne_zero (by omega)
      rw [cell_on_path_succ again, cell_on_path_succ again]
      cases grid.get? a with
      | none => exact .inl rfl
      | some text =>
          have allowed : fewer = more ∨ fewer ≤ more ∧ ∀ depth, stopped (.tooDeep depth) :=
            allowed.imp Nat.succ.inj (And.imp_left Nat.le_of_succ_le_succ)
          have bound : room.bound (Token.scan text) ≤ wider.bound (Token.scan text) := by
            rcases fits with rfl | ⟨within, _⟩
            · exact Nat.le_refl _
            · exact within.bound_le (Token.scan text)
          by_cases space : path.length < room.bound (Token.scan text)
          · have wide := Nat.lt_of_lt_of_le space bound
            simp only [space, wide, if_true]
            apply Machine.run_agree
            intro label address _
            apply answer_on_path_agree
            exact induction allowed (path ++ [a])
          · rcases fits with rfl | ⟨_, known⟩
            · simp only [space, if_false]
              exact .inl rfl
            · exact .inr (.inl ⟨_, if_neg space, known _⟩)

section Higher

variable [CallStack]

theorem cell_agree_above {low high : Ceiling} (higher : low.cells ≤ high.cells) (a : Address) :
    Machine.Agree (fun error => ∃ depth, error = .tooDeep depth) (fun _ => False)
      (cell grid low a) (cell grid high a) :=
  cell_on_path_agree_above (.inr ⟨higher, fun depth => ⟨depth, rfl⟩⟩) (.inl rfl) [] a

theorem expression_agree_above {low high : Ceiling} (higher : low.cells ≤ high.cells) (text : Text) :
    Machine.Agree (fun error => ∃ depth, error = .tooDeep depth) (fun _ => False)
      (expression grid low text) (expression grid high text) := by
  apply Machine.run_agree
  intro label address _
  apply answer_on_path_agree
  exact cell_on_path_agree_above (.inr ⟨higher, fun depth => ⟨depth, rfl⟩⟩) (.inl rfl) []

/-- A reference of a text that stands in no cell stands for what the cell ends with, unless the call
stack runs out below the text. -/
theorem cell_answer_agree (grid : Grid) (ceiling : Ceiling) (label : Text) (a : Address) :
    Machine.Agree (fun error => ∃ depth, error = .exhausted depth) (fun _ => False)
      (cellAnswer grid ceiling label (some a)) (cell grid ceiling a) :=
  cell_on_path_agree_above (.inl rfl)
    (.inr ⟨CallStack.room_in_text_within, fun depth => ⟨depth, rfl⟩⟩) [] a

/-- The ceiling only refuses: an evaluation that it lets end, with a value or with any other error,
ends alike under every higher ceiling. -/
theorem higher_ceiling_keeps_answer (grid : Grid) (low high : Ceiling)
    (higher : low.cells ≤ high.cells) :
    (∀ a, (∀ depth, cell grid low a ≠ .error (.tooDeep depth)) →
      cell grid high a = cell grid low a) ∧
    (∀ text, (∀ depth, expression grid low text ≠ .error (.tooDeep depth)) →
      expression grid high text = expression grid low text) := by
  constructor
  · intro a allowed
    apply (cell_agree_above higher a).eq_of_other
    rintro _ ⟨depth, rfl⟩
    exact allowed depth
  · intro text allowed
    apply (expression_agree_above higher text).eq_of_other
    rintro _ ⟨depth, rfl⟩
    exact allowed depth

end Higher

/-- The first cell leads into a round of the two others. Three cells are entered before the round
closes, which is as many as the lower ceiling allows. -/
theorem round_kept_under_standard_ceiling :
    3 ≤ Ceiling.standard.cells ∧
      cell roundSheet ⟨3, by decide⟩ ⟨0, 0⟩ = .error (.cycle [⟨1, 0⟩, ⟨2, 0⟩, ⟨1, 0⟩]) ∧
      cell roundSheet .standard ⟨0, 0⟩ = cell roundSheet ⟨3, by decide⟩ ⟨0, 0⟩ ∧
      expression roundSheet .standard "4 a1 +".toList =
        expression roundSheet ⟨3, by decide⟩ "4 a1 +".toList := by
  have higher : 3 ≤ Ceiling.standard.cells := by decide
  have closed : cell roundSheet ⟨3, by decide⟩ ⟨0, 0⟩ =
      .error (.cycle [⟨1, 0⟩, ⟨2, 0⟩, ⟨1, 0⟩]) := by decide +kernel
  have passedOn : expression roundSheet ⟨3, by decide⟩ "4 a1 +".toList =
      .error (.cycle [⟨1, 0⟩, ⟨2, 0⟩, ⟨1, 0⟩]) := by decide +kernel
  have kept := higher_ceiling_keeps_answer roundSheet ⟨3, by decide⟩ .standard higher
  refine ⟨higher, closed, kept.1 ⟨0, 0⟩ ?_, kept.2 "4 a1 +".toList ?_⟩
  · rw [closed]
    intro depth other
    cases other
  · rw [passedOn]
    intro depth other
    cases other

/-- A chain of references from a cell on that has one more cell than a bound allows. All of its
cells are different, and those up to the bound are cells of the grid. -/
structure IsOverrun (grid : Grid) (bound : Nat) (a : Address) (chain : List Address) : Prop where
  starts : chain.head? = some a
  length : chain.length = bound + 1
  distinct : chain.Nodup
  inside : ∀ b ∈ chain.take bound, ∃ text, grid.get? b = some text
  linked : chain.IsChain (References grid)

theorem IsTrail.is_overrun {trail : List Address} {a last : Address}
    (whole : IsTrail grid [] a trail last) (outside : last ∉ trail) :
    IsOverrun grid trail.length a (trail ++ [last]) where
  starts := whole.starts
  length := List.length_append
  distinct := List.nodup_append_comm.mp (List.nodup_cons.mpr ⟨outside, whole.distinct⟩)
  inside := by
    intro b member
    rw [List.take_left] at member
    exact Grid.mem_addresses_iff.mp (whole.inside member)
  linked := whole.references

/-- What a refusal of an evaluation from a cell on says. It names the ceiling, or one cell more than
there is room for, and there is a chain of references that is one cell too long for it; where the
stack has run out, all cells of the chain are those of the grid. -/
inductive Refuses (grid : Grid) (room : Room) (ceiling : Ceiling) (a : Address) : EvalError → Prop
  | tooDeep (low : ceiling.cells ≤ room.cells) (chain : List Address)
      (overrun : IsOverrun grid ceiling.cells a chain) :
      Refuses grid room ceiling a (.tooDeep ceiling.cells)
  | exhausted (high : room.cells < ceiling.cells) (chain : List Address)
      (overrun : IsOverrun grid room.cells a chain)
      (inside : ∀ b ∈ chain, ∃ text, grid.get? b = some text) :
      Refuses grid room ceiling a (.exhausted (room.cells + 1))

theorem refuses_of_limit {a : Address} {error : EvalError}
    (refused : cellOnPath grid room ceiling.cells [] a = .error error) (limit : error.IsLimit) :
    Refuses grid room ceiling a error := by
  obtain ⟨trail, last, whole, stops⟩ := recursion_error_trail refused limit.is_recursion
  cases stops with
  | again _ => exact limit.elim
  | tooDeep outside used fits =>
      rw [List.length_nil, Nat.zero_add, used, Nat.max_zero] at fits
      have overrun := whole.is_overrun outside
      rw [used] at overrun
      rw [List.length_nil, Nat.zero_add]
      exact .tooDeep fits _ overrun
  | exhausted outside left unread full =>
      rw [List.length_nil, Nat.zero_add, Nat.max_zero] at full
      have overrun := whole.is_overrun outside
      rw [full] at overrun left
      rw [List.length_nil, Nat.max_zero]
      refine .exhausted left _ overrun ?_
      intro b member
      rcases List.mem_append.mp member with member | member
      · exact Grid.mem_addresses_iff.mp (whole.inside member)
      · obtain rfl := List.mem_singleton.mp member
        exact Grid.mem_addresses_iff.mp unread.inside

theorem not_limit_of_roomy {a : Address} {error : EvalError}
    (roomy : grid.addresses.length < ceiling.cells) (fits : grid.addresses.length ≤ room.cells)
    (failed : cellOnPath grid room ceiling.cells [] a = .error error) : ¬error.IsLimit := by
  intro limit
  rcases limit.cases with ⟨depth, rfl⟩ | ⟨depth, rfl⟩
  · exact not_too_deep roomy failed
  · have bound := (exhausted_within_cells failed).2
    omega

/-- A chain of three cells that goes on to a place outside of the grid. -/
def ladderSheet : Grid := ⟨[["B1".toList, "c01 1 +".toList, "2 D1 *".toList]], .comma⟩

end PostfixSheet.Evaluation
