import PostfixSheet.Proofs.Evaluation.Cycle

/-!
# A cell from the cells it refers to

Where the ceiling exceeds the number of cells, a cell ends as its text does when every reference in
it stands for what the referenced cell ends with on its own. There are two differences. The rounds
that cycle errors report start where the evaluation came round again. And the referenced cells stand
deeper than they do on their own, so the call stack may run out for the one and not for the others,
or, where they come round to the cell, for the others and not for the one.
-/

namespace PostfixSheet.Evaluation

open Relation (ReflTransGen TransGen)

variable {grid : Grid} {ceiling : Ceiling} {room : Room} {remaining : Nat} {a b : Address}

/-- The blocking references lead from the cell back to one of the cells on the way. -/
def Loops (grid : Grid) (a : Address) : Prop :=
  ∃ trail last, IsTrail grid [] a trail last ∧ last ∈ trail

theorem Loops.of_cycle_error {cells : List Address}
    (failed : cellOnPath grid room remaining [] a = .error (.cycle cells)) : Loops grid a := by
  obtain ⟨trail, last, whole, stops⟩ := recursion_error_trail failed trivial
  cases stops with
  | again seen => exact ⟨trail, last, whole, by simpa using seen⟩

theorem IsTrail.without_path {path trail : List Address} {last : Address}
    (whole : IsTrail grid path a trail last) : IsTrail grid [] a trail last :=
  ⟨whole.starts, whole.linked, whole.distinct, by simp⟩

theorem Loops.next (loops : Loops grid a) : ∃ b, Blocks grid a b ∧ Loops grid b := by
  obtain ⟨trail, last, whole, again⟩ := loops
  cases trail with
  | nil => cases again
  | cons first trail =>
      obtain ⟨rfl, _, b, blocks, further⟩ := whole.uncons
      refine ⟨b, blocks, ?_⟩
      rcases List.mem_cons.mp again with rfl | again
      · -- the way round ends at the cell itself, so it can be walked from the next one on
        refine ⟨trail ++ [last], b, ⟨?_, ?_, ?_, by simp⟩, List.mem_of_mem_head? further.starts⟩
        · rw [List.head?_append, further.starts]
          rfl
        · refine List.isChain_append.mpr ⟨further.linked, .singleton b, ?_⟩
          simpa using blocks
        · have distinct : ([last] ++ trail).Nodup := whole.distinct
          exact List.nodup_append_comm.mp distinct
      · exact ⟨trail, last, further.without_path, again⟩

theorem Loops.of_next (blocks : Blocks grid a b) (loops : Loops grid b) : Loops grid a := by
  obtain ⟨trail, last, whole, again⟩ := loops
  by_cases seen : a ∈ trail
  · obtain ⟨before, after, rfl⟩ := List.append_of_mem seen
    have distinct := List.nodup_append.mp whole.distinct
    have upTo : IsTrail grid [a] b before a := by
      refine ⟨?_, ?_, distinct.1, ?_⟩
      · have starts := whole.starts
        cases before <;> simpa using starts
      · have linked := whole.linked
        rw [List.append_assoc, List.cons_append, List.isChain_split] at linked
        exact linked.1
      · intro c member same
        exact distinct.2.2 c member a (by simp) (List.mem_singleton.mp same)
    exact ⟨a :: before, a, .cons blocks (by simp) upTo, by simp⟩
  · have beside : IsTrail grid [a] b trail last := by
      refine ⟨whole.starts, whole.linked, whole.distinct, ?_⟩
      intro c member same
      rw [List.mem_singleton.mp same] at member
      exact seen member
    exact ⟨a :: trail, last, .cons blocks (by simp) beside, by simp [again]⟩

theorem Loops.cycle_or_limit (loops : Loops grid a) (room : Room) (remaining : Nat) :
    (∃ cells, cells ≠ [] ∧ cellOnPath grid room remaining [] a = .error (.cycle cells)) ∨
      ∃ error, cellOnPath grid room remaining [] a = .error error ∧ error.IsLimit := by
  obtain ⟨trail, last, whole, again⟩ := loops
  rcases whole.leads_round (by simpa using again) (by simp) room remaining with
    round | stopped
  · exact .inl ⟨_, by simp, round⟩
  · exact .inr stopped

theorem Loops.run_cycle_or_limit (loops : Loops grid a) {text : Text}
    (found : grid.get? a = some text) (room : Room) (remaining : Nat) :
    (∃ cells, Machine.run (answerOnPath grid room remaining []) (Token.scan text) =
        .error (.cycle cells)) ∨
      ∃ error, Machine.run (answerOnPath grid room remaining []) (Token.scan text) =
        .error error ∧ error.IsLimit := by
  obtain ⟨b, blocks, further⟩ := loops.next
  rcases further.cycle_or_limit room remaining with ⟨cells, _, failed⟩ | ⟨error, failed, limit⟩
  · rcases blocks.run_passes_on found (by simp) failed with passed | stopped
    · exact .inl ⟨cells, passed⟩
    · exact .inr stopped
  · rcases blocks.run_passes_on found (by simp) failed with passed | stopped
    · exact .inr ⟨error, passed, limit⟩
    · exact .inr stopped

/-- A text that is given up at a reference of a cell is given up in that cell too, if it does not
come round before. -/
theorem recursion_error_of_run_exhausted {text : Text} (found : grid.get? a = some text)
    (other : Nat) {depth : Nat} (failed : Machine.run (answerOnPath grid room remaining [])
      (Token.scan text) = .error (.exhausted depth)) :
    ∃ error, cellOnPath grid room other [] a = .error error ∧ error.IsRecursion := by
  rcases Machine.run_error_cases failed with own | stopped
  · exact own.elim
  obtain ⟨b, blocks, failedNext⟩ := blocks_of_fails_at found stopped trivial
  obtain ⟨trail, last, whole, stops⟩ := recursion_error_trail failedNext trivial
  cases stops with
  | exhausted _ _ unread _ =>
      have linked : (a :: trail ++ [last]).IsChain (Blocks grid) := by
        refine List.isChain_cons.mpr ⟨?_, whole.linked⟩
        intro c first
        obtain rfl : b = c := Option.some.inj (whole.starts.symm.trans first)
        exact blocks
      have unread : Unread grid room (([] : List Address).length + (a :: trail).length) last :=
        unread.mono (Nat.add_le_add_left (Nat.le_succ trail.length) _)
      exact guard_of_long_chain rfl linked unread (by simp) other

section Composing

variable [CallStack]

/-- References stand for what the referenced cells end with on their own. -/
def separateAnswer (grid : Grid) (ceiling : Ceiling) : Machine.Answer :=
  fun label address => match address with
    | none => .error (.missingCell label)
    | some b => cell grid ceiling b

theorem separate_answer_eq :
    separateAnswer grid ceiling = answerOnPath grid CallStack.room ceiling.cells [] := by
  funext label address
  cases address <;> rfl

/-- What the text of a cell ends with if the references in it stand for separate evaluations. -/
def composed (grid : Grid) (ceiling : Ceiling) (text : Text) : Except EvalError Float :=
  Machine.run (separateAnswer grid ceiling) (Token.scan text)

/-- The call stack holds fewer cells than there are, and it has run out in this one. -/
def GivesUp (grid : Grid) (ceiling : Ceiling) (a : Address) : Prop :=
  CallStack.room.cells < grid.addresses.length ∧
    cell grid ceiling a = .error (.exhausted (CallStack.room.cells + 1))

theorem GivesUp.of_exhausted {depth : Nat}
    (failed : cell grid ceiling a = .error (.exhausted depth)) : GivesUp grid ceiling a := by
  obtain ⟨rfl, bound⟩ := exhausted_within_cells failed
  exact ⟨bound, failed⟩

theorem composed_agree {text : Text} (found : grid.get? a = some text) :
    Machine.Agree EvalError.IsRecursion EvalError.IsRecursion
      (composed grid ceiling text) (cell grid ceiling a) := by
  obtain ⟨below, same⟩ := Nat.exists_eq_succ_of_ne_zero ceiling.pos.ne'
  have unfolded : cell grid ceiling a =
      Machine.run (answerOnPath grid CallStack.room below [a]) (Token.scan text) := by
    rw [cell, same, Nat.succ_eq_add_one, cell_on_path_succ List.not_mem_nil, found]
    exact if_pos (CallStack.bound_pos _)
  rw [unfolded, composed, separate_answer_eq]
  apply Machine.run_agree
  intro label address _
  apply answer_on_path_agree
  exact cell_on_path_agree CallStack.room ceiling.cells below [] [a]

section Roomy

variable (roomy : grid.addresses.length < ceiling.cells)

include roomy

omit [CallStack] in
theorem not_too_deep {depth : Nat} :
    cellOnPath grid room ceiling.cells [] a ≠ .error (.tooDeep depth) := by
  intro failed
  have bound := too_deep_within_cells (by simp) .nil failed
  rw [List.length_nil] at bound
  omega

omit [CallStack] in
theorem run_not_too_deep {tokens : List Token} {depth : Nat} :
    Machine.run (answerOnPath grid room ceiling.cells []) tokens ≠ .error (.tooDeep depth) := by
  intro failed
  obtain ⟨_, b, _, failed⟩ := run_recursion_error failed trivial
  exact not_too_deep roomy failed

theorem gives_up_of_limit {error : EvalError} (failed : cell grid ceiling a = .error error)
    (limit : error.IsLimit) : GivesUp grid ceiling a := by
  rcases limit.cases with ⟨depth, rfl⟩ | ⟨depth, rfl⟩
  · exact absurd failed (not_too_deep roomy)
  · exact .of_exhausted failed

theorem composed_exhausted_of_limit {text : Text} {error : EvalError}
    (failed : composed grid ceiling text = .error error) (limit : error.IsLimit) :
    ∃ depth, error = .exhausted depth := by
  rcases limit.cases with ⟨depth, rfl⟩ | exhausted
  · rw [composed, separate_answer_eq] at failed
    exact absurd failed (run_not_too_deep roomy)
  · exact exhausted

/-- A text that is stopped neither for a cycle nor for a limit ends as its cell does. -/
theorem cell_eq_composed {text : Text} (found : grid.get? a = some text)
    (apart : ∀ error, composed grid ceiling text = .error error → ¬error.IsRecursion) :
    cell grid ceiling a = composed grid ceiling text ∨ GivesUp grid ceiling a := by
  rcases composed_agree found with same | ⟨error, failed, guard⟩ | ⟨error, failed, guard⟩
  · exact .inl same.symm
  · exact absurd guard (apart error failed)
  rcases guard.cases with ⟨cells, rfl⟩ | limit
  · have loops : Loops grid a := .of_cycle_error failed
    rw [composed, separate_answer_eq] at apart
    rcases loops.run_cycle_or_limit found CallStack.room ceiling.cells with
      ⟨cells, stopped⟩ | ⟨error, stopped, limit⟩
    · exact absurd trivial (apart _ stopped)
    · exact absurd limit.is_recursion (apart error stopped)
  · exact .inr (gives_up_of_limit roomy failed limit)

end Roomy

end Composing

end PostfixSheet.Evaluation
