import PostfixSheet.Proofs.Evaluation.Agreement

/-!
# The trail to the recursion guard

A cell without a value has at most one reference at which its evaluation is stopped by the guard:
the first one behind references with values. Which reference that is does not depend on the path, so
the cells that an evaluation enters before the guard stops it form a trail of the grid. The trail
can be read off the error, and an evaluation follows any trail that is laid out for it.
-/

namespace PostfixSheet.Evaluation

open Relation (ReflTransGen TransGen)

variable {grid : Grid} {room : Room}

/-- The run of the first cell comes to a reference to the second, the references before it having
values with which the machine gets that far. -/
def Blocks (grid : Grid) (a b : Address) : Prop :=
  ∃ text front label back answer reached,
    grid.get? a = some text ∧ Token.scan text = front ++ .reference label (some b) :: back ∧
      Machine.runFrom answer [] front = .ok reached ∧
      ∀ label address, .reference label address ∈ front →
        ∃ c value, address = some c ∧ answer label address = .ok value ∧ HasValue grid c value

theorem Blocks.references {a b : Address} (blocks : Blocks grid a b) : References grid a b := by
  obtain ⟨text, front, label, back, _, _, found, split, _⟩ := blocks
  exact ⟨text, label, found, by simp [split]⟩

theorem chain_of_blocks {cells : List Address} (linked : cells.IsChain (Blocks grid)) :
    cells.IsChain (References grid) :=
  linked.imp fun _ _ => Blocks.references

/-- A run that the guard stops at a reference inside a cell is blocked there. -/
theorem blocks_of_fails_at {remaining : Nat} {path : List Address} {a : Address} {text : Text}
    {error : EvalError} (found : grid.get? a = some text)
    (stopped : Machine.FailsAt (answerOnPath grid room remaining path) [] (Token.scan text) error)
    (guard : error.IsRecursion) :
    ∃ b, Blocks grid a b ∧ cellOnPath grid room remaining path b = .error error := by
  obtain ⟨front, label, address, back, reached, split, before, failed⟩ := stopped
  cases address with
  | none =>
      rw [answer_on_path_none] at failed
      cases failed
      exact guard.elim
  | some b =>
      refine ⟨b, ⟨text, front, label, back, _, reached, found, split, before, ?_⟩, failed⟩
      intro label address member
      obtain ⟨value, answered⟩ := Machine.run_from_ok_answers before member
      obtain ⟨c, rfl, evaluated⟩ := answer_on_path_ok answered
      exact ⟨c, value, rfl, answered, room, remaining, path, evaluated⟩

/-- The text of a cell cannot be read below so many others. -/
def Unread (grid : Grid) (room : Room) (entered : Nat) (a : Address) : Prop :=
  ∃ text, grid.get? a = some text ∧ room.bound (Token.scan text) ≤ entered

theorem Unread.inside {entered : Nat} {a : Address} (unread : Unread grid room entered a) :
    a ∈ grid.addresses := by
  obtain ⟨text, found, _⟩ := unread
  exact Grid.mem_addresses_iff.mpr ⟨text, found⟩

theorem Unread.mono {entered more : Nat} {a : Address} (unread : Unread grid room entered a)
    (further : entered ≤ more) : Unread grid room more a := by
  obtain ⟨text, found, full⟩ := unread
  exact ⟨text, found, full.trans further⟩

theorem Unread.cells_le {entered : Nat} {a : Address} (unread : Unread grid room entered a) :
    room.cells ≤ entered := by
  obtain ⟨text, _, full⟩ := unread
  exact (room.cells_le_bound (Token.scan text)).trans full

theorem recursion_error_cases {remaining : Nat} {path : List Address} {a : Address}
    {error : EvalError} (failed : cellOnPath grid room remaining path a = .error error)
    (guard : error.IsRecursion) :
    (a ∈ path ∧ error = .cycle (path.dropWhile (· != a) ++ [a])) ∨
      (a ∉ path ∧ remaining = 0 ∧ error = .tooDeep path.length) ∨
      (a ∉ path ∧ remaining ≠ 0 ∧ Unread grid room path.length a ∧
        error = .exhausted (path.length + 1)) ∨
      ∃ below b, remaining = below + 1 ∧ a ∉ path ∧ path.length < room.cells ∧ Blocks grid a b ∧
        cellOnPath grid room below (path ++ [a]) b = .error error := by
  by_cases again : a ∈ path
  · rw [cell_on_path_of_mem again] at failed
    exact .inl ⟨again, (Except.error.inj failed).symm⟩
  cases remaining with
  | zero =>
      rw [cell_on_path_zero again] at failed
      exact .inr (.inl ⟨again, rfl, (Except.error.inj failed).symm⟩)
  | succ below =>
      rw [cell_on_path_succ again] at failed
      cases found : grid.get? a with
      | none =>
          rw [found] at failed
          cases failed
          exact guard.elim
      | some text =>
          rw [found] at failed
          simp only at failed
          by_cases space : path.length < room.bound (Token.scan text)
          · rw [if_pos space] at failed
            rcases Machine.run_error_cases failed with own | stopped
            · exact absurd guard (EvalError.not_is_recursion_of_is_own own)
            · obtain ⟨b, blocks, failedNext⟩ := blocks_of_fails_at found stopped guard
              have space : path.length < room.cells := blocks.references.bound found ▸ space
              exact .inr (.inr (.inr ⟨below, b, rfl, again, space, blocks, failedNext⟩))
          · rw [if_neg space] at failed
            have unread : Unread grid room path.length a := ⟨text, found, Nat.le_of_not_lt space⟩
            exact .inr (.inr (.inl ⟨again, Nat.succ_ne_zero below, unread,
              (Except.error.inj failed).symm⟩))

/-- The cells that are entered from a cell on, none of them twice or on the path already, and the
address that is asked for last and not entered. -/
structure IsTrail (grid : Grid) (path : List Address) (a : Address) (trail : List Address)
    (last : Address) : Prop where
  starts : (trail ++ [last]).head? = some a
  linked : (trail ++ [last]).IsChain (Blocks grid)
  distinct : trail.Nodup
  fresh : ∀ b ∈ trail, b ∉ path

theorem IsTrail.nil (path : List Address) (a : Address) : IsTrail grid path a [] a :=
  ⟨rfl, .singleton a, .nil, by simp⟩

theorem IsTrail.cons {path trail : List Address} {a b last : Address} (blocks : Blocks grid a b)
    (unseen : a ∉ path) (further : IsTrail grid (path ++ [a]) b trail last) :
    IsTrail grid path a (a :: trail) last where
  starts := rfl
  linked := by
    refine List.isChain_cons.mpr ⟨?_, further.linked⟩
    intro c first
    obtain rfl : b = c := Option.some.inj (further.starts.symm.trans first)
    exact blocks
  distinct := by
    refine List.nodup_cons.mpr ⟨?_, further.distinct⟩
    intro again
    exact further.fresh a again (by simp)
  fresh := by
    intro c member
    rcases List.mem_cons.mp member with rfl | member
    · exact unseen
    · intro seen
      exact further.fresh c member (List.mem_append_left [a] seen)

theorem IsTrail.uncons {path trail : List Address} {a first last : Address}
    (whole : IsTrail grid path a (first :: trail) last) :
    first = a ∧ a ∉ path ∧ ∃ b, Blocks grid a b ∧ IsTrail grid (path ++ [a]) b trail last := by
  obtain rfl : first = a := Option.some.inj whole.starts
  have unseen : first ∉ path := whole.fresh first (by simp)
  obtain ⟨notLater, distinct⟩ := List.nodup_cons.mp whole.distinct
  have fresh : ∀ c ∈ trail, c ∉ path ++ [first] := by
    intro c member seen
    rcases List.mem_append.mp seen with seen | seen
    · exact whole.fresh c (by simp [member]) seen
    · rw [List.mem_singleton.mp seen] at member
      exact notLater member
  obtain ⟨blocks, linked⟩ := List.isChain_cons.mp whole.linked
  obtain ⟨b, second⟩ := exists_head_append trail last
  exact ⟨rfl, unseen, b, blocks b second, second, linked, distinct, fresh⟩

/-- Where the guard stops an evaluation that has left a trail behind a path and comes to one more
cell: it has met that cell before, no more cells may be entered, or its text can not be read. -/
inductive Stops (grid : Grid) (room : Room) (remaining : Nat) (path trail : List Address)
    (last : Address) : EvalError → Prop
  | again (seen : last ∈ path ++ trail) :
      Stops grid room remaining path trail last
        (.cycle ((path ++ trail).dropWhile (· != last) ++ [last]))
  | tooDeep (unseen : last ∉ path ++ trail) (used : trail.length = remaining)
      (fits : path.length + trail.length ≤ max room.cells path.length) :
      Stops grid room remaining path trail last (.tooDeep (path.length + remaining))
  | exhausted (unseen : last ∉ path ++ trail) (left : trail.length < remaining)
      (unread : Unread grid room (path.length + trail.length) last)
      (full : path.length + trail.length = max room.cells path.length) :
      Stops grid room remaining path trail last (.exhausted (max room.cells path.length + 1))

theorem Stops.again_at_once {remaining : Nat} {path : List Address} {a : Address}
    (seen : a ∈ path) :
    Stops grid room remaining path [] a (.cycle (path.dropWhile (· != a) ++ [a])) := by
  rw [← List.append_nil path] at seen
  have stops : Stops grid room remaining path [] a _ := .again seen
  rwa [List.append_nil] at stops

theorem Stops.cons {remaining : Nat} {path trail : List Address} {a last : Address}
    {error : EvalError} (space : path.length < room.cells)
    (stops : Stops grid room remaining (path ++ [a]) trail last error) :
    Stops grid room (remaining + 1) path (a :: trail) last error := by
  have regroup : path ++ [a] ++ trail = path ++ a :: trail := by simp
  have shift : (path ++ [a]).length + trail.length = path.length + (a :: trail).length := by
    simp only [List.length_append, List.length_cons, List.length_nil]
    omega
  have same : max room.cells (path ++ [a]).length = max room.cells path.length := by
    rw [List.length_append, List.length_singleton, max_eq_left space, max_eq_left space.le]
  cases stops with
  | again seen =>
      rw [regroup] at seen ⊢
      exact .again seen
  | tooDeep unseen used fits =>
      have deep : (path ++ [a]).length + remaining = path.length + (remaining + 1) := by
        rw [List.length_append, List.length_singleton, Nat.add_assoc, Nat.add_comm 1]
      rw [regroup] at unseen
      rw [shift, same] at fits
      rw [deep]
      exact .tooDeep unseen (congrArg (· + 1) used) fits
  | exhausted unseen left unread full =>
      rw [regroup] at unseen
      rw [shift] at unread full
      rw [same] at full ⊢
      exact .exhausted unseen (Nat.succ_lt_succ left) unread full

/-- Every error of the guard has a trail. -/
theorem recursion_error_trail {remaining : Nat} {path : List Address} {a : Address}
    {error : EvalError} (failed : cellOnPath grid room remaining path a = .error error)
    (guard : error.IsRecursion) :
    ∃ trail last, IsTrail grid path a trail last ∧
      Stops grid room remaining path trail last error := by
  induction remaining generalizing path a with
  | zero =>
      rcases recursion_error_cases failed guard with
        ⟨again, rfl⟩ | ⟨unseen, _, rfl⟩ | ⟨_, some, _⟩ | ⟨below, _, none, _⟩
      · exact ⟨[], a, .nil path a, .again_at_once again⟩
      · exact ⟨[], a, .nil path a, .tooDeep (by simpa using unseen) rfl (le_max_right _ _)⟩
      · exact absurd rfl some
      · exact absurd none (Nat.succ_ne_zero below).symm
  | succ remaining induction =>
      rcases recursion_error_cases failed guard with
        ⟨again, rfl⟩ | ⟨_, none, _⟩ | ⟨unseen, _, unread, rfl⟩ | later
      · exact ⟨[], a, .nil path a, .again_at_once again⟩
      · exact absurd none (Nat.succ_ne_zero remaining)
      · have deep : max room.cells path.length = path.length := max_eq_right unread.cells_le
        have stops : Stops grid room (remaining + 1) path [] a
            (.exhausted (max room.cells path.length + 1)) :=
          .exhausted (by simpa using unseen) (Nat.succ_pos remaining) unread deep.symm
        rw [deep] at stops
        exact ⟨[], a, .nil path a, stops⟩
      · obtain ⟨below, b, same, unseen, space, blocks, failedNext⟩ := later
        obtain rfl : remaining = below := Nat.succ.inj same
        obtain ⟨trail, last, further, stops⟩ := induction failedNext
        exact ⟨a :: trail, last, .cons blocks unseen further, stops.cons space⟩

end PostfixSheet.Evaluation
