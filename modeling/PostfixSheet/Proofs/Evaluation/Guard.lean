import PostfixSheet.Proofs.Evaluation.Trail

/-!
# What the recursion guard stops

A cell with a value is never stopped for a cycle as long as the cells above it lead to it, and an
evaluation that starts on a closed trail follows it round. In both cases a limit may come first, the
ceiling or the end of the call stack. Neither can where it exceeds the number of cells, since no cell
is entered twice.
-/

namespace PostfixSheet.Evaluation

open Relation (ReflTransGen TransGen)

variable {grid : Grid} {room : Room}

theorem IsTrail.references {path trail : List Address} {a last : Address}
    (whole : IsTrail grid path a trail last) : (trail ++ [last]).IsChain (References grid) :=
  chain_of_blocks whole.linked

theorem IsTrail.reaches {path trail : List Address} {a last : Address}
    (whole : IsTrail grid path a trail last) : Reaches grid a last :=
  reaches_of_mem_chain whole.starts whole.references (by simp)

theorem IsTrail.inside {path trail : List Address} {a last b : Address}
    (whole : IsTrail grid path a trail last) (member : b ∈ trail) : b ∈ grid.addresses :=
  inside_of_mem_chain whole.references member

theorem IsTrail.with_path {path trail : List Address} {a last : Address}
    (whole : IsTrail grid path a trail last) (distinct : path.Nodup) : (path ++ trail).Nodup := by
  refine List.nodup_append.mpr ⟨distinct, whole.distinct, ?_⟩
  intro b seen c member same
  exact whole.fresh c member (same ▸ seen)

theorem IsTrail.subset_with_path {path trail : List Address} {a last : Address}
    (whole : IsTrail grid path a trail last) (inside : ∀ b ∈ path, b ∈ grid.addresses) :
    path ++ trail ⊆ grid.addresses :=
  List.append_subset.mpr ⟨inside, fun _ => whole.inside⟩

/-- A path never grows beyond the cells of the grid, so a ceiling that stops an evaluation is not
larger than their number. -/
theorem too_deep_within_cells {remaining depth : Nat} {path : List Address} {a : Address}
    (inside : ∀ b ∈ path, b ∈ grid.addresses) (distinct : path.Nodup)
    (failed : cellOnPath grid room remaining path a = .error (.tooDeep depth)) :
    path.length + remaining ≤ grid.addresses.length := by
  obtain ⟨trail, last, whole, stops⟩ := recursion_error_trail failed trivial
  cases stops with
  | tooDeep _ used _ =>
      have bound := (whole.with_path distinct).length_le_of_subset (whole.subset_with_path inside)
      rwa [List.length_append, used] at bound

theorem IsTrail.not_chains_within {path trail : List Address} {a last : Address}
    (whole : IsTrail grid path a trail last) : ¬ChainsWithin grid trail.length a := by
  intro within
  have chain := whole.references
  obtain ⟨rest, same⟩ : ∃ rest, trail ++ [last] = a :: rest :=
    List.head?_eq_some_iff.mp whole.starts
  rw [same] at chain
  have bound := within rest chain
  rw [← same, List.length_append, List.length_singleton] at bound
  omega

/-- There is room for the texts of all cells that chains of references from a cell on lead to. -/
def Fits (grid : Grid) (room : Room) (a : Address) : Prop :=
  ∀ cells last, (cells ++ [last]).head? = some a → (cells ++ [last]).IsChain (References grid) →
    ¬Unread grid room cells.length last

theorem IsTrail.not_fits {path trail : List Address} {a last : Address}
    (whole : IsTrail grid path a trail last) (unread : Unread grid room trail.length last) :
    ¬Fits grid room a :=
  fun fits => fits trail last whole.starts whole.references unread

theorem fits_of_ok {remaining : Nat} {a : Address} {value : Float}
    (evaluated : cellOnPath grid room remaining [] a = .ok value) : Fits grid room a := by
  rintro cells last starts chain ⟨text, found, full⟩
  have space := read_of_ok evaluated starts chain found
  rw [List.length_nil, Nat.zero_add] at space
  exact absurd full (Nat.not_le.mpr space)

/-- A path that has become too long for a limit is a chain that is. -/
theorem limit_cases {remaining : Nat} {a : Address} {error : EvalError}
    (failed : cellOnPath grid room remaining [] a = .error error) (limit : error.IsLimit) :
    ¬ChainsWithin grid remaining a ∨
      ¬Fits grid room a ∧ error = .exhausted (room.cells + 1) := by
  obtain ⟨trail, last, whole, stops⟩ := recursion_error_trail failed limit.is_recursion
  cases stops with
  | again _ => exact limit.elim
  | tooDeep _ used _ =>
      rw [← used]
      exact .inl whole.not_chains_within
  | exhausted _ _ unread _ =>
      rw [List.length_nil, Nat.zero_add] at unread
      rw [List.length_nil, Nat.max_zero]
      exact .inr ⟨whole.not_fits unread, rfl⟩

theorem HasValue.ok_or_limit {a : Address} {value : Float} (worth : HasValue grid a value)
    {path : List Address} (above : ∀ b ∈ path, TransGen (References grid) b a)
    (room : Room) (remaining : Nat) :
    cellOnPath grid room remaining path a = .ok value ∨
      ∃ error, cellOnPath grid room remaining path a = .error error ∧ error.IsLimit := by
  rcases worth.cell_on_path room remaining path with evaluated | ⟨error, failed, guard⟩
  · exact .inl evaluated
  refine .inr ⟨error, failed, ?_⟩
  obtain ⟨trail, last, whole, stops⟩ := recursion_error_trail failed guard
  cases stops with
  | tooDeep _ _ _ | exhausted _ _ _ _ => trivial
  | again seen =>
      refine absurd ?_ worth.not_reaches_cycle
      rcases List.mem_append.mp seen with onPath | onTrail
      · exact ⟨a, .refl, TransGen.trans_right whole.reaches (above last onPath)⟩
      · exact reaches_cycle_of_chain whole.starts whole.references onTrail

/-- The text that could not be read stands in one more cell of the grid. -/
theorem exhausted_within_cells {remaining depth : Nat} {a : Address}
    (failed : cellOnPath grid room remaining [] a = .error (.exhausted depth)) :
    depth = room.cells + 1 ∧ room.cells < grid.addresses.length := by
  obtain ⟨trail, last, whole, stops⟩ := recursion_error_trail failed trivial
  cases stops with
  | exhausted unseen _ unread full =>
      rw [List.length_nil, Nat.zero_add, Nat.max_zero] at full
      have distinct : (last :: trail).Nodup := List.nodup_cons.mpr ⟨unseen, whole.distinct⟩
      have inside : last :: trail ⊆ grid.addresses :=
        List.cons_subset.mpr ⟨unread.inside, fun _ => whole.inside⟩
      have bound := distinct.length_le_of_subset inside
      rw [List.length_cons, full] at bound
      exact ⟨congrArg (· + 1) (Nat.max_zero room.cells), bound⟩

/-- The cells above a cell lead to whatever that cell refers to. -/
theorem above_next {path : List Address} {a b : Address}
    (above : ∀ c ∈ path, TransGen (References grid) c a) (refers : References grid a b) :
    ∀ c ∈ path ++ [a], TransGen (References grid) c b := by
  intro c member
  rcases List.mem_append.mp member with member | member
  · exact (above c member).tail refers
  · obtain rfl := List.mem_singleton.mp member
    exact .single refers

/-- The text of a cell that is blocked at a reference ends as that reference does, unless a limit
stops it at an earlier one. -/
theorem Blocks.run_passes_on {a b : Address} (blocks : Blocks grid a b) {text : Text}
    (found : grid.get? a = some text) {path : List Address}
    (above : ∀ c ∈ path, ∀ d, References grid a d → TransGen (References grid) c d)
    {remaining : Nat} {error : EvalError}
    (failed : cellOnPath grid room remaining path b = .error error) :
    Machine.run (answerOnPath grid room remaining path) (Token.scan text) = .error error ∨
      ∃ error, Machine.run (answerOnPath grid room remaining path) (Token.scan text) =
        .error error ∧ error.IsLimit := by
  obtain ⟨same, front, label, back, answer, reached, foundAgain, split, before, worth⟩ := blocks
  obtain rfl : text = same := Option.some.inj (found.symm.trans foundAgain)
  have agree : Machine.Agree (fun _ => False) EvalError.IsLimit
      (Machine.runFrom answer [] front)
      (Machine.runFrom (answerOnPath grid room remaining path) [] front) := by
    apply Machine.run_from_agree
    intro label address member
    obtain ⟨c, value, rfl, answered, worth⟩ := worth label address member
    have refers : References grid a c := ⟨text, label, found, by simp [split, member]⟩
    rw [answer_on_path_some, answered]
    rcases worth.ok_or_limit (fun d seen => above d seen c refers) room remaining with
      evaluated | stopped
    · exact .inl evaluated.symm
    · exact .inr (.inr stopped)
  rw [split]
  rcases agree with same | ⟨_, _, never⟩ | ⟨error, stopped, limit⟩
  · exact .inl (Machine.run_error_of_fails_at
      ⟨front, label, some b, back, reached, rfl, same.symm.trans before, failed⟩)
  · exact never.elim
  · exact .inr ⟨error, Machine.run_append_error stopped, limit⟩

theorem Blocks.passes_on {a b : Address} (blocks : Blocks grid a b) {path : List Address}
    (above : ∀ c ∈ path, TransGen (References grid) c a) (unseen : a ∉ path) {remaining : Nat}
    {error : EvalError} (failed : cellOnPath grid room remaining (path ++ [a]) b = .error error) :
    cellOnPath grid room (remaining + 1) path a = .error error ∨
      ∃ error, cellOnPath grid room (remaining + 1) path a = .error error ∧ error.IsLimit := by
  obtain ⟨text, _, _, _, _, _, found, _⟩ := id blocks
  rw [cell_on_path_succ unseen, found]
  by_cases space : path.length < room.bound (Token.scan text)
  · simp only [space, if_true]
    exact blocks.run_passes_on found (fun c seen d refers => above_next above refers c seen) failed
  · exact .inr ⟨_, if_neg space, trivial⟩

/-- An evaluation that starts on a trail which closes on the path or on itself reports that cycle,
unless a limit stops it before. -/
theorem IsTrail.leads_round {path trail : List Address} {a last : Address}
    (whole : IsTrail grid path a trail last) (again : last ∈ path ++ trail)
    (above : ∀ b ∈ path, TransGen (References grid) b a) (room : Room) (remaining : Nat) :
    cellOnPath grid room remaining path a =
        .error (.cycle ((path ++ trail).dropWhile (· != last) ++ [last])) ∨
      ∃ error, cellOnPath grid room remaining path a = .error error ∧ error.IsLimit := by
  induction trail generalizing path a remaining with
  | nil =>
      obtain rfl : last = a := Option.some.inj whole.starts
      rw [List.append_nil] at again ⊢
      exact .inl (cell_on_path_of_mem again)
  | cons first trail induction =>
      obtain ⟨rfl, unseen, b, blocks, further⟩ := whole.uncons
      cases remaining with
      | zero => exact .inr ⟨_, cell_on_path_zero unseen, trivial⟩
      | succ remaining =>
          have regroup : path ++ first :: trail = path ++ [first] ++ trail := by simp
          rw [regroup] at again ⊢
          rcases induction further again (above_next above blocks.references) remaining with
            round | ⟨error, failed, limit⟩
          · exact blocks.passes_on above unseen round
          · rcases blocks.passes_on above unseen failed with failed | stopped
            · exact .inr ⟨error, failed, limit⟩
            · exact .inr stopped

/-- Where the cells that block each other are too many for the call stack, the guard stops the first
of them. -/
theorem guard_of_long_chain {cells path : List Address} {a last : Address}
    (starts : (cells ++ [last]).head? = some a) (linked : (cells ++ [last]).IsChain (Blocks grid))
    (unread : Unread grid room (path.length + cells.length) last)
    (above : ∀ b ∈ path, TransGen (References grid) b a) (remaining : Nat) :
    ∃ error, cellOnPath grid room remaining path a = .error error ∧ error.IsRecursion := by
  induction cells generalizing path a remaining with
  | nil =>
      obtain rfl : last = a := Option.some.inj starts
      by_cases again : last ∈ path
      · exact ⟨_, cell_on_path_of_mem again, trivial⟩
      cases remaining with
      | zero => exact ⟨_, cell_on_path_zero again, trivial⟩
      | succ remaining =>
          obtain ⟨text, found, full⟩ := unread
          rw [cell_on_path_succ again, found]
          exact ⟨_, if_neg (Nat.not_lt.mpr full), trivial⟩
  | cons first cells induction =>
      obtain rfl : first = a := Option.some.inj starts
      by_cases again : first ∈ path
      · exact ⟨_, cell_on_path_of_mem again, trivial⟩
      cases remaining with
      | zero => exact ⟨_, cell_on_path_zero again, trivial⟩
      | succ remaining =>
          obtain ⟨blocks, linked⟩ := List.isChain_cons.mp linked
          obtain ⟨b, second⟩ := exists_head_append cells last
          have blocks : Blocks grid first b := blocks b second
          have shift : (path ++ [first]).length + cells.length =
              path.length + (first :: cells).length := by
            simp only [List.length_append, List.length_cons, List.length_nil]
            omega
          rw [← shift] at unread
          obtain ⟨error, failed, guard⟩ :=
            induction second linked unread (above_next above blocks.references) remaining
          rcases blocks.passes_on above again failed with passed | ⟨error, stopped, limit⟩
          · exact ⟨error, passed, guard⟩
          · exact ⟨error, stopped, limit.is_recursion⟩

end PostfixSheet.Evaluation
