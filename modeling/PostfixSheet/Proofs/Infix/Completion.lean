import PostfixSheet.Proofs.Infix.Parsing

/-!
# What has been read can be completed

Reading never goes on behind a row of lexemes that begins no expression. Whatever waits on the stack
is satisfied by one operand and then by closing parentheses alone, so every row of lexemes that can
be read is the beginning of a row with a derivation, and a row with a derivation is read from its
first lexeme to its last.
-/

namespace PostfixSheet.Infix

theorem Derivation.exists_chain (binding : Binding) (term : Derivation .term) :
    ∃ chain : Derivation (.chain binding), chain.lexemes = term.lexemes := by
  cases binding with
  | loose => exact ⟨.single term, rfl⟩
  | tight => exact ⟨term, rfl⟩

namespace Awaits

variable {waiting : List Waiting} {front : List Lexeme} {category : Category}

theorem exists_tree (before : Awaits waiting front category) (operand : Derivation .unary) :
    ∃ tree : Derivation category, tree.lexemes = operand.lexemes := by
  cases before with
  | start => exact ⟨.single (.single operand), rfl⟩
  | group before => exact ⟨.single (.single operand), rfl⟩
  | negation before => exact ⟨operand, rfl⟩
  | sum before left bound => exact ⟨.single operand, rfl⟩
  | product before left bound => exact ⟨operand, rfl⟩

/-- Behind a tree of the category that is awaited, closing parentheses alone are missing. -/
theorem completed (before : Awaits waiting front category) (tree : Derivation category) :
    ∃ (missing : Nat) (whole : Derivation .expr),
      whole.lexemes = front ++ tree.lexemes ++ List.replicate missing .closing := by
  induction before with
  | start => exact ⟨0, tree, by simp⟩
  | @group waiting front category before induction =>
      obtain ⟨operand, same⟩ := before.exists_tree (.atom (.group tree))
      obtain ⟨missing, whole, further⟩ := induction operand
      refine ⟨missing + 1, whole, ?_⟩
      rw [further, same]
      simp [Derivation.lexemes, List.replicate_succ]
  | @negation waiting front category before induction =>
      obtain ⟨operand, same⟩ := before.exists_tree (.negate tree)
      obtain ⟨missing, whole, further⟩ := induction operand
      refine ⟨missing, whole, ?_⟩
      rw [further, same]
      simp [Derivation.lexemes]
  | @sum waiting front op before left bound induction =>
      obtain ⟨missing, whole, further⟩ := induction (.link left op bound tree)
      refine ⟨missing, whole, further.trans ?_⟩
      exact congrArg (· ++ List.replicate missing .closing)
        (Derivation.append_lexemes_link front left op bound tree)
  | @product waiting front op binding before left bound induction =>
      obtain ⟨chain, same⟩ := Derivation.exists_chain binding (.link left op bound tree)
      obtain ⟨missing, whole, further⟩ := induction chain
      rw [same] at further
      refine ⟨missing, whole, further.trans ?_⟩
      exact congrArg (· ++ List.replicate missing .closing)
        (Derivation.append_lexemes_link front left op bound tree)

end Awaits

/-- The lexemes that complete what has been read: an operand if one is awaited, and then closing
parentheses. -/
def completion (p : Partial) (missing : Nat) : List Lexeme :=
  (if p.operand.isSome then [] else [.number ['1']]) ++ List.replicate missing .closing

theorem completion_well_formed (p : Partial) (missing : Nat) :
    ∀ lexeme ∈ completion p missing, lexeme.WellFormed := by
  intro lexeme member
  rcases List.mem_append.mp member with operand | closing
  · split at operand
    · cases operand
    · rw [List.mem_singleton.mp operand]
      apply IsNumber.whole (List.cons_ne_nil '1' []) _ .absent
      intro c digit
      rw [List.mem_singleton.mp digit]
      rfl
  · rw [List.eq_of_mem_replicate closing]
    trivial

theorem Holds.completed {p : Partial} {front : List Lexeme} (holds : Holds p front) :
    ∃ (missing : Nat) (whole : Derivation .expr),
      whole.lexemes = front ++ completion p missing := by
  cases holds with
  | waiting before =>
      obtain ⟨tree, same⟩ := before.exists_tree (.atom (.number ['1']))
      obtain ⟨missing, whole, further⟩ := before.completed tree
      refine ⟨missing, whole, ?_⟩
      rw [further, same, List.append_assoc]
      rfl
  | operand before noMinus last =>
      obtain ⟨tree, same⟩ := before.exists_tree last
      obtain ⟨missing, whole, further⟩ := before.completed tree
      refine ⟨missing, whole, ?_⟩
      rw [further, same]
      rfl

variable {p : Partial} {lexemes : List Lexeme}

/-- What has been read begins a row of lexemes that has a derivation. -/
theorem completed_of_read_all (reads : Partial.start.readAll lexemes = some p) :
    ∃ (missing : Nat) (whole : Derivation .expr),
      whole.lexemes = lexemes ++ completion p missing := by
  have holds : Holds p ([] ++ lexemes) := read_all_holds (.waiting .start) reads
  exact holds.completed

/-- A lexeme that is refused begins no row of lexemes with a derivation behind what was read. -/
theorem not_derived_of_refused (reads : Partial.start.readAll lexemes = some p) {lexeme : Lexeme}
    (refused : p.read lexeme = none) (more : List Lexeme) (tree : Derivation .expr) :
    tree.lexemes ≠ lexemes ++ lexeme :: more := by
  intro same
  obtain ⟨q, through, _⟩ := result_of_derives ⟨tree, same, rfl⟩
  rw [Partial.read_all_append, reads, Option.bind_some, Partial.read_all_cons, refused] at through
  cases through

theorem not_derived_of_unfinished (reads : Partial.start.readAll lexemes = some p)
    (unfinished : p.result? = none) (tree : Derivation .expr) : tree.lexemes ≠ lexemes := by
  intro same
  obtain ⟨q, through, ended⟩ := result_of_derives ⟨tree, same, rfl⟩
  obtain rfl : p = q := Option.some.inj (reads.symm.trans through)
  rw [unfinished] at ended
  cases ended

end PostfixSheet.Infix
