import PostfixSheet.Proofs.Evaluation.Chain
import PostfixSheet.Proofs.Evaluation.Guard
import PostfixSheet.Proofs.Machine.Arithmetic

/-!
# Values from the bottom up

The same values without a path: start with any number in every cell and work out all cells over the
numbers so far, again and again. A cell is right after as many rounds as the longest chain from it
has cells. Which cells have a value at all is read off the grid, the cells below them and, for the
divisions only, these numbers. The one thing that the grid does not say is whether the call stack
holds the chains.
-/

namespace PostfixSheet.Evaluation

open Relation (ReflTransGen TransGen)

variable {grid : Grid} {room : Room}

/-- The tokens of a cell, none outside of the grid. -/
def tokensAt (grid : Grid) (a : Address) : List Token := Token.scan ((grid.get? a).getD [])

def bottomUp (grid : Grid) : (rounds : Nat) → Address → Float
  | 0, _ => 0
  | rounds + 1, a => Machine.freeValue (bottomUp grid rounds) (tokensAt grid a)

/-- All that a cell needs in order to have a value below a given ceiling. -/
structure Evaluable (grid : Grid) (ceiling : Nat) (a : Address) : Prop where
  named : ∀ b, Reaches grid a b → Machine.AllNamed (tokensAt grid b)
  present : ∀ b, Reaches grid a b → ∃ text, grid.get? b = some text
  acyclic : ¬ReachesCycle grid a
  short : ChainsWithin grid ceiling a
  balanced : ∀ b, Reaches grid a b → Machine.Balanced (tokensAt grid b)
  nonzero : ∀ b, Reaches grid a b →
    Machine.dividesByZero (bottomUp grid ceiling) [] (tokensAt grid b) = false

/-- The values give every cell in reach what its text is worth over them. -/
def Solves (grid : Grid) (a : Address) (values : Address → Float) : Prop :=
  ∀ b, Reaches grid a b →
    Machine.run (Machine.lookUp values) (tokensAt grid b) = .ok (values b)

theorem tokens_at_eq {a : Address} {text : Text} (found : grid.get? a = some text) :
    tokensAt grid a = Token.scan text := by
  rw [tokensAt, found]
  rfl

theorem references_of_mem_tokens_at {a b : Address} {label : Text}
    (member : .reference label (some b) ∈ tokensAt grid a) : References grid a b := by
  cases found : grid.get? a with
  | none =>
      rw [tokensAt, found] at member
      cases member
  | some text =>
      rw [tokens_at_eq found] at member
      exact ⟨text, label, found, member⟩

theorem run_eq_look_up {remaining : Nat} {path : List Address} {a : Address}
    {values : Address → Float} (named : Machine.AllNamed (tokensAt grid a))
    (below : ∀ b, References grid a b → cellOnPath grid room remaining path b = .ok (values b)) :
    Machine.run (answerOnPath grid room remaining path) (tokensAt grid a) =
      Machine.run (Machine.lookUp values) (tokensAt grid a) := by
  apply Machine.run_congr
  intro label address member
  cases address with
  | none => exact absurd member (named label)
  | some b => exact below b (references_of_mem_tokens_at member)

/-- A cell with a value has it over all numbers that are right for the cells it refers to. -/
theorem run_look_up_of_ok {remaining : Nat} {path : List Address} {a : Address} {value : Float}
    (evaluated : cellOnPath grid room (remaining + 1) path a = .ok value) {values : Address → Float}
    (right : ∀ b inner, cellOnPath grid room remaining (path ++ [a]) b = .ok inner →
      values b = inner) :
    Machine.run (Machine.lookUp values) (tokensAt grid a) = .ok value := by
  obtain ⟨below, text, same, _, found, _, ran⟩ := cell_on_path_ok evaluated
  obtain rfl : remaining = below := Nat.succ.inj same
  rw [tokens_at_eq found, ← ran]
  apply Machine.run_congr
  intro label address member
  obtain ⟨inner, answered⟩ := Machine.run_ok_answers ran member
  obtain ⟨b, rfl, evaluatedNext⟩ := answer_on_path_ok answered
  rw [answered, Machine.lookUp, right b inner evaluatedNext]

theorem bottom_up_of_ok {remaining : Nat} {path : List Address} {a : Address} {value : Float}
    (evaluated : cellOnPath grid room remaining path a = .ok value) {rounds : Nat}
    (enough : remaining ≤ rounds) : bottomUp grid rounds a = value := by
  induction remaining generalizing path a value rounds with
  | zero =>
      obtain ⟨below, _, none, _⟩ := cell_on_path_ok evaluated
      exact absurd none.symm (Nat.succ_ne_zero below)
  | succ remaining induction =>
      obtain ⟨before, rfl⟩ := Nat.exists_eq_add_of_lt enough
      have ran := run_look_up_of_ok evaluated fun b inner evaluatedNext =>
        induction evaluatedNext (Nat.le_add_right remaining before)
      exact (Machine.run_look_up_ok_iff.mp ran).2.2.2

theorem ok_of_reaches {remaining : Nat} {path : List Address} {a b : Address} {value : Float}
    (evaluated : cellOnPath grid room remaining path a = .ok value) (reached : Reaches grid a b) :
    ∃ fewer further inner, fewer ≤ remaining ∧ cellOnPath grid room fewer further b = .ok inner := by
  induction reached with
  | refl => exact ⟨remaining, path, value, Nat.le_refl _, evaluated⟩
  | tail _ refers induction =>
      obtain ⟨fewer, further, inner, bound, evaluated⟩ := induction
      obtain ⟨below, next, rfl, _, evaluatedNext⟩ := cell_on_path_ok_next evaluated refers
      exact ⟨below, _, next, by omega, evaluatedNext⟩

/-- The numbers from the bottom up are right for every cell below a cell with a value. -/
theorem solves_of_ok {ceiling : Nat} {a : Address} {value : Float}
    (evaluated : cellOnPath grid room ceiling [] a = .ok value) :
    Solves grid a (bottomUp grid ceiling) := by
  intro b reached
  obtain ⟨fewer, further, inner, bound, evaluatedHere⟩ := ok_of_reaches evaluated reached
  rw [bottom_up_of_ok evaluatedHere bound]
  obtain ⟨below, _, rfl, _⟩ := cell_on_path_ok evaluatedHere
  apply run_look_up_of_ok evaluatedHere
  intro c next evaluatedNext
  exact bottom_up_of_ok evaluatedNext (by omega)

theorem evaluable_of_ok {ceiling : Nat} {a : Address} {value : Float}
    (evaluated : cellOnPath grid room ceiling [] a = .ok value) : Evaluable grid ceiling a := by
  have decided : ∀ b, Reaches grid a b → _ := fun b reached =>
    Machine.run_look_up_ok_iff.mp (solves_of_ok evaluated b reached)
  have short : ChainsWithin grid ceiling a := chains_within_of_ok evaluated
  refine ⟨fun b reached => (decided b reached).1, ?_, short.not_reaches_cycle, short,
    fun b reached => (decided b reached).2.1, fun b reached => (decided b reached).2.2.1⟩
  intro b reached
  obtain ⟨_, _, _, _, evaluatedHere⟩ := ok_of_reaches evaluated reached
  obtain ⟨_, text, _, _, found, _⟩ := cell_on_path_ok evaluatedHere
  exact ⟨text, found⟩

/-- After as many rounds as the chains from a cell are long, its number does not change any more. -/
theorem bottom_up_stable {bound rounds : Nat} {a : Address} (within : ChainsWithin grid bound a)
    (enough : bound ≤ rounds) : bottomUp grid rounds a = bottomUp grid bound a := by
  induction bound generalizing rounds a with
  | zero => exact absurd within.pos (Nat.lt_irrefl 0)
  | succ bound induction =>
      obtain ⟨more, rfl⟩ := Nat.exists_eq_add_of_lt enough
      apply Machine.free_value_congr
      intro label b member
      exact induction (within.next (references_of_mem_tokens_at member)) (Nat.le_add_right _ _)

theorem Evaluable.ok {ceiling : Nat} {a : Address} (evaluable : Evaluable grid ceiling a)
    {remaining : Nat} {path : List Address} {b : Address} (reached : Reaches grid a b)
    (within : ChainsWithin grid remaining b) (apart : ∀ c ∈ path, ¬Reaches grid b c)
    (fits : path.length + remaining ≤ room.cells) :
    cellOnPath grid room remaining path b = .ok (bottomUp grid ceiling b) := by
  induction remaining generalizing path b with
  | zero => exact absurd within.pos (Nat.lt_irrefl 0)
  | succ remaining induction =>
      have unseen : b ∉ path := fun member => apart b member .refl
      obtain ⟨text, found⟩ := evaluable.present b reached
      have named := evaluable.named b reached
      have below : ∀ c, References grid b c →
          cellOnPath grid room remaining (path ++ [b]) c = .ok (bottomUp grid ceiling c) := by
        intro c refers
        have fits : (path ++ [b]).length + remaining ≤ room.cells := by
          rw [List.length_append, List.length_singleton]
          omega
        refine induction (reached.tail refers) (within.next refers) ?_ fits
        intro d member back
        rcases List.mem_append.mp member with member | member
        · exact apart d member (.head refers back)
        · rw [List.mem_singleton.mp member] at back
          exact evaluable.acyclic ⟨b, reached, TransGen.head' refers back⟩
      have ran : Machine.run (Machine.lookUp (bottomUp grid ceiling)) (tokensAt grid b) =
          .ok (bottomUp grid (ceiling + 1) b) :=
        Machine.run_look_up_ok_iff.mpr
          ⟨named, evaluable.balanced b reached, evaluable.nonzero b reached, rfl⟩
      have stable := bottom_up_stable (evaluable.short.of_reaches reached) (Nat.le_succ ceiling)
      have space : path.length < room.bound (Token.scan text) := by
        have bound := room.cells_le_bound (Token.scan text)
        omega
      rw [cell_on_path_succ unseen, found]
      simp only [space, if_true]
      rw [← tokens_at_eq found, run_eq_look_up named below, ran, stable]

theorem Solves.eq_bottom_up {a b : Address} {values : Address → Float}
    (solves : Solves grid a values) {bound : Nat} (reached : Reaches grid a b)
    (within : ChainsWithin grid bound b) : values b = bottomUp grid bound b := by
  induction bound generalizing b with
  | zero => exact absurd within.pos (Nat.lt_irrefl 0)
  | succ bound induction =>
      have worth := (Machine.run_look_up_ok_iff.mp (solves b reached)).2.2.2
      rw [← worth]
      apply Machine.free_value_congr
      intro label c member
      have refers := references_of_mem_tokens_at member
      exact induction (reached.tail refers) (within.next refers)

theorem Solves.congr {a : Address} {values other : Address → Float} (solves : Solves grid a values)
    (same : ∀ b, Reaches grid a b → other b = values b) : Solves grid a other := by
  intro b reached
  rw [same b reached, ← solves b reached]
  apply Machine.run_congr
  intro label address member
  cases address with
  | none => rfl
  | some c =>
      simp only [Machine.lookUp, same c (reached.tail (references_of_mem_tokens_at member))]

theorem Evaluable.has_value {ceiling : Nat} {a : Address} (evaluable : Evaluable grid ceiling a) :
    HasValue grid a (bottomUp grid ceiling a) := by
  let room : Room := ⟨ceiling, ceiling, Nat.le_refl _⟩
  have evaluated : cellOnPath grid room ceiling [] a = .ok (bottomUp grid ceiling a) :=
    evaluable.ok .refl evaluable.short (by simp) (by simp [room])
  exact ⟨room, ceiling, [], evaluated⟩

section Values

variable [CallStack]

/-- A cell has a value exactly if it is evaluable and the call stack has room for the texts on the
chains from it. The value is the one from the bottom up, and the numbers from the bottom up are the
only ones that are right for all cells in reach. A cell that is evaluable otherwise is given up. -/
theorem cell_value_iff_evaluable (grid : Grid) (ceiling : Ceiling) (a : Address) :
    ((∃ value, cell grid ceiling a = .ok value) ↔
      Evaluable grid ceiling.cells a ∧ Fits grid CallStack.room a) ∧
    (∀ value, cell grid ceiling a = .ok value →
      value = bottomUp grid ceiling.cells a ∧
      ∀ values, Solves grid a values ↔
        ∀ b, Reaches grid a b → values b = bottomUp grid ceiling.cells b) ∧
    (Evaluable grid ceiling.cells a → ¬Fits grid CallStack.room a →
      cell grid ceiling a = .error (.exhausted (CallStack.room.cells + 1))) := by
  have ends : Evaluable grid ceiling.cells a → (∃ value, cell grid ceiling a = .ok value) ∨
      ¬Fits grid CallStack.room a ∧
        cell grid ceiling a = .error (.exhausted (CallStack.room.cells + 1)) := by
    intro evaluable
    have none : ∀ b ∈ ([] : List Address), TransGen (References grid) b a := by simp
    rcases evaluable.has_value.ok_or_limit none CallStack.room ceiling.cells with
      evaluated | ⟨error, failed, limit⟩
    · exact .inl ⟨_, evaluated⟩
    rcases limit_cases failed limit with long | ⟨long, rfl⟩
    · exact absurd evaluable.short long
    · exact .inr ⟨long, failed⟩
  refine ⟨⟨?_, ?_⟩, ?_, ?_⟩
  · rintro ⟨value, evaluated⟩
    exact ⟨evaluable_of_ok evaluated, fits_of_ok evaluated⟩
  · rintro ⟨evaluable, fits⟩
    exact (ends evaluable).resolve_right fun stopped => stopped.1 fits
  · intro value evaluated
    have short : ChainsWithin grid ceiling.cells a := chains_within_of_ok evaluated
    refine ⟨(bottom_up_of_ok evaluated (Nat.le_refl _)).symm, fun values => ⟨?_, ?_⟩⟩
    · intro solves b reached
      exact solves.eq_bottom_up reached (short.of_reaches reached)
    · exact (solves_of_ok evaluated).congr
  · intro evaluable long
    rcases ends evaluable with ⟨value, evaluated⟩ | ⟨_, failed⟩
    · exact absurd (fits_of_ok evaluated) long
    · exact failed

end Values

/-- A cell over two others, one of which refers to the other twice. -/
def diamondSheet : Grid := ⟨[["B1 c1 *".toList, "2".toList, "B1 ? b01 +".toList]], .comma⟩

theorem diamond_evaluable :
    cell diamondSheet .standard ⟨0, 0⟩ = .ok 8 ∧
      Evaluable diamondSheet Ceiling.standard.cells ⟨0, 0⟩ ∧
      8 = bottomUp diamondSheet Ceiling.standard.cells ⟨0, 0⟩ := by
  have evaluated : cell diamondSheet .standard ⟨0, 0⟩ = .ok 8 := by decide +kernel
  have decided := cell_value_iff_evaluable diamondSheet .standard ⟨0, 0⟩
  exact ⟨evaluated, (decided.1.mp ⟨8, evaluated⟩).1, (decided.2.1 8 evaluated).1⟩

/-- All that the grid has to say about a chain of four hundred cells is in order, and the stack runs
out on the way down. -/
theorem long_chain_has_no_value :
    let thousand : Ceiling := ⟨1000, by decide⟩
    ¬((∃ value, cell (chainSheet 399) thousand ⟨0, 0⟩ = .ok value) ↔
      Evaluable (chainSheet 399) thousand.cells ⟨0, 0⟩) := by
  intro thousand same
  have evaluable : Evaluable (chainSheet 399) thousand.cells ⟨0, 0⟩ := by
    let wide : Room := ⟨1000, 1000, Nat.le_refl _⟩
    have evaluated : cellOnPath (chainSheet (0 + 399)) wide thousand.cells [] ⟨0, 0⟩ = .ok 1 :=
      chain_value (by decide) (by decide) (by decide) (by decide)
    exact evaluable_of_ok evaluated
  obtain ⟨value, evaluated⟩ := same.mpr evaluable
  have ranOut : cell (chainSheet (0 + 399)) thousand ⟨0, 0⟩ = .error (.exhausted 330) :=
    chain_given_up (by decide) (by decide) (by decide)
  cases ranOut.symm.trans evaluated

end PostfixSheet.Evaluation
