import PostfixSheet.Proofs.Evaluation.Chain
import PostfixSheet.Proofs.Evaluation.Guard
import Mathlib.Data.List.Rotate

/-!
# Reported cycles

A cycle that is reported is one of the grid: its labels are those of cells that refer to each other
in a round, each named once. Every cell on it reports the same round, starting with itself, unless
the ceiling is so low that it may come first, or the call stack so short: from another cell on, a side
branch of the round stands deeper.
-/

namespace PostfixSheet.Evaluation

open Relation (ReflTransGen TransGen)

variable {grid : Grid} {ceiling : Ceiling} {room : Room} {remaining : Nat}

/-- The cells of a loop, each once, each blocked at the next and the last one at the first. -/
structure IsLoop (grid : Grid) (first : Address) (others : List Address) : Prop where
  distinct : (first :: others).Nodup
  linked : (first :: others ++ [first]).IsChain (Blocks grid)

theorem drop_while_before {before after : List Address} {a : Address}
    (distinct : (before ++ a :: after).Nodup) :
    (before ++ a :: after).dropWhile (· != a) = a :: after := by
  have different : ∀ b ∈ before, (b != a) = true := by
    intro b member
    refine bne_iff_ne.mpr fun same => ?_
    exact (List.nodup_append.mp distinct).2.2 b member a (by simp) same
  rw [List.dropWhile_append_of_pos different, List.dropWhile_cons_of_neg (by simp)]

theorem IsTrail.is_loop {a last : Address} {before after : List Address}
    (whole : IsTrail grid [] a (before ++ last :: after) last) : IsLoop grid last after where
  distinct := (List.nodup_append.mp whole.distinct).2.1
  linked := by
    have linked := whole.linked
    rw [List.append_assoc] at linked
    exact (List.isChain_append.mp linked).2.1

theorem cycle_error_is_loop {a : Address} {cells : List Address}
    (failed : cellOnPath grid room remaining [] a = .error (.cycle cells)) :
    ∃ first others, IsLoop grid first others ∧ Reaches grid a first ∧
      cells = first :: others ++ [first] := by
  obtain ⟨trail, last, whole, stops⟩ := recursion_error_trail failed trivial
  cases stops with
  | again seen =>
      rw [List.nil_append] at seen
      obtain ⟨before, after, rfl⟩ := List.append_of_mem seen
      rw [List.nil_append, drop_while_before whole.distinct]
      exact ⟨last, after, whole.is_loop, whole.reaches, rfl⟩

theorem IsLoop.references {first : Address} {others : List Address}
    (loop : IsLoop grid first others) :
    (first :: others ++ [first]).IsChain (References grid) :=
  chain_of_blocks loop.linked

theorem IsLoop.inside {first a : Address} {others : List Address} (loop : IsLoop grid first others)
    (member : a ∈ first :: others) : a ∈ grid.addresses :=
  inside_of_mem_chain loop.references member

theorem IsLoop.of_label_label {first a : Address} {others : List Address}
    (loop : IsLoop grid first others) (member : a ∈ first :: others) :
    Address.ofLabel? a.label = some a := by
  have named : a ∈ others ++ [first] := by
    rcases List.mem_cons.mp member with rfl | member
    · simp
    · simp [member]
  exact Address.of_label_label (nameable_of_mem_chain loop.references named)

theorem IsLoop.labels_distinct {first : Address} {others : List Address}
    (loop : IsLoop grid first others) : ((first :: others).map Address.label).Nodup := by
  refine loop.distinct.map_on fun a memberA b memberB same => ?_
  have readA := loop.of_label_label memberA
  rw [same, loop.of_label_label memberB] at readA
  exact (Option.some.inj readA).symm

/-- A loop is one from any of its cells on. -/
theorem IsLoop.turn {first b : Address} {others front back : List Address}
    (loop : IsLoop grid first others) (split : first :: others = front ++ b :: back) :
    IsLoop grid b (back ++ front) where
  distinct := by
    have distinct := loop.distinct
    rw [split, List.nodup_append_comm] at distinct
    exact distinct
  linked := by
    have linked := loop.linked
    rw [split] at linked
    cases front with
    | nil =>
        obtain ⟨rfl, rfl⟩ := List.cons.inj split
        simpa using linked
    | cons head front =>
        obtain ⟨rfl, _⟩ := List.cons.inj split
        have regroup : first :: front ++ b :: back ++ [first] =
            first :: front ++ b :: (back ++ [first]) := by simp
        rw [regroup, List.isChain_split] at linked
        obtain ⟨toHere, fromHere⟩ := linked
        have joined : (b :: back ++ first :: (front ++ [b])).IsChain (Blocks grid) :=
          List.isChain_split.mpr ⟨fromHere, toHere⟩
        simpa using joined

theorem IsLoop.from_place {first b : Address} {others : List Address}
    (loop : IsLoop grid first others) {i : Nat} (entry : (first :: others)[i]? = some b) :
    ∃ rest, IsLoop grid b rest ∧ b :: rest = (first :: others).rotate i := by
  obtain ⟨bound, same⟩ := List.getElem?_eq_some_iff.mp entry
  have split : first :: others =
      (first :: others).take i ++ b :: (first :: others).drop (i + 1) := by
    rw [← same, ← List.drop_eq_getElem_cons bound, List.take_append_drop]
  refine ⟨_, loop.turn split, ?_⟩
  rw [List.rotate_eq_drop_append_take bound.le, List.drop_eq_getElem_cons bound, same]
  rfl

theorem IsLoop.reported {first : Address} {others : List Address} (loop : IsLoop grid first others)
    (room : Room) (remaining : Nat) :
    cellOnPath grid room remaining [] first = .error (.cycle (first :: others ++ [first])) ∨
      ∃ error, cellOnPath grid room remaining [] first = .error error ∧ error.IsLimit := by
  have whole : IsTrail grid [] first (first :: others) first :=
    ⟨rfl, loop.linked, loop.distinct, by simp⟩
  have kept : (first :: others).dropWhile (· != first) = first :: others :=
    List.dropWhile_cons_of_neg (by simp)
  have round := whole.leads_round (by simp) (by simp) room remaining
  rw [List.nil_append, kept] at round
  exact round

/-- The labels go round some cells of the grid: they are those of cells that refer to each other one
after the other, the first cell again at the end, and each of them names its cell. -/
structure IsRound (grid : Grid) (labels : List Text) (first : Address) (others : List Address) :
    Prop where
  shown : labels = (first :: others ++ [first]).map Address.label
  distinct : ((first :: others).map Address.label).Nodup
  canonical : ∀ a ∈ first :: others, Address.ofLabel? a.label = some a
  inside : ∀ a ∈ first :: others, ∃ text, grid.get? a = some text
  linked : (first :: others ++ [first]).IsChain (References grid)

theorem IsLoop.is_round {first : Address} {others : List Address}
    (loop : IsLoop grid first others) :
    IsRound grid ((first :: others ++ [first]).map Address.label) first others where
  shown := rfl
  distinct := loop.labels_distinct
  canonical := fun _ => loop.of_label_label
  inside := fun _ member => Grid.mem_addresses_iff.mp (loop.inside member)
  linked := loop.references

theorem cycle_error_is_round {a : Address} {error : EvalError}
    (failed : cellOnPath grid room remaining [] a = .error error) (cyclic : error.cycleLabels ≠ []) :
    ∃ first others, IsRound grid error.cycleLabels first others ∧ Reaches grid a first := by
  obtain ⟨cells, rfl⟩ := EvalError.eq_cycle_of_labels cyclic
  obtain ⟨first, others, loop, reached, rfl⟩ := cycle_error_is_loop failed
  exact ⟨first, others, loop.is_round, reached⟩

section Reporting

variable [CallStack]

/-- An expression that stands in no cell reports a cycle only if one of its references does. -/
theorem expression_cycle_is_answer {text : Text} {error : EvalError}
    (failed : expression grid ceiling text = .error error) (cyclic : error.cycleLabels ≠ []) :
    ∃ label a, .reference label (some a) ∈ Token.scan text ∧
      cellAnswer grid ceiling label (some a) = .error error := by
  obtain ⟨cells, rfl⟩ := EvalError.eq_cycle_of_labels cyclic
  exact run_recursion_error failed trivial

theorem expression_ok_reference {text label : Text} {a : Address} {value : Float}
    (evaluated : expression grid ceiling text = .ok value)
    (member : .reference label (some a) ∈ Token.scan text) :
    ∃ inner, cellAnswer grid ceiling label (some a) = .ok inner :=
  Machine.run_ok_answers evaluated member

/-- Every cycle that a cell or an expression reports is a round of cells of the grid which can be
reached from there, and where a round can be reached there is no value. -/
theorem reported_cycle_is_real (grid : Grid) (ceiling : Ceiling) :
    (∀ a error, cell grid ceiling a = .error error → error.cycleLabels ≠ [] →
      ∃ first others, IsRound grid error.cycleLabels first others ∧ Reaches grid a first) ∧
    (∀ text error, expression grid ceiling text = .error error → error.cycleLabels ≠ [] →
      ∃ first others, IsRound grid error.cycleLabels first others ∧
        ∃ label a, .reference label (some a) ∈ Token.scan text ∧ Reaches grid a first) ∧
    (∀ a, ReachesCycle grid a → ∀ value, cell grid ceiling a ≠ .ok value) ∧
    (∀ text label a, .reference label (some a) ∈ Token.scan text → ReachesCycle grid a →
      ∀ value, expression grid ceiling text ≠ .ok value) := by
  refine ⟨fun a error => cycle_error_is_round, ?_, ?_, ?_⟩
  · intro text error failed cyclic
    obtain ⟨label, a, member, failed⟩ := expression_cycle_is_answer failed cyclic
    obtain ⟨first, others, round, reached⟩ := cycle_error_is_round failed cyclic
    exact ⟨first, others, round, label, a, member, reached⟩
  · intro a cycle value evaluated
    have worth : HasValue grid a value := ⟨_, ceiling.cells, [], evaluated⟩
    exact worth.not_reaches_cycle cycle
  · intro text label a member cycle value evaluated
    obtain ⟨inner, evaluated⟩ := expression_ok_reference evaluated member
    have worth : HasValue grid a inner := ⟨_, ceiling.cells, [], evaluated⟩
    exact worth.not_reaches_cycle cycle

end Reporting

/-- A cell that leads into a round of two others. -/
def roundSheet : Grid := ⟨[["b01".toList, "c1 1 +".toList, "B1 2 *".toList]], .comma⟩

theorem round_sheet_cycle :
    cell roundSheet .standard ⟨0, 0⟩ = .error (.cycle [⟨1, 0⟩, ⟨2, 0⟩, ⟨1, 0⟩]) := by
  decide +kernel

theorem reported_cycle_behind_tail_is_real :
    (EvalError.cycle [⟨1, 0⟩, ⟨2, 0⟩, ⟨1, 0⟩]).cycleLabels ≠ [] ∧
      ∃ first others,
        IsRound roundSheet (EvalError.cycle [⟨1, 0⟩, ⟨2, 0⟩, ⟨1, 0⟩]).cycleLabels first others ∧
          Reaches roundSheet ⟨0, 0⟩ first := by
  have cyclic : (EvalError.cycle [⟨1, 0⟩, ⟨2, 0⟩, ⟨1, 0⟩]).cycleLabels ≠ [] := by decide +kernel
  exact ⟨cyclic, (reported_cycle_is_real roundSheet .standard).1 _ _ round_sheet_cycle cyclic⟩

end PostfixSheet.Evaluation
