import PostfixSheet.Evaluation.Cell
import PostfixSheet.Proofs.Address.Label
import PostfixSheet.Proofs.Grid.Cells
import Mathlib.Data.List.Chain

/-!
# References between cells

A cell refers to every address that a reference token of its text names. The relation says nothing
about evaluation: it is read off the grid. Chains of references are bounded in length exactly where
no cycle can be reached, and the second half of that is what is used here.
-/

namespace PostfixSheet.Evaluation

open Relation (ReflTransGen TransGen)

/-- The text of the first cell has a reference to the second. -/
def References (grid : Grid) (a b : Address) : Prop :=
  ∃ text label, grid.get? a = some text ∧ Token.reference label (some b) ∈ Token.scan text

/-- The second address can be reached from the first through references, by none at all too. -/
abbrev Reaches (grid : Grid) : Address → Address → Prop := ReflTransGen (References grid)

/-- Some cell that can be reached refers to itself, directly or through others. -/
def ReachesCycle (grid : Grid) (a : Address) : Prop :=
  ∃ b, Reaches grid a b ∧ TransGen (References grid) b b

/-- Every chain of references that starts at a cell has at most the given number of cells. -/
def ChainsWithin (grid : Grid) (bound : Nat) (a : Address) : Prop :=
  ∀ rest, (a :: rest).IsChain (References grid) → (a :: rest).length ≤ bound

theorem ChainsWithin.pos {grid : Grid} {bound : Nat} {a : Address}
    (within : ChainsWithin grid bound a) : 0 < bound :=
  within [] (.singleton a)

theorem ChainsWithin.next {grid : Grid} {bound : Nat} {a b : Address}
    (within : ChainsWithin grid (bound + 1) a) (refers : References grid a b) :
    ChainsWithin grid bound b := by
  intro rest chain
  have longer := within (b :: rest) (.cons_cons refers chain)
  simp only [List.length_cons] at longer ⊢
  omega

theorem ChainsWithin.of_reaches {grid : Grid} {bound : Nat} {a b : Address}
    (within : ChainsWithin grid bound a) (reached : Reaches grid a b) :
    ChainsWithin grid bound b := by
  induction reached with
  | refl => exact within
  | tail _ refers induction =>
      intro rest chain
      have longer := induction (_ :: rest) (.cons_cons refers chain)
      simp only [List.length_cons] at longer ⊢
      omega

/-- Around a cycle there are chains of every length, so a bound on the chains excludes cycles. -/
theorem ChainsWithin.not_reaches_cycle {grid : Grid} {bound : Nat} {a : Address}
    (within : ChainsWithin grid bound a) : ¬ReachesCycle grid a := by
  rintro ⟨b, reached, around⟩
  have at_cycle := within.of_reaches reached
  clear within reached
  induction bound generalizing b with
  | zero => exact absurd at_cycle.pos (Nat.lt_irrefl 0)
  | succ bound induction =>
      obtain ⟨c, refers, back⟩ := TransGen.head'_iff.mp around
      have around_next : TransGen (References grid) c c := TransGen.tail' back refers
      exact induction c around_next (at_cycle.next refers)

theorem reaches_of_mem_chain {grid : Grid} {a b : Address} {cells : List Address}
    (starts : cells.head? = some a) (chain : cells.IsChain (References grid)) (member : b ∈ cells) :
    Reaches grid a b := by
  induction chain generalizing a with
  | nil => cases member
  | singleton c =>
      obtain rfl := List.mem_singleton.mp member
      obtain rfl := Option.some.inj starts
      exact .refl
  | cons_cons refers _ induction =>
      obtain rfl := Option.some.inj starts
      rcases List.mem_cons.mp member with rfl | member
      · exact .refl
      · exact .head refers (induction rfl member)

theorem References.inside {grid : Grid} {a b : Address} (refers : References grid a b) :
    a ∈ grid.addresses := by
  obtain ⟨text, _, found, _⟩ := refers
  exact Grid.mem_addresses_iff.mpr ⟨text, found⟩

/-- A text that refers to a cell is not the last one that there may be room for. -/
theorem References.bound {grid : Grid} {room : Room} {a b : Address} {text : Text}
    (refers : References grid a b) (found : grid.get? a = some text) :
    room.bound (Token.scan text) = room.cells := by
  obtain ⟨same, label, foundAgain, member⟩ := refers
  obtain rfl : text = same := Option.some.inj (found.symm.trans foundAgain)
  exact Room.bound_of_reference member

theorem References.nameable {grid : Grid} {a b : Address} (refers : References grid a b) :
    b.Nameable := by
  obtain ⟨_, _, _, member⟩ := refers
  exact Token.nameable_of_mem_scan member

theorem exists_head_append (cells : List Address) (last : Address) :
    ∃ first, (cells ++ [last]).head? = some first := by
  cases cells with
  | nil => exact ⟨last, rfl⟩
  | cons first cells => exact ⟨first, rfl⟩

theorem inside_of_mem_chain {grid : Grid} {a last : Address} {cells : List Address}
    (chain : (cells ++ [last]).IsChain (References grid)) (member : a ∈ cells) :
    a ∈ grid.addresses := by
  induction cells with
  | nil => cases member
  | cons first cells induction =>
      rcases List.mem_cons.mp member with rfl | member
      · obtain ⟨next, starts⟩ := exists_head_append cells last
        exact ((List.isChain_cons.mp chain).1 next starts).inside
      · exact induction chain.tail member

theorem nameable_of_mem_chain {grid : Grid} {a first : Address} {cells : List Address}
    (chain : (first :: cells).IsChain (References grid)) (member : a ∈ cells) : a.Nameable := by
  induction cells generalizing first with
  | nil => cases member
  | cons second cells induction =>
      obtain ⟨refers, chain⟩ := List.isChain_cons_cons.mp chain
      rcases List.mem_cons.mp member with rfl | member
      · exact refers.nameable
      · exact induction chain member

theorem trans_gen_of_chain {grid : Grid} {a b : Address} {middle : List Address}
    (chain : (a :: (middle ++ [b])).IsChain (References grid)) :
    TransGen (References grid) a b := by
  induction middle generalizing a with
  | nil => exact .single (List.isChain_cons_cons.mp chain).1
  | cons next middle induction =>
      obtain ⟨refers, chain⟩ := List.isChain_cons_cons.mp chain
      exact .head refers (induction chain)

/-- A chain that comes back to one of its cells goes round a cycle. -/
theorem reaches_cycle_of_chain {grid : Grid} {a last : Address} {trail : List Address}
    (starts : (trail ++ [last]).head? = some a)
    (chain : (trail ++ [last]).IsChain (References grid)) (again : last ∈ trail) :
    ReachesCycle grid a := by
  have reached : Reaches grid a last := reaches_of_mem_chain starts chain (by simp)
  obtain ⟨before, after, rfl⟩ := List.append_of_mem again
  have around : (last :: (after ++ [last])).IsChain (References grid) := by
    rw [List.append_assoc, List.cons_append] at chain
    exact (List.isChain_append.mp chain).2.1
  exact ⟨last, reached, trans_gen_of_chain around⟩

end PostfixSheet.Evaluation
