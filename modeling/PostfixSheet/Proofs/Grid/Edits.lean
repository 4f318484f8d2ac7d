import PostfixSheet.Proofs.Grid.Cells
import Mathlib.Data.List.Induction

/-!
# Edits of a grid

A grid is edited cell by cell. It has a text for an address, it lists the address and it takes an
edit there, or it does none of the three, and no edit changes which addresses these are. A cell shows
what was written into it last, and an edit that is refused leaves no trace.
-/

namespace PostfixSheet.Address

theorem le_iff {a b : Address} :
    a ≤ b ↔ a.row < b.row ∨ (a.row = b.row ∧ a.column ≤ b.column) := by
  change (a < b ∨ a = b) ↔ _
  rw [lt_iff, Address.mk.injEq]
  omega

/-- Sorting addresses that are listed in any order gives the one list of them that is in order. -/
theorem sort_eq_of_perm {listed ordered : List Address} (order : ordered.Pairwise (· < ·))
    (same : listed.Perm ordered) : sort listed = ordered := by
  have transitive : ∀ a b c : Address, decide (a ≤ b) = true → decide (b ≤ c) = true →
      decide (a ≤ c) = true := by
    simp only [decide_eq_true_eq, le_iff]
    omega
  have total : ∀ a b : Address, (decide (a ≤ b) || decide (b ≤ a)) = true := by
    simp only [Bool.or_eq_true, decide_eq_true_eq, le_iff]
    omega
  have sorted : (sort listed).Pairwise (· ≤ ·) :=
    (List.pairwise_mergeSort transitive total listed).imp of_decide_eq_true
  have weakly : ordered.Pairwise (· ≤ ·) := order.imp Or.inl
  refine List.Perm.eq_of_pairwise ?_ sorted weakly ((List.mergeSort_perm listed _).trans same)
  intro a b _ _ one other
  rw [le_iff] at one other
  rw [Address.mk.injEq]
  omega

end PostfixSheet.Address

namespace PostfixSheet.Grid

/-- The grid after edits, the first one first. -/
def edited (grid : Grid) (edits : List (Address × Text)) : Grid :=
  edits.foldl (fun grid edit => grid.put edit.1 edit.2) grid

/-- The text of the last edit of an address. -/
def lastText? (edits : List (Address × Text)) (a : Address) : Option Text :=
  ((edits.filter (·.1 = a)).getLast?).map Prod.snd

section Edits

variable (grid : Grid) (edits : List (Address × Text)) (a : Address) (value : Text)

theorem edited_snoc : grid.edited (edits ++ [(a, value)]) = (grid.edited edits).put a value := by
  rw [edited, List.foldl_concat, edited]

theorem last_text_snoc (b : Address) :
    lastText? (edits ++ [(a, value)]) b = if a = b then some value else lastText? edits b := by
  rw [lastText?, List.filter_append]
  by_cases same : a = b
  · have kept : [(a, value)].filter (·.1 = b) = [(a, value)] := by simp [same]
    rw [kept, List.getLast?_concat, if_pos same]
    rfl
  · have dropped : [(a, value)].filter (·.1 = b) = [] := by simp [same]
    rw [dropped, List.append_nil, if_neg same, lastText?]

theorem set_eq_none_iff : grid.set? a value = none ↔ grid.get? a = none := by
  rw [set_eq, Option.map_eq_none_iff]

theorem put_of_refused (refused : grid.set? a value = none) : grid.put a value = grid := by
  rw [put, refused]
  rfl

theorem shape_edited : (grid.edited edits).shape = grid.shape := by
  induction edits using List.reverseRecOn with
  | nil => rfl
  | append_singleton edits edit induction => rw [edited_snoc, shape_put, induction]

theorem separator_edited : (grid.edited edits).separator = grid.separator := by
  induction edits using List.reverseRecOn with
  | nil => rfl
  | append_singleton edits edit induction => rw [edited_snoc, separator_put, induction]

/-- A cell shows the text of its last edit, and its own text until then. -/
theorem get_edited : (grid.edited edits).get? a =
    (grid.get? a).map fun original => (lastText? edits a).getD original := by
  induction edits using List.reverseRecOn with
  | nil => exact Option.map_id'.symm
  | append_singleton edits edit induction =>
      rw [edited_snoc, get_put, induction, last_text_snoc]
      by_cases same : edit.1 = a
      · rw [if_pos same, if_pos same, Option.map_map]
        rfl
      · rw [if_neg same, if_neg same]

/-- The grid is the same without the edits of addresses that it does not have. -/
theorem edited_eq_inside :
    grid.edited edits = grid.edited (edits.filter fun edit => (grid.get? edit.1).isSome) := by
  induction edits using List.reverseRecOn with
  | nil => rfl
  | append_singleton edits edit induction =>
      rw [edited_snoc, List.filter_append]
      cases found : grid.get? edit.1 with
      | some text =>
          have kept : [edit].filter (fun edit => (grid.get? edit.1).isSome) = [edit] := by
            simp [found]
          rw [kept, edited_snoc, induction]
      | none =>
          have outside : (grid.edited edits).get? edit.1 = none := by
            rw [get_edited, found, Option.map_none]
          have dropped : [edit].filter (fun edit => (grid.get? edit.1).isSome) = [] := by
            simp [found]
          rw [dropped, List.append_nil, ← induction]
          exact put_of_refused _ _ _ ((set_eq_none_iff _ _ _).mpr outside)

end Edits

/-- All views of a grid agree on the cells that it has. -/
structure Agrees (grid : Grid) : Prop where
  listed : ∀ a, a ∈ grid.addresses ↔ grid.get? a ≠ none
  inRow : ∀ a, grid.get? a ≠ none ↔ ∃ length, grid.shape[a.row]? = some length ∧ a.column < length
  takes : ∀ a value, grid.set? a value ≠ none ↔ grid.get? a ≠ none
  ordered : grid.addresses.Pairwise fun a b =>
    a.row < b.row ∨ (a.row = b.row ∧ a.column < b.column)
  once : grid.addresses.Nodup
  sorted : ∀ listed, listed.Perm grid.addresses → Address.sort listed = grid.addresses

theorem agrees (grid : Grid) : grid.Agrees where
  listed := by
    intro a
    rw [mem_addresses_iff, Option.ne_none_iff_exists']
  inRow := by
    intro a
    simp only [shape, List.getElem?_map, Option.map_eq_some_iff, get?, Option.bind_eq_bind,
      Option.ne_none_iff_exists', Option.bind_eq_some_iff]
    constructor
    · rintro ⟨text, cells, found, entry⟩
      exact ⟨cells.length, ⟨cells, found, rfl⟩, (List.getElem?_eq_some_iff.mp entry).1⟩
    · rintro ⟨length, ⟨cells, found, rfl⟩, bound⟩
      exact ⟨cells[a.column], cells, found, List.getElem?_eq_getElem bound⟩
  takes := by
    intro a value
    rw [ne_eq, ne_eq, set_eq_none_iff]
  ordered := grid.addresses_sorted.imp Address.lt_iff.mp
  once := grid.addresses_sorted.imp fun less same => by
    rw [Address.lt_iff, same] at less
    omega
  sorted := fun _ same => Address.sort_eq_of_perm grid.addresses_sorted same

/-- Through any edits a grid keeps its separator, the lengths of its rows and its addresses, and all
its views agree. Each cell shows what was written into it last. A refused edit changes nothing. -/
theorem views_agree_through_edits (grid : Grid) (edits : List (Address × Text)) :
    (grid.edited edits).separator = grid.separator ∧
    (grid.edited edits).shape = grid.shape ∧
    (grid.edited edits).addresses = grid.addresses ∧
    (grid.edited edits).Agrees ∧
    (∀ a, (grid.edited edits).get? a =
      (grid.get? a).map fun original => (lastText? edits a).getD original) ∧
    (∀ a value, (grid.edited edits).set? a value = none →
      grid.edited (edits ++ [(a, value)]) = grid.edited edits) ∧
    grid.edited edits = grid.edited (edits.filter fun edit => (grid.get? edit.1).isSome) := by
  have shape := grid.shape_edited edits
  refine ⟨grid.separator_edited edits, shape, addresses_of_shape shape, agrees _,
    grid.get_edited edits, ?_, grid.edited_eq_inside edits⟩
  intro a value refused
  rw [edited_snoc]
  exact put_of_refused _ _ _ refused

/-- A row of two cells, a row without any, and a row of one. -/
def steps : Grid := ⟨[["1".toList, "2".toList], [], ["3".toList]], .comma⟩

theorem steps_agree_through_edits :
    (steps.edited [(⟨1, 0⟩, "4".toList), (⟨0, 1⟩, "5".toList), (⟨1, 0⟩, "6".toList)]).Agrees ∧
    [(⟨0, 2⟩ : Address), ⟨1, 0⟩, ⟨0, 0⟩].Perm steps.addresses ∧
    Address.sort [⟨0, 2⟩, ⟨1, 0⟩, ⟨0, 0⟩] = steps.addresses ∧
    steps.set? ⟨0, 1⟩ "5".toList = none ∧
    steps.edited [(⟨0, 1⟩, "5".toList)] = steps := by
  have refused : steps.set? ⟨0, 1⟩ "5".toList = none := rfl
  have permuted : [(⟨0, 2⟩ : Address), ⟨1, 0⟩, ⟨0, 0⟩].Perm steps.addresses := by decide
  obtain ⟨_, _, _, agrees, _, _, _⟩ := views_agree_through_edits steps
    [(⟨1, 0⟩, "4".toList), (⟨0, 1⟩, "5".toList), (⟨1, 0⟩, "6".toList)]
  obtain ⟨_, _, _, untouched, _, unchanged, _⟩ := views_agree_through_edits steps []
  exact ⟨agrees, permuted, untouched.sorted _ permuted, refused, unchanged _ _ refused⟩

end PostfixSheet.Grid
