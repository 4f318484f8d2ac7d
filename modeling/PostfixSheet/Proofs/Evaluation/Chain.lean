import PostfixSheet.Evaluation.Cell
import PostfixSheet.Proofs.Grid.Cells
import PostfixSheet.Proofs.Machine.Outcome
import PostfixSheet.Proofs.Text.Pieces
import PostfixSheet.Proofs.Token.Kind

/-!
# Chains of labels

A cell whose text is the label of another one is worth what that is worth, one cell further down.
An evaluation goes down a column of such cells as far as there is room. If it comes to a number at
the end, all cells of the column are worth that; otherwise it is given up on the way. So whatever
the call stack holds, some column is too long for it, and a column that is read from two places may
be too long from one of them only.
-/

namespace PostfixSheet

theorem Address.nameable_of_row_lt {a : Address} (few : a.row < 9999) : a.Nameable := by
  have short : (Text.ofNat (a.row + 1)).length ≤ 4 :=
    (Nat.length_toDigits_le_iff (by decide) (by decide)).mpr (Nat.succ_lt_succ few)
  exact short.trans (by decide)

/-- The label of a cell is a text that asks for the cell and for nothing else. -/
theorem Token.scan_label {a : Address} (nameable : a.Nameable) :
    Token.scan a.label = [.reference a.label (some a)] := by
  have unbroken : Text.Unbroken a.label := by
    apply Text.unbroken_append
    · exact fun c member => Text.not_is_blank_of_is_alpha (Column.is_alpha_of_mem_letters member)
    · exact fun c member => Text.not_is_blank_of_is_digit (Text.is_digit_of_mem_of_nat member)
  have some : a.label ≠ [] := List.append_ne_nil_of_left_ne_nil (Column.letters_ne_nil _) _
  rw [Token.scan, Text.words_single some unbroken, List.map_singleton, Token.of_text_label nameable]

namespace Evaluation

theorem run_label (answer : Machine.Answer) {a : Address} (nameable : a.Nameable) :
    Machine.run answer (Token.scan a.label) = answer a.label (some a) := by
  rw [Token.scan_label nameable, Machine.run, Machine.runFrom, Machine.step]
  cases answer a.label (some a) <;> rfl

variable {grid : Grid} {room : Room} {remaining : Nat} {path : List Address} {a b : Address}

theorem bound_label (room : Room) {a : Address} (nameable : a.Nameable) :
    room.bound (Token.scan a.label) = room.cells := by
  have asks : .reference a.label (some a) ∈ Token.scan a.label := by
    rw [Token.scan_label nameable]
    exact List.mem_singleton_self _
  exact Room.bound_of_reference asks

theorem cell_on_path_link (link : grid.get? a = some b.label) (nameable : b.Nameable)
    (unseen : a ∉ path) :
    cellOnPath grid room (remaining + 1) path a =
      if path.length < room.cells then cellOnPath grid room remaining (path ++ [a]) b
      else .error (.exhausted (path.length + 1)) := by
  rw [cell_on_path_succ unseen, link]
  simp only [bound_label room nameable, run_label _ nameable, answer_on_path_some]

theorem scan_one : Token.scan "1".toList = [.number ['1'] 1] := by
  obtain ⟨numeral, read, one⟩ :
      ∃ numeral, Numeral.ofText? "1".toList = some numeral ∧ numeral.toFloat = 1 :=
    ⟨_, rfl, by decide +kernel⟩
  rw [← one]
  cases read
  rfl

theorem cell_on_path_one (number : grid.get? a = some "1".toList) (unseen : a ∉ path) :
    cellOnPath grid room (remaining + 1) path a =
      if path.length < room.leaves then .ok 1 else .error (.exhausted (path.length + 1)) := by
  rw [cell_on_path_succ unseen, number]
  simp only [scan_one]
  rfl

/-- Some cells of the first column, from a row on. -/
def column (first count : Nat) : List Address := (List.range' first count).map fun row => ⟨0, row⟩

theorem length_column (first count : Nat) : (column first count).length = count := by
  simp [column]

theorem mem_column {row first count : Nat} :
    ⟨0, row⟩ ∈ column first count ↔ first ≤ row ∧ row < first + count := by
  simp [column]

theorem column_succ (first count : Nat) :
    column first (count + 1) = column first 1 ++ column (first + 1) count := rfl

theorem column_concat (count : Nat) : column 0 (count + 1) = column 0 count ++ [⟨0, count⟩] := by
  simp [column, List.range'_1_concat]

/-- Every cell of the first column between two rows refers to the next, and to nothing else. -/
def Links (grid : Grid) (first last : Nat) : Prop :=
  ∀ row, first ≤ row → row < last → grid.get? ⟨0, row⟩ = some (Address.label ⟨0, row + 1⟩)

theorem not_mem_append_column {row first count : Nat} (unseen : ⟨0, row⟩ ∉ path)
    (beyond : first + count ≤ row) : ⟨0, row⟩ ∉ path ++ column first count := by
  intro member
  rcases List.mem_append.mp member with member | member
  · exact unseen member
  · exact absurd (mem_column.mp member).2 (Nat.not_lt.mpr beyond)

section Column

variable {first count : Nat} (few : first + count < 9999)
  (unseen : ∀ row, first ≤ row → ⟨0, row⟩ ∉ path)

include few unseen

/-- As long as there is room, a column of links is entered cell by cell. -/
theorem Links.descend (links : Links grid first (first + count))
    (fits : path.length + count ≤ room.cells) :
    cellOnPath grid room (remaining + count) path ⟨0, first⟩ =
      cellOnPath grid room remaining (path ++ column first count) ⟨0, first + count⟩ := by
  induction count generalizing first path with
  | zero => simp [column]
  | succ count induction =>
      have shift : first + (count + 1) = first + 1 + count := by omega
      have nameable : Address.Nameable ⟨0, first + 1⟩ :=
        Address.nameable_of_row_lt (Nat.lt_of_le_of_lt (by simp only; omega) few)
      have space : path.length < room.cells := by omega
      have regroup : path ++ column first (count + 1) =
          path ++ [⟨0, first⟩] ++ column (first + 1) count := by
        rw [column_succ, List.append_assoc]
        rfl
      have link := links first (Nat.le_refl _) (by omega)
      rw [← Nat.add_assoc, cell_on_path_link link nameable (unseen first (Nat.le_refl _)),
        if_pos space, regroup, shift]
      rw [shift] at links few
      apply induction few
      · intro row above
        exact not_mem_append_column (unseen row (Nat.le_of_succ_le above)) above
      · intro row above below
        exact links row (Nat.le_of_succ_le above) below
      · rw [List.length_append, List.length_singleton]
        omega

/-- Where there is room down to the number, every cell of the column is worth it. -/
theorem Links.value (links : Links grid first (first + count))
    (number : grid.get? ⟨0, first + count⟩ = some "1".toList)
    (fits : path.length + count ≤ room.cells) (last : path.length + count < room.leaves)
    {allowed : Nat} (enough : count < allowed) :
    cellOnPath grid room allowed path ⟨0, first⟩ = .ok 1 := by
  obtain ⟨remaining, rfl⟩ : ∃ remaining, allowed = remaining + 1 + count :=
    ⟨allowed - 1 - count, by omega⟩
  have unmet : ⟨0, first + count⟩ ∉ path ++ column first count :=
    not_mem_append_column (unseen _ (Nat.le_add_right _ _)) (Nat.le_refl _)
  rw [links.descend few unseen fits, cell_on_path_one number unmet, List.length_append,
    length_column, if_pos last]

/-- Where the column is longer than there is room, the evaluation is given up in it. -/
theorem Links.given_up (links : Links grid first (first + count))
    (number : grid.get? ⟨0, first + count⟩ = some "1".toList)
    (within : path.length ≤ room.cells) (long : room.leaves ≤ path.length + count)
    {allowed : Nat} (enough : room.cells < path.length + allowed) :
    cellOnPath grid room allowed path ⟨0, first⟩ = .error (.exhausted (room.cells + 1)) := by
  obtain ⟨steps, full⟩ := Nat.exists_eq_add_of_le within
  obtain ⟨remaining, rfl⟩ : ∃ remaining, allowed = remaining + 1 + steps :=
    ⟨allowed - 1 - steps, by omega⟩
  have wide := room.le
  have upTo : Links grid first (first + steps) := by
    intro row above below
    exact links row above (by omega)
  have unmet : ⟨0, first + steps⟩ ∉ path ++ column first steps :=
    not_mem_append_column (unseen _ (Nat.le_add_right _ _)) (Nat.le_refl _)
  have length : (path ++ column first steps).length = room.cells := by
    rw [List.length_append, length_column, full]
  rw [upTo.descend (by omega) unseen full.ge]
  by_cases arrived : steps = count
  · subst arrived
    rw [cell_on_path_one number unmet, length]
    exact if_neg (by omega)
  · have nameable : Address.Nameable ⟨0, first + steps + 1⟩ :=
      Address.nameable_of_row_lt (Nat.lt_of_le_of_lt (by simp only; omega) few)
    have link := links (first + steps) (Nat.le_add_right _ _) (by omega)
    rw [cell_on_path_link link nameable unmet, length]
    exact if_neg (Nat.lt_irrefl _)

end Column

/-- A column of links that ends with a number. -/
def chainSheet (links : Nat) : Grid :=
  ⟨((List.range links).map fun row => [Address.label ⟨0, row + 1⟩]) ++ [["1".toList]], .comma⟩

theorem chain_links (first : Nat) {links : Nat} : Links (chainSheet links) first links := by
  intro row _ inside
  simp [Grid.get?, chainSheet, List.getElem?_append_left, inside]

theorem get_chain_end (links : Nat) : (chainSheet links).get? ⟨0, links⟩ = some "1".toList := by
  simp [Grid.get?, chainSheet]

theorem length_chain_addresses (links : Nat) :
    (chainSheet links).addresses.length = links + 1 := by
  rw [Grid.length_addresses]
  simp [chainSheet, Function.comp_def]

section Chain

variable {first count allowed : Nat} (few : first + count < 9999)

include few

theorem chain_value (fits : count ≤ room.cells) (last : count < room.leaves)
    (enough : count < allowed) :
    cellOnPath (chainSheet (first + count)) room allowed [] ⟨0, first⟩ = .ok 1 := by
  apply (chain_links first).value few (by simp) (get_chain_end _)
  · simpa using fits
  · simpa using last
  · exact enough

theorem chain_given_up (long : room.leaves ≤ count) (enough : room.cells < allowed) :
    cellOnPath (chainSheet (first + count)) room allowed [] ⟨0, first⟩ =
      .error (.exhausted (room.cells + 1)) := by
  apply (chain_links first).given_up few (by simp) (get_chain_end _) (Nat.zero_le _)
  · simpa using long
  · simpa using enough

end Chain

/-- A round of two hundred cells. The second of them reads a column beside the round first, which
has as many cells. -/
def sidedRoundSheet : Grid :=
  ((chainSheet 399).put ⟨0, 1⟩ "A201 A3 +".toList).put ⟨0, 199⟩ "A1".toList

theorem length_sided_round_addresses : sidedRoundSheet.addresses.length = 400 := by
  have shape : sidedRoundSheet.shape = (chainSheet 399).shape := by
    rw [sidedRoundSheet, Grid.shape_put, Grid.shape_put]
  rw [Grid.addresses_of_shape shape, length_chain_addresses]

theorem get_sided_round {row : Nat} (noFork : 1 ≠ row) (noEnd : 199 ≠ row) :
    sidedRoundSheet.get? ⟨0, row⟩ = (chainSheet 399).get? ⟨0, row⟩ := by
  simp [sidedRoundSheet, Grid.get_put, noFork, noEnd]

theorem sided_round_links {first last : Nat} (behind : 1 < first) (upTo : last ≤ 399)
    (apart : last ≤ 199 ∨ 199 < first) : Links sidedRoundSheet first last := by
  intro row above below
  rw [get_sided_round (by omega) (by omega)]
  exact chain_links 0 row (Nat.zero_le _) (by omega)

theorem get_sided_round_start : sidedRoundSheet.get? ⟨0, 0⟩ = some (Address.label ⟨0, 1⟩) := by
  rw [get_sided_round (by decide) (by decide)]
  exact chain_links 0 0 (Nat.le_refl 0) (by decide)

theorem get_sided_round_fork : sidedRoundSheet.get? ⟨0, 1⟩ = some "A201 A3 +".toList := by
  have there := chain_links 0 1 (Nat.zero_le 1) (by decide : 1 < 399)
  simp [sidedRoundSheet, Grid.get_put, there]

theorem get_sided_round_number : sidedRoundSheet.get? ⟨0, 399⟩ = some "1".toList := by
  rw [get_sided_round (by decide) (by decide)]
  exact get_chain_end 399

theorem get_sided_round_end : sidedRoundSheet.get? ⟨0, 199⟩ = some (Address.label ⟨0, 0⟩) := by
  have there := chain_links 0 199 (Nat.zero_le 199) (by decide : 199 < 399)
  have label : "A1".toList = Address.label ⟨0, 0⟩ := by decide +kernel
  simp only [sidedRoundSheet, Grid.get_put, label]
  simp [there]

theorem sided_round_links_side : Links sidedRoundSheet 200 (200 + 199) :=
  sided_round_links (by decide) (by decide) (.inr (by decide))

theorem sided_round_links_round : Links sidedRoundSheet 2 (2 + 197) :=
  sided_round_links (by decide) (by decide) (.inl (by decide))

/-- The second cell of the round comes to the column first, and goes on if that has its value. -/
theorem sided_round_fork {path : List Address} (unseen : ⟨0, 1⟩ ∉ path) {error : EvalError}
    (space : path.length < room.cells)
    (stops : cellOnPath sidedRoundSheet room remaining (path ++ [⟨0, 1⟩]) ⟨0, 200⟩ = .error error ∨
      cellOnPath sidedRoundSheet room remaining (path ++ [⟨0, 1⟩]) ⟨0, 200⟩ = .ok 1 ∧
        cellOnPath sidedRoundSheet room remaining (path ++ [⟨0, 1⟩]) ⟨0, 2⟩ = .error error) :
    cellOnPath sidedRoundSheet room (remaining + 1) path ⟨0, 1⟩ = .error error := by
  have scanned : Token.scan "A201 A3 +".toList =
      [.reference "A201".toList (some ⟨0, 200⟩), .reference "A3".toList (some ⟨0, 2⟩),
        .operator .plus] := rfl
  have bound : path.length < room.bound (Token.scan "A201 A3 +".toList) :=
    Nat.lt_of_lt_of_le space (room.cells_le_bound _)
  rw [cell_on_path_succ unseen, get_sided_round_fork]
  simp only [bound, if_true]
  rw [scanned]
  apply Machine.run_error_of_fails_at
  rcases stops with side | ⟨side, further⟩
  · exact ⟨[], _, _, _, [], rfl, rfl, side⟩
  · refine ⟨[.reference "A201".toList (some ⟨0, 200⟩)], _, _, _, [1], rfl, ?_, further⟩
    simp only [Machine.runFrom, Machine.step, answer_on_path_some, side]
    rfl

/-- From the first cell on, the column is read below two cells, and then the round closes. -/
theorem sided_round_closes (fits : 201 ≤ room.cells) (last : 201 < room.leaves)
    (enough : 201 < remaining) :
    cellOnPath sidedRoundSheet room remaining [] ⟨0, 0⟩ =
      .error (.cycle (column 0 200 ++ [⟨0, 0⟩])) := by
  obtain ⟨more, rfl⟩ : ∃ more, remaining = more + 1 + 197 + 1 + 1 :=
    ⟨remaining - 200, by omega⟩
  have unseen : ∀ row, 2 ≤ row → ⟨0, row⟩ ∉ column 0 2 := by
    intro row above member
    exact absurd (mem_column.mp member).2 (Nat.not_lt.mpr above)
  have unmet : ⟨0, 199⟩ ∉ column 0 2 ++ column 2 197 :=
    not_mem_append_column (unseen 199 (by decide)) (by decide)
  have again : ⟨0, 0⟩ ∈ column 0 2 ++ column 2 197 ++ [⟨0, 199⟩] := by decide
  have closed : (column 0 2 ++ column 2 197 ++ [⟨0, 199⟩] : List Address).dropWhile (· != ⟨0, 0⟩) =
      column 0 200 := by decide +kernel
  rw [cell_on_path_link get_sided_round_start (by decide) (by simp), if_pos (by simp; omega)]
  apply sided_round_fork (by decide) (by simp; omega)
  refine .inr ⟨?_, ?_⟩
  · apply sided_round_links_side.value (by decide) _ get_sided_round_number
    · simpa using fits
    · simpa using last
    · omega
    · intro row above
      exact unseen row (by omega)
  · change cellOnPath sidedRoundSheet room (more + 1 + 197) (column 0 2) ⟨0, 2⟩ = _
    have space : (column 0 2 ++ column 2 197).length < room.cells := by
      rw [List.length_append, length_column, length_column]
      omega
    rw [sided_round_links_round.descend (by decide) unseen (by rw [length_column]; omega),
      cell_on_path_link get_sided_round_end (by decide) unmet, if_pos space,
      cell_on_path_of_mem again, closed]

/-- From the third cell on, the column is read below all cells of the round. -/
theorem sided_round_given_up (space : 200 ≤ room.cells) (long : room.leaves ≤ 399)
    (enough : room.cells < remaining) :
    cellOnPath sidedRoundSheet room remaining [] ⟨0, 2⟩ = .error (.exhausted (room.cells + 1)) := by
  obtain ⟨more, rfl⟩ : ∃ more, remaining = more + 1 + 1 + 1 + 197 := ⟨remaining - 200, by omega⟩
  have unmet : ⟨0, 199⟩ ∉ column 2 197 := by decide
  have unmetFirst : ⟨0, 0⟩ ∉ column 2 197 ++ [⟨0, 199⟩] := by decide
  have unmetFork : ⟨0, 1⟩ ∉ column 2 197 ++ [⟨0, 199⟩] ++ [⟨0, 0⟩] := by decide
  rw [sided_round_links_round.descend (by decide) (by simp) (by simp; omega), List.nil_append,
    cell_on_path_link get_sided_round_end (by decide) unmet,
    if_pos (by rw [length_column]; omega),
    cell_on_path_link get_sided_round_start (by decide) unmetFirst,
    if_pos (by rw [List.length_append, length_column, List.length_singleton]; omega)]
  have length : (column 2 197 ++ [⟨0, 199⟩] ++ [⟨0, 0⟩] : List Address).length = 199 := rfl
  apply sided_round_fork unmetFork (by rw [length]; omega)
  refine .inl (sided_round_links_side.given_up (by decide) ?_ get_sided_round_number ?_ ?_ ?_)
  · intro row above member
    simp [column] at member
    omega
  · rw [List.length_append, length]
    exact space
  · rw [List.length_append, length]
    exact long
  · rw [List.length_append, length]
    simp
    omega

end Evaluation
end PostfixSheet
