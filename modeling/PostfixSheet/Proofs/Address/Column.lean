import PostfixSheet.Column
import PostfixSheet.Proofs.Text.Ascii

/-!
# Columns and their letters

The letters of a column are capital letters, and they name the column that they were made from.
-/

namespace PostfixSheet.Column

theorem letter_to_nat : ∀ n < 26, (letter n).toNat = 65 + n := by decide

theorem letter_is_alpha : ∀ n < 26, (letter n).isAlpha = true := by decide

theorem upper_letter : ∀ n < 26, Text.upperChar (letter n) = [letter n] := by decide

theorem letter_of_mem_letters {column : Nat} {c : Char} (member : c ∈ letters column) :
    ∃ n < 26, c = letter n := by
  induction column using letters.induct with
  | case1 column small =>
      rw [letters, if_pos small] at member
      exact ⟨column, small, List.mem_singleton.mp member⟩
  | case2 column large induction =>
      rw [letters, if_neg large] at member
      rcases List.mem_append.mp member with member | member
      · exact induction member
      · exact ⟨column % 26, Nat.mod_lt _ (by decide), List.mem_singleton.mp member⟩

theorem letters_ne_nil (column : Nat) : letters column ≠ [] := by
  rw [letters]
  split <;> simp

theorem is_alpha_of_mem_letters {column : Nat} {c : Char} (member : c ∈ letters column) :
    c.isAlpha = true := by
  obtain ⟨n, bound, rfl⟩ := letter_of_mem_letters member
  exact letter_is_alpha n bound

theorem upper_char_of_mem_letters {column : Nat} {c : Char} (member : c ∈ letters column) :
    Text.upperChar c = [c] := by
  obtain ⟨n, bound, rfl⟩ := letter_of_mem_letters member
  exact upper_letter n bound

theorem upper_letters (column : Nat) : Text.upper (letters column) = letters column :=
  Text.upper_eq_self fun _ => upper_char_of_mem_letters

theorem append_letter {n : Nat} (bound : n < 26) (sofar : Int) :
    appendLetter sofar (letter n) = 26 * sofar + (n + 1) := by
  rw [appendLetter, letter_to_nat n bound]
  omega

theorem fold_letters (column : Nat) : (letters column).foldl appendLetter 0 = column + 1 := by
  induction column using letters.induct with
  | case1 column small =>
      rw [letters, if_pos small, List.foldl_cons, List.foldl_nil, append_letter small]
      omega
  | case2 column large induction =>
      rw [letters, if_neg large, List.foldl_append, induction, List.foldl_cons, List.foldl_nil,
        append_letter (Nat.mod_lt _ (by decide))]
      omega

theorem of_letters_letters (column : Nat) : ofLetters (letters column) = column := by
  rw [ofLetters, upper_letters, fold_letters]
  omega

end PostfixSheet.Column
