import PostfixSheet.Evaluation.Cell
import PostfixSheet.Proofs.Address.Label
import PostfixSheet.Proofs.Json.Text
import PostfixSheet.Proofs.Machine.Outcome
import PostfixSheet.Proofs.Text.Pieces

/-!
# What the message of an error is made of

Whatever the cells hold, an error speaks of them by labels of letters and digits. Its message is
therefore one line of plain characters, which a console shows as it stands.
-/

namespace PostfixSheet

open Json (IsPlain)

/-- A text of plain characters. -/
def AllPlain (text : Text) : Prop := ∀ c ∈ text, IsPlain c

instance (text : Text) : Decidable (AllPlain text) := List.decidableBAll IsPlain text

theorem AllPlain.append {front back : Text} (first : AllPlain front) (further : AllPlain back) :
    AllPlain (front ++ back) := by
  intro c member
  rcases List.mem_append.mp member with inFront | inBack
  · exact first c inFront
  · exact further c inBack

theorem AllPlain.no_escape {text : Text} (plain : AllPlain text) : '\x1b' ∉ text := by
  intro member
  exact absurd (plain _ member) (by decide)

theorem plain_of_is_digit {c : Char} (digit : c.isDigit = true) : IsPlain c := by
  have range := Text.is_digit_range digit
  constructor
  · omega
  · omega

theorem plain_of_is_alpha {c : Char} (letter : c.isAlpha = true) : IsPlain c := by
  have range := Text.is_alpha_range letter
  constructor
  · omega
  · omega

theorem plain_of_nat (n : Nat) : AllPlain (Text.ofNat n) :=
  fun _ member => plain_of_is_digit (Text.is_digit_of_mem_of_nat member)

theorem plain_label (a : Address) : AllPlain a.label := by
  apply AllPlain.append
  · exact fun _ member => plain_of_is_alpha (Column.is_alpha_of_mem_letters member)
  · exact plain_of_nat (a.row + 1)

theorem plain_upper_of_shape {text : Text} (shape : Address.hasLabelShape text = true) :
    AllPlain (Text.upper text) := by
  obtain ⟨⟨letters, digits⟩, cut⟩ := Option.isSome_iff_exists.mp shape
  obtain ⟨rfl, _, _, allLetters, allDigits⟩ := Address.label_parts_sound cut
  rw [Text.upper_append, Text.upper_of_digits allDigits]
  apply AllPlain.append
  · exact fun c member => plain_of_is_alpha ((Text.upper_of_letters allLetters).2.1 c member)
  · exact fun c member => plain_of_is_digit (allDigits c member)

/-- A reference goes by a label of letters and digits, also one that names no cell. -/
theorem plain_of_reference {text label : Text} {address : Option Address}
    (member : .reference label address ∈ Token.scan text) : AllPlain label := by
  obtain ⟨word, _, read⟩ := List.mem_map.mp member
  simp only [Token.ofText] at read
  split at read
  · cases read
  · split at read
    · next shape =>
      cases read
      exact plain_upper_of_shape shape
    · split at read
      · cases read
      · cases read

namespace EvalError

/-- A cell that is missing is spoken of in plain characters. -/
def NamesPlainly : EvalError → Prop
  | .missingCell label => AllPlain label
  | _ => True

theorem plain_message {error : EvalError} (names : error.NamesPlainly) :
    AllPlain error.message := by
  cases error with
  | noValue | divisionByZero => decide
  | tooDeep cells | exhausted cells =>
      exact .append (.append (by decide) (plain_of_nat cells)) (by decide)
  | leftOver count => exact .append (.append (by decide) (plain_of_nat count)) (by decide)
  | missingCell label => exact .append (by decide) names
  | missingOperand op =>
      cases op <;> decide
  | cycle path =>
      apply AllPlain.append
      · decide
      · intro c member
        rcases Text.mem_intercalate member with arrow | ⟨label, inside, member⟩
        · have arrows : AllPlain " -> ".toList := by decide
          exact arrows c arrow
        · obtain ⟨a, _, rfl⟩ := List.mem_map.mp inside
          exact plain_label a c member

theorem plain_kind (error : EvalError) : AllPlain error.kind := by
  cases error with
  | cycle | tooDeep | exhausted =>
      change AllPlain "recursion_exceeded".toList
      decide
  | noValue | missingOperand =>
      change AllPlain "not_enough_operands".toList
      decide
  | leftOver =>
      change AllPlain "too_many_operands".toList
      decide
  | missingCell =>
      change AllPlain "cell_not_found".toList
      decide
  | divisionByZero => decide

theorem names_plainly_of_own {error : EvalError} (own : Machine.IsOwn error) :
    error.NamesPlainly := by
  cases error with
  | missingCell => exact own.elim
  | cycle | tooDeep | exhausted | noValue | missingOperand | leftOver | divisionByZero => trivial

end EvalError

namespace Evaluation

variable {grid : Grid} {error : EvalError}

theorem cell_on_path_names_plainly {room : Room} {remaining : Nat} {path : List Address} {a : Address}
    (failed : cellOnPath grid room remaining path a = .error error) : error.NamesPlainly := by
  induction remaining generalizing path a with
  | zero =>
      by_cases again : a ∈ path
      · rw [cell_on_path_of_mem again] at failed
        cases failed
        trivial
      · rw [cell_on_path_zero again] at failed
        cases failed
        trivial
  | succ remaining induction =>
      by_cases again : a ∈ path
      · rw [cell_on_path_of_mem again] at failed
        cases failed
        trivial
      · rw [cell_on_path_succ again] at failed
        split at failed
        · cases failed
          exact plain_label a
        · next text found =>
          split at failed
          · rcases Machine.run_error_cases failed with own | stopped
            · exact EvalError.names_plainly_of_own own
            · obtain ⟨front, label, address, back, reached, split, _, refused⟩ := stopped
              cases address with
              | some next => exact induction refused
              | none =>
                  cases refused
                  have member : .reference label none ∈ Token.scan text := by
                    rw [split]
                    exact List.mem_append_right front List.mem_cons_self
                  exact plain_of_reference member
          · cases failed
            trivial

/-- The message of a cell without a value is made of plain characters, whatever the grid holds. -/
theorem plain_cell_message [CallStack] {ceiling : Ceiling} {a : Address}
    (failed : cell grid ceiling a = .error error) : AllPlain error.message :=
  EvalError.plain_message (cell_on_path_names_plainly failed)

end Evaluation
end PostfixSheet
