import PostfixSheet.Proofs.Address.Label
import PostfixSheet.Proofs.Decimal.Numeral

/-!
# The kind of a word

What a word is taken for shows in its first characters: numerals start with a digit, a point or a
sign before one of them, labels with a letter, and the operators are words of their own.
-/

namespace PostfixSheet.Operator

theorem eq_text_of_of_text {text : Text} {op : Operator} (read : ofText? text = some op) :
    text = op.text := by
  unfold ofText? at read
  split at read <;> cases read <;> rfl

theorem of_text_eq_none_of_two (first second : Char) (rest : Text) :
    ofText? (first :: second :: rest) = none := by
  simp [ofText?]

theorem of_text_eq_none_of_class {p : Char → Bool} {c : Char} (held : p c = true)
    (missed : ['+', '-', '*', '/'].all (fun mark => !p mark) = true) (rest : Text) :
    ofText? (c :: rest) = none := by
  have other := Text.ne_of_class held missed
  simp only [List.forall_mem_cons] at other
  obtain ⟨noPlus, noMinus, noTimes, noOver, _⟩ := other
  simp [ofText?, noPlus, noMinus, noTimes, noOver]

end PostfixSheet.Operator

namespace PostfixSheet.Token

theorem no_label_shape {c : Char} (noLetter : c.isAlpha = false) (rest : Text) :
    Address.hasLabelShape (c :: rest) = false := by
  have none : (c :: rest).takeWhile Char.isAlpha = [] :=
    List.takeWhile_cons_of_neg (by simp [noLetter])
  simp [Address.hasLabelShape, Address.labelParts?, none]

theorem of_text_of_numeral {negative : Bool} {c : Char} {rest : Text} {numeral : Numeral}
    (start : c.isDigit = true ∨ c = '.')
    (read : Numeral.ofText? (Numeral.minus negative ++ c :: rest) = some numeral) :
    ofText (Numeral.minus negative ++ c :: rest) =
      .number (Numeral.minus negative ++ c :: rest) numeral.toFloat := by
  have noOperator : Operator.ofText? (Numeral.minus negative ++ c :: rest) = none := by
    cases negative with
    | true => exact Operator.of_text_eq_none_of_two _ _ _
    | false =>
        rcases start with digit | rfl
        · exact Operator.of_text_eq_none_of_class digit (by decide) rest
        · simp [Numeral.minus, Operator.ofText?]
  have noLabel : Address.hasLabelShape (Numeral.minus negative ++ c :: rest) = false := by
    cases negative with
    | true => exact no_label_shape rfl _
    | false =>
        apply no_label_shape
        rcases start with digit | rfl
        · simpa using Address.not_is_alpha_of_is_digit digit
        · rfl
  simp [ofText, noOperator, noLabel, read]

theorem of_text_of_label {label letters digits : Text}
    (parts : Address.labelParts? label = some (letters, digits)) :
    ofText label = .reference (Text.upper label) (Address.ofLabel? label) := by
  obtain ⟨rfl, named, _, allLetters, _⟩ := Address.label_parts_sound parts
  obtain ⟨c, letters, rfl⟩ := List.exists_cons_of_ne_nil named
  have letter := allLetters c (by simp)
  have noOperator : Operator.ofText? (c :: letters ++ digits) = none :=
    Operator.of_text_eq_none_of_class letter (by decide) _
  have shape : Address.hasLabelShape (c :: letters ++ digits) = true := by
    rw [Address.hasLabelShape, parts]
    rfl
  simp only [ofText, noOperator, shape, if_true]

theorem of_text_label {a : Address} (nameable : a.Nameable) :
    ofText a.label = .reference a.label (some a) := by
  rw [of_text_of_label (Address.label_parts_label a), Address.upper_label,
    Address.of_label_label nameable]

theorem of_text_operator (op : Operator) : ofText op.text = .operator op := by
  cases op <;> rfl

end PostfixSheet.Token
