import PostfixSheet.Proofs.Machine.Outcome
import PostfixSheet.Proofs.Text.Joined
import PostfixSheet.Proofs.Token.Recognition

/-!
# Condensed texts

A text without the words that mean nothing, its tokens written with single spaces between them. The
text of a token is a word that is read as the same token: numbers and operators are kept as they
stand, and a reference is written in upper case, which is upper case for good and names what the
word named. So a condensed text has exactly the recognized tokens of the text, and the stack machine
ends on it as it does on the text.
-/

namespace PostfixSheet

namespace Address

theorem shape_upper {word : Text} (shape : hasLabelShape word = true) :
    hasLabelShape (Text.upper word) = true := by
  obtain ⟨letters, digits, rfl, someLetters, someDigits, allLetters, allDigits⟩ :=
    has_label_shape_iff.mp shape
  obtain ⟨length, capitals, _⟩ := Text.upper_of_letters allLetters
  have someCapitals : Text.upper letters ≠ [] := by
    rw [← List.length_pos_iff, length]
    exact List.length_pos_iff.mpr someLetters
  refine has_label_shape_iff.mpr
    ⟨Text.upper letters, digits, ?_, someCapitals, someDigits, capitals, allDigits⟩
  rw [Text.upper_append, Text.upper_of_digits allDigits]

theorem unbroken_of_shape {word : Text} (shape : hasLabelShape word = true) :
    Text.Unbroken word := by
  intro c member
  rcases letter_or_digit_of_shape shape member with letter | digit
  · exact Text.not_is_blank_of_is_alpha letter
  · exact Text.not_is_blank_of_is_digit digit

theorem ne_nil_of_shape {word : Text} (shape : hasLabelShape word = true) : word ≠ [] := by
  rintro rfl
  cases shape

end Address

namespace Token

def isRecognized : Token → Bool
  | .unrecognized _ => false
  | .number _ _ | .operator _ | .reference _ _ => true

/-- The tokens of a text that have an effect. -/
def recognized (text : Text) : List Token := (scan text).filter isRecognized

/-- The recognized tokens of a text, with single spaces between them. -/
def condensed (text : Text) : Text := [' '].intercalate ((recognized text).map Token.text)

/-- The text of a token is the word that it was read from, or else the word in upper case. -/
theorem text_of_text_cases (word : Text) :
    (ofText word).text = word ∨
      (Address.hasLabelShape word = true ∧ (ofText word).text = Text.upper word) := by
  unfold ofText
  split
  · next op read => exact .inl (Operator.eq_text_of_of_text read).symm
  · split
    · next shape => exact .inr ⟨shape, rfl⟩
    · split
      · exact .inl rfl
      · exact .inl rfl

/-- A token is read again from its text. -/
theorem of_text_text_of_text (word : Text) : ofText (ofText word).text = ofText word := by
  rcases text_of_text_cases word with same | ⟨shape, capital⟩
  · rw [same]
  · have capitalShape := Address.shape_upper shape
    have read : ofText word = .reference (Text.upper word) (Address.ofLabel? word) :=
      of_text_eq_reference_iff.mpr ⟨shape, rfl, rfl⟩
    rw [capital, read]
    exact of_text_eq_reference_iff.mpr
      ⟨capitalShape, Address.upper_of_upper capitalShape, Address.of_label_of_upper capitalShape⟩

/-- The text of a token is a word of its own. -/
structure IsWord (token : Token) : Prop where
  some : token.text ≠ []
  unbroken : Text.Unbroken token.text
  read : ofText token.text = token

theorem is_word_of_mem_scan {text : Text} {token : Token} (member : token ∈ scan text) :
    token.IsWord := by
  obtain ⟨word, inside, rfl⟩ := List.mem_map.mp member
  have read := of_text_text_of_text word
  rcases text_of_text_cases word with same | ⟨shape, capital⟩
  · refine ⟨?_, ?_, read⟩
    · rw [same]
      exact Text.ne_nil_of_mem_words inside
    · rw [same]
      exact Text.unbroken_of_mem_words inside
  · have capitalShape := Address.shape_upper shape
    refine ⟨?_, ?_, read⟩
    · rw [capital]
      exact Address.ne_nil_of_shape capitalShape
    · rw [capital]
      exact Address.unbroken_of_shape capitalShape

/-- Tokens that are words come back from their texts, whatever they are. -/
theorem scan_intercalate {tokens : List Token} (words : ∀ token ∈ tokens, token.IsWord) :
    scan ([' '].intercalate (tokens.map Token.text)) = tokens := by
  have cut : Text.words ([' '].intercalate (tokens.map Token.text)) = tokens.map Token.text := by
    apply Text.words_intercalate
    · exact List.forall_mem_map.mpr fun token member => (words token member).some
    · exact List.forall_mem_map.mpr fun token member => (words token member).unbroken
  calc scan ([' '].intercalate (tokens.map Token.text))
      = tokens.map (ofText ∘ Token.text) := by rw [scan, cut, List.map_map]
    _ = tokens.map id := List.map_congr_left fun token member => (words token member).read
    _ = tokens := List.map_id tokens

theorem scan_condensed (text : Text) : scan (condensed text) = recognized text :=
  scan_intercalate fun _ member => is_word_of_mem_scan (List.mem_of_mem_filter member)

theorem recognized_condensed (text : Text) : recognized (condensed text) = recognized text := by
  rw [recognized, scan_condensed, recognized, List.filter_filter]
  simp

theorem condensed_condensed (text : Text) : condensed (condensed text) = condensed text := by
  rw [condensed, recognized_condensed, ← condensed]

end Token

namespace Machine

theorem run_from_recognized (answer : Answer) (stack : List Float) (tokens : List Token) :
    runFrom answer stack (tokens.filter Token.isRecognized) = runFrom answer stack tokens := by
  induction tokens generalizing stack with
  | nil => rfl
  | cons token tokens induction =>
      cases known : token.isRecognized with
      | true =>
          rw [List.filter_cons_of_pos known, runFrom, runFrom]
          cases step answer stack token with
          | error error => rfl
          | ok next => exact induction next
      | false =>
          obtain ⟨text, rfl⟩ : ∃ text, token = .unrecognized text := by
            cases token with
            | unrecognized text => exact ⟨text, rfl⟩
            | number | operator | reference => cases known
          rw [List.filter_cons_of_neg (by simp [known]), induction]
          rfl

/-- Words that mean nothing have no effect on how an expression ends. -/
theorem run_recognized (answer : Answer) (text : Text) :
    run answer (Token.recognized text) = run answer (Token.scan text) := by
  rw [run, run, Token.recognized, run_from_recognized]

end Machine
end PostfixSheet
