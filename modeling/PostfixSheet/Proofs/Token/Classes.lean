import PostfixSheet.Proofs.Infix.Value
import PostfixSheet.Proofs.Token.Condensed

/-!
# The classes of words

Operators, references and numbers are said here by their form. The three tests of a word accept
exactly the three forms, and no word has two of them, so it does not matter in which order the tests
are made. Blanks part a text into words whatever stands on both sides of them, so the tokens of a
text are those of its parts.
-/

namespace PostfixSheet

open Infix (IsLabel IsNumber IsPower Lexeme)

/-- A sign that may be left out, and an unsigned number. -/
inductive IsNumeral : Text → Prop
  | signed {mark literal : Text} (marked : mark = [] ∨ mark = ['+'] ∨ mark = ['-'])
      (unsigned : IsNumber literal) : IsNumeral (mark ++ literal)

namespace Numeral

theorem sign_sound (text : Text) :
    ∃ mark, text = mark ++ (sign text).2 ∧ (mark = [] ∨ mark = ['+'] ∨ mark = ['-']) := by
  unfold sign
  split
  · exact ⟨['-'], rfl, by simp⟩
  · exact ⟨['+'], rfl, by simp⟩
  · exact ⟨[], rfl, by simp⟩

theorem exponent_sound {power : Text} {exponent : Int} (read : exponent? power = some exponent) :
    IsPower power := by
  cases power with
  | nil => exact .absent
  | cons c rest =>
      obtain ⟨mark, whole, signed⟩ := sign_sound rest
      rw [exponent?] at read
      split at read
      · next marked =>
        dsimp only at read
        split at read
        · next digits =>
          rw [Bool.and_eq_true, Bool.not_eq_true', List.isEmpty_eq_false_iff,
            List.all_eq_true] at digits
          rw [whole]
          exact .written marked signed digits.1 digits.2
        · cases read
      · cases read

/-- What is read as a numeral has the form of one. -/
theorem of_text_sound {text : Text} {numeral : Numeral} (read : ofText? text = some numeral) :
    IsNumeral text := by
  obtain ⟨mark, signed, marked⟩ := sign_sound text
  rw [signed]
  apply IsNumeral.signed marked
  have whole := List.takeWhile_append_dropWhile (p := Char.isDigit) (l := (sign text).2)
  have allWhole := Lexeme.all_digits_leading (sign text).2
  unfold ofText? at read
  dsimp only at read
  rw [← whole]
  split at read
  · next rest pointed =>
    rw [pointed, ← List.takeWhile_append_dropWhile (p := Char.isDigit) (l := rest)]
    split at read
    · cases read
    · next given =>
      obtain ⟨exponent, scaled, _⟩ := Option.map_eq_some_iff.mp read
      rw [Bool.and_eq_true, not_and_or, List.isEmpty_iff, List.isEmpty_iff] at given
      exact .point given allWhole (Lexeme.all_digits_leading rest) (exponent_sound scaled)
  · split at read
    · cases read
    · next given =>
      obtain ⟨exponent, scaled, _⟩ := Option.map_eq_some_iff.mp read
      have some : (sign text).2.takeWhile Char.isDigit ≠ [] := by simpa using given
      exact .whole some allWhole (exponent_sound scaled)

/-- A plus sign before a numeral changes nothing. -/
theorem of_text_plus {literal : Text} (unsigned : IsNumber literal) :
    ofText? ('+' :: literal) = ofText? literal := by
  obtain ⟨c, rest, rfl, start⟩ := Lexeme.number_head unsigned
  have plain : sign (c :: rest) = (false, c :: rest) := sign_minus false start rest
  have marked : sign ('+' :: c :: rest) = (false, c :: rest) := rfl
  simp only [ofText?, plain, marked]

theorem of_text_complete {text : Text} (form : IsNumeral text) :
    ∃ numeral, ofText? text = some numeral := by
  cases form with
  | @signed mark literal marked unsigned =>
      rcases marked with rfl | rfl | rfl
      · exact unsigned.numeral false
      · obtain ⟨numeral, read⟩ := unsigned.numeral false
        exact ⟨numeral, (of_text_plus unsigned).trans read⟩
      · exact unsigned.numeral true

end Numeral

theorem is_label_iff {word : Text} : IsLabel word ↔ Address.hasLabelShape word = true := by
  rw [Address.has_label_shape_iff]
  constructor
  · rintro ⟨someLetters, someDigits, allLetters, allDigits⟩
    exact ⟨_, _, rfl, someLetters, someDigits, allLetters, allDigits⟩
  · rintro ⟨letters, digits, rfl, someLetters, someDigits, allLetters, allDigits⟩
    exact .label someLetters someDigits allLetters allDigits

/-- A numeral is no operator and starts with no letter. -/
theorem IsNumeral.apart {word : Text} (form : IsNumeral word) :
    Operator.ofText? word = none ∧ Address.hasLabelShape word = false := by
  cases form with
  | @signed mark literal marked unsigned =>
      obtain ⟨c, rest, rfl, start⟩ := Lexeme.number_head unsigned
      rcases marked with rfl | rfl | rfl
      · rcases start with digit | rfl
        · refine ⟨Operator.of_text_eq_none_of_class digit (by decide) rest, ?_⟩
          exact Token.no_label_shape (by simpa using Address.not_is_alpha_of_is_digit digit) rest
        · exact ⟨by simp [Operator.ofText?], Token.no_label_shape rfl rest⟩
      · exact ⟨Operator.of_text_eq_none_of_two _ _ _, Token.no_label_shape rfl _⟩
      · exact ⟨Operator.of_text_eq_none_of_two _ _ _, Token.no_label_shape rfl _⟩

namespace Token

/-- A test of a word: the token that it makes of the words of one class. -/
abbrev Test := Text → Option Token

def operator? : Test := fun word => (Operator.ofText? word).map .operator

def reference? : Test := fun word =>
  if Address.hasLabelShape word then some (.reference (Text.upper word) (Address.ofLabel? word))
  else none

def number? : Test := fun word =>
  (Numeral.ofText? word).map fun numeral => .number word numeral.toFloat

def tests : List Test := [operator?, reference?, number?]

/-- The token that the first test to accept a word makes of it. -/
def byTests (tests : List Test) (word : Text) : Token :=
  (tests.findSome? (· word)).getD (.unrecognized word)

theorem of_text_of_numeral_form {word : Text} (form : IsNumeral word) {numeral : Numeral}
    (read : Numeral.ofText? word = some numeral) : ofText word = .number word numeral.toFloat := by
  obtain ⟨noOperator, noLabel⟩ := form.apart
  unfold ofText
  rw [noOperator, noLabel, read]
  rfl

/-- A test that accepts a word settles its token, whatever the other tests say. -/
theorem of_text_of_test {test : Test} (member : test ∈ tests) {word : Text} {token : Token}
    (accepted : test word = some token) : ofText word = token := by
  simp only [tests, List.mem_cons, List.not_mem_nil, or_false] at member
  rcases member with rfl | rfl | rfl
  · obtain ⟨op, found, rfl⟩ := Option.map_eq_some_iff.mp accepted
    rw [Operator.eq_text_of_of_text found]
    exact of_text_operator op
  · unfold reference? at accepted
    split at accepted
    · next shape =>
      cases accepted
      exact of_text_eq_reference_iff.mpr ⟨shape, rfl, rfl⟩
    · cases accepted
  · obtain ⟨numeral, read, rfl⟩ := Option.map_eq_some_iff.mp accepted
    exact of_text_of_numeral_form (Numeral.of_text_sound read) read

theorem of_text_of_no_test {word : Text} (refused : ∀ test ∈ tests, test word = none) :
    ofText word = .unrecognized word := by
  have noOperator : Operator.ofText? word = none :=
    Option.map_eq_none_iff.mp (refused operator? (by simp [tests]))
  have noNumeral : Numeral.ofText? word = none :=
    Option.map_eq_none_iff.mp (refused number? (by simp [tests]))
  have noLabel : ¬Address.hasLabelShape word = true := by
    intro shape
    have accepted := refused reference? (by simp [tests])
    rw [reference?, if_pos shape] at accepted
    cases accepted
  unfold ofText
  rw [noOperator, if_neg noLabel, noNumeral]

/-- In whatever order the three tests are made, a word becomes the same token. -/
theorem by_tests_of_perm {order : List Test} (perm : order.Perm tests) (word : Text) :
    byTests order word = ofText word := by
  unfold byTests
  cases found : order.findSome? (· word) with
  | some token =>
      obtain ⟨test, member, accepted⟩ := List.exists_of_findSome?_eq_some found
      exact (of_text_of_test (perm.mem_iff.mp member) accepted).symm
  | none =>
      have refused := List.findSome?_eq_none_iff.mp found
      exact (of_text_of_no_test fun test member => refused test (perm.mem_iff.mpr member)).symm

def operatorWords : List Text := [['+'], ['-'], ['*'], ['/']]

theorem operator_iff {word : Text} :
    (∃ op, ofText word = .operator op) ↔ word ∈ operatorWords := by
  constructor
  · rintro ⟨op, read⟩
    unfold ofText at read
    split at read
    · next found =>
      rw [Operator.eq_text_of_of_text found]
      cases read
      cases op <;> decide
    · split at read
      · cases read
      · split at read <;> cases read
  · intro member
    simp only [operatorWords, List.mem_cons, List.not_mem_nil, or_false] at member
    rcases member with rfl | rfl | rfl | rfl
    · exact ⟨.plus, rfl⟩
    · exact ⟨.minus, rfl⟩
    · exact ⟨.times, rfl⟩
    · exact ⟨.over, rfl⟩

theorem reference_iff {word : Text} :
    (∃ label address, ofText word = .reference label address) ↔ IsLabel word := by
  rw [is_label_iff]
  constructor
  · rintro ⟨label, address, read⟩
    exact (of_text_eq_reference_iff.mp read).1
  · intro shape
    exact ⟨_, _, of_text_eq_reference_iff.mpr ⟨shape, rfl, rfl⟩⟩

theorem number_iff {word : Text} :
    (∃ text value, ofText word = .number text value) ↔ IsNumeral word := by
  constructor
  · rintro ⟨text, value, read⟩
    unfold ofText at read
    split at read
    · cases read
    · split at read
      · cases read
      · split at read
        · next numeral found => exact Numeral.of_text_sound found
        · cases read
  · intro form
    obtain ⟨numeral, read⟩ := Numeral.of_text_complete form
    exact ⟨_, _, of_text_of_numeral_form form read⟩

theorem unrecognized_iff {word : Text} :
    (∃ text, ofText word = .unrecognized text) ↔
      word ∉ operatorWords ∧ ¬IsLabel word ∧ ¬IsNumeral word := by
  rw [← operator_iff, ← reference_iff, ← number_iff]
  cases ofText word <;> simp

/-- A word is a token of one class at most. -/
theorem classes_apart (word : Text) :
    ¬(word ∈ operatorWords ∧ IsLabel word) ∧ ¬(word ∈ operatorWords ∧ IsNumeral word) ∧
      ¬(IsLabel word ∧ IsNumeral word) := by
  rw [← operator_iff, ← reference_iff, ← number_iff]
  cases ofText word <;> simp

theorem scan_at_blanks {blanks : Text} (some : blanks ≠ [])
    (all : ∀ c ∈ blanks, Text.isBlank c = true) (front back : Text) :
    scan (front ++ blanks ++ back) = scan front ++ scan back := by
  obtain ⟨c, further, rfl⟩ := List.exists_cons_of_ne_nil some
  have words : Text.words (front ++ (c :: further) ++ back) =
      Text.words front ++ Text.words back := by
    rw [List.append_assoc, List.cons_append, Text.words_at_blank (all c (by simp)),
      Text.words_of_blanks fun d member => all d (by simp [member])]
  rw [scan, words, List.map_append]
  rfl

/-- The class of a word is decided by its form, and by one form alone, so the tests for the classes
may be made in any order. Blanks part a text into texts that are read each on its own, and no token
is empty or holds a blank. -/
theorem words_are_classified :
    (∀ word,
      ((∃ op, ofText word = .operator op) ↔ word ∈ operatorWords) ∧
      ((∃ label address, ofText word = .reference label address) ↔ IsLabel word) ∧
      ((∃ text value, ofText word = .number text value) ↔ IsNumeral word) ∧
      ((∃ text, ofText word = .unrecognized text) ↔
        word ∉ operatorWords ∧ ¬IsLabel word ∧ ¬IsNumeral word) ∧
      (¬(word ∈ operatorWords ∧ IsLabel word) ∧ ¬(word ∈ operatorWords ∧ IsNumeral word) ∧
        ¬(IsLabel word ∧ IsNumeral word)) ∧
      ∀ order : List Test, order.Perm tests → byTests order word = ofText word) ∧
    (∀ front blanks back : Text, blanks ≠ [] → (∀ c ∈ blanks, Text.isBlank c = true) →
      scan (front ++ blanks ++ back) = scan front ++ scan back) ∧
    ∀ text, ∀ token ∈ scan text, token.text ≠ [] ∧ Text.Unbroken token.text := by
  refine ⟨?_, ?_, ?_⟩
  · intro word
    exact ⟨operator_iff, reference_iff, number_iff, unrecognized_iff, classes_apart word,
      fun order perm => by_tests_of_perm perm word⟩
  · intro front blanks back some all
    exact scan_at_blanks some all front back
  · intro text token member
    have isWord := is_word_of_mem_scan member
    exact ⟨isWord.some, isWord.unbroken⟩

theorem exponent_is_no_label :
    (∃ text value, ofText "-.5e1".toList = .number text value) ∧
      (∃ label address, ofText "e1".toList = .reference label address) ∧
      (∀ order : List Test, order.Perm tests →
        byTests order "5.e".toList = ofText "5.e".toList) ∧
      scan ("-.5e1".toList ++ ['\u2003', '\t'] ++ "e1 5.e".toList) =
        scan "-.5e1".toList ++ scan "e1 5.e".toList := by
  have read : Numeral.ofText? "-.5e1".toList = some ⟨true, ['5'], 1, 1⟩ := by decide
  have label : IsLabel "e1".toList := is_label_iff.mpr (by decide)
  have blanks : ∀ c ∈ ['\u2003', '\t'], Text.isBlank c = true := List.all_eq_true.mp rfl
  have classes := words_are_classified.1
  exact ⟨(classes _).2.2.1.mpr (Numeral.of_text_sound read), (classes _).2.1.mpr label,
    (classes _).2.2.2.2.2, words_are_classified.2.1 _ _ _ (by decide) blanks⟩

end Token
end PostfixSheet
