import PostfixSheet.Proofs.Address.Column
import Mathlib.Data.Char
import Mathlib.Data.List.Induction
import Mathlib.Data.List.Shortlex
import Mathlib.Tactic.Ring

/-!
# The order of columns

A name is a word of capital letters. Read as a numeral whose digits go from 1 to 26, every name is
worth a number of its own, and every number but zero is the worth of a name. One letter more at the
end makes 26 steps out of one and goes on by at most as many, so the first place where two names of
one length differ decides, and of two lengths the shorter one comes first.
-/

namespace PostfixSheet.Column

theorem letter_is_upper : ∀ n < 26, (letter n).isUpper = true := by decide

structure IsName (word : Text) : Prop where
  some : word ≠ []
  capital : ∀ c ∈ word, c.isUpper = true

/-- The place of a capital letter in the alphabet, `A` being the first. -/
def letterNumber (c : Char) : Nat := c.toNat - 64

/-- What a word is worth: each letter counts its place in the alphabet as often as a power of 26
says, the last one once. -/
def worth : Text → Nat
  | [] => 0
  | c :: word => letterNumber c * 26 ^ word.length + worth word

theorem worth_append_single (word : Text) (c : Char) :
    worth (word ++ [c]) = 26 * worth word + letterNumber c := by
  induction word with
  | nil => simp [worth]
  | cons first word induction =>
      rw [List.cons_append, worth, induction, worth, List.length_append, List.length_singleton,
        Nat.pow_succ]
      ring

theorem letter_number_range {c : Char} (capital : c.isUpper = true) :
    1 ≤ letterNumber c ∧ letterNumber c ≤ 26 := by
  have range := Text.is_upper_range capital
  rw [letterNumber]
  omega

theorem letter_letter_number {c : Char} (capital : c.isUpper = true) :
    letter (letterNumber c - 1) = c := by
  have range := Text.is_upper_range capital
  have number : 65 + (letterNumber c - 1) = c.toNat := by
    rw [letterNumber]
    omega
  rw [letter, number, Char.ofNat_toNat]

theorem letter_number_lt {c d : Char} (capital : c.isUpper = true) (less : c < d) :
    letterNumber c < letterNumber d := by
  have range := Text.is_upper_range capital
  have numbers : c.toNat < d.toNat := less
  rw [letterNumber, letterNumber]
  omega

theorem fold_append_letter {word : Text} (capital : ∀ c ∈ word, c.isUpper = true) :
    word.foldl appendLetter 0 = worth word := by
  induction word using List.reverseRecOn with
  | nil => rfl
  | append_singleton word c induction =>
      have range := Text.is_upper_range (capital c (by simp))
      have front := induction fun d member => capital d (by simp [member])
      rw [List.foldl_append, front, List.foldl_cons, List.foldl_nil, worth_append_single,
        appendLetter, letterNumber]
      omega

theorem of_letters_name {word : Text} (isName : IsName word) :
    ofLetters word = worth word - 1 := by
  have kept : Text.upper word = word :=
    Text.upper_eq_self fun c member => Text.upper_char_of_is_upper (isName.capital c member)
  rw [ofLetters, kept, fold_append_letter isName.capital]

theorem is_name_letters (column : Nat) : IsName (letters column) where
  some := letters_ne_nil column
  capital := by
    intro c member
    obtain ⟨n, bound, rfl⟩ := letter_of_mem_letters member
    exact letter_is_upper n bound

theorem worth_letters (column : Nat) : worth (letters column) = column + 1 := by
  have folded := fold_letters column
  rw [fold_append_letter (is_name_letters column).capital] at folded
  exact_mod_cast folded

theorem IsName.worth_pos {word : Text} (isName : IsName word) : 0 < worth word := by
  obtain ⟨some, capital⟩ := isName
  obtain ⟨front, c, rfl⟩ := List.eq_nil_or_concat word |>.resolve_left some
  have range := letter_number_range (capital c (by simp))
  rw [List.concat_eq_append, worth_append_single]
  omega

theorem letters_worth {word : Text} (isName : IsName word) : letters (worth word - 1) = word := by
  obtain ⟨some, capital⟩ := isName
  induction word using List.reverseRecOn with
  | nil => exact absurd rfl some
  | append_singleton front c induction =>
      have capitalLast := capital c (by simp)
      have range := letter_number_range capitalLast
      have capitalFront : ∀ d ∈ front, d.isUpper = true :=
        fun d member => capital d (by simp [member])
      rw [worth_append_single, letters]
      by_cases single : front = []
      · have small : 26 * worth front + letterNumber c - 1 = letterNumber c - 1 := by
          rw [single, worth]
          omega
        rw [small, if_pos (by omega), letter_letter_number capitalLast, single, List.nil_append]
      · have positive := IsName.worth_pos ⟨single, capitalFront⟩
        have quotient : (26 * worth front + letterNumber c - 1) / 26 = worth front := by omega
        have rest : (26 * worth front + letterNumber c - 1) % 26 = letterNumber c - 1 := by omega
        rw [if_neg (by omega), quotient, rest, induction single capitalFront,
          letter_letter_number capitalLast]

theorem worth_injective {word other : Text} (isName : IsName word) (isOther : IsName other)
    (same : worth word = worth other) : word = other := by
  rw [← letters_worth isName, same, letters_worth isOther]

theorem lex_append_single {front other : Text} {c d : Char} (sameLength : front.length = other.length)
    (less : List.Lex (· < ·) (front ++ [c]) (other ++ [d])) :
    List.Lex (· < ·) front other ∨ (front = other ∧ c < d) := by
  induction front generalizing other with
  | nil =>
      obtain rfl := List.length_eq_zero_iff.mp sameLength.symm
      exact .inr ⟨rfl, (List.lex_singleton_iff c d).mp less⟩
  | cons first front induction =>
      cases other with
      | nil => cases sameLength
      | cons second other =>
          cases less with
          | rel before => exact .inl (.rel before)
          | cons less =>
              rcases induction (Nat.succ.inj sameLength) less with fronts | ⟨rfl, last⟩
              · exact .inl (.cons fronts)
              · exact .inr ⟨rfl, last⟩

/-- Of two words with one letter more, the words decide, and the last letters if these are the same.
-/
theorem shortlex_append_single {front other : Text} {c d : Char}
    (less : List.Shortlex (· < ·) (front ++ [c]) (other ++ [d])) :
    List.Shortlex (· < ·) front other ∨ (front = other ∧ c < d) := by
  rcases List.shortlex_def.mp less with shorter | ⟨sameLength, lex⟩
  · rw [List.length_append, List.length_append] at shorter
    exact .inl (.of_length_lt (Nat.lt_of_add_lt_add_right shorter))
  · rw [List.length_append, List.length_append] at sameLength
    have fronts : front.length = other.length := Nat.add_right_cancel sameLength
    rcases lex_append_single fronts lex with less | last
    · exact .inl (.of_lex fronts less)
    · exact .inr last

theorem worth_lt {word other : Text} (capital : ∀ c ∈ word, c.isUpper = true)
    (capitalOther : ∀ c ∈ other, c.isUpper = true) (less : List.Shortlex (· < ·) word other) :
    worth word < worth other := by
  induction other using List.reverseRecOn generalizing word with
  | nil => exact absurd less List.not_shortlex_nil_right
  | append_singleton other d induction =>
      have range := letter_number_range (capitalOther d (by simp))
      rcases List.eq_nil_or_concat word with rfl | ⟨front, c, rfl⟩
      · rw [worth_append_single, worth]
        omega
      · rw [List.concat_eq_append] at capital less ⊢
        have rangeWord := letter_number_range (capital c (by simp))
        rw [worth_append_single, worth_append_single]
        rcases shortlex_append_single less with fronts | ⟨rfl, last⟩
        · have further := induction (fun e member => capital e (by simp [member]))
            (fun e member => capitalOther e (by simp [member])) fronts
          omega
        · have numbers := letter_number_lt (capital c (by simp)) last
          omega

theorem worth_lt_iff {word other : Text} (capital : ∀ c ∈ word, c.isUpper = true)
    (capitalOther : ∀ c ∈ other, c.isUpper = true) :
    worth word < worth other ↔ List.Shortlex (· < ·) word other := by
  constructor
  · intro less
    rcases trichotomous_of (List.Shortlex (· < ·)) word other with before | rfl | after
    · exact before
    · exact absurd less (Nat.lt_irrefl _)
    · exact absurd less (Nat.lt_asymm (worth_lt capitalOther capital after))
  · exact worth_lt capital capitalOther

theorem letters_lt_iff {m n : Nat} : m < n ↔ List.Shortlex (· < ·) (letters m) (letters n) := by
  rw [← worth_lt_iff (is_name_letters m).capital (is_name_letters n).capital, worth_letters,
    worth_letters, Nat.add_lt_add_iff_right]

theorem of_letters_case {word : Text} (letters : ∀ c ∈ word, c.isAlpha = true) :
    ofLetters (word.map Char.toUpper) = ofLetters word ∧
      ofLetters (word.map Char.toLower) = ofLetters word := by
  have kept := fun c member => Text.upper_char_of_case c (Text.is_alpha_lt (letters c member))
  have large : Text.upper (word.map Char.toUpper) = Text.upper word :=
    Text.upper_map fun c member => (kept c member).1
  have small : Text.upper (word.map Char.toLower) = Text.upper word :=
    Text.upper_map fun c member => (kept c member).2
  rw [ofLetters, ofLetters, ofLetters, large, small]
  exact ⟨rfl, rfl⟩

/-- Columns and names correspond one to one, in either case of the letters, and the order of the
columns is that of the names by length and then by the alphabet. -/
theorem columns_follow_names :
    (∀ n : Nat, lettersOf n = .ok (letters n) ∧ IsName (letters n) ∧ ofLetters (letters n) = n) ∧
    (∀ word, IsName word → ∃ n : Nat, ofLetters word = n ∧ lettersOf n = .ok word) ∧
    (∀ word : Text, (∀ c ∈ word, c.isAlpha = true) →
      ofLetters (word.map Char.toUpper) = ofLetters word ∧
        ofLetters (word.map Char.toLower) = ofLetters word) ∧
    ∀ m n : Nat, m < n ↔ List.Shortlex (· < ·) (letters m) (letters n) := by
  refine ⟨?_, ?_, fun word => of_letters_case, fun m n => letters_lt_iff⟩
  · exact fun n => ⟨rfl, is_name_letters n, of_letters_letters n⟩
  · intro word isName
    have positive := isName.worth_pos
    refine ⟨worth word - 1, ?_, congrArg Except.ok (letters_worth isName)⟩
    rw [of_letters_name isName]
    omega

/-- The last name with two letters and the first one with three, and one in both cases. -/
theorem columns_at_three_letters :
    (IsName ['Z', 'Z'] ∧ ∃ n : Nat, ofLetters ['Z', 'Z'] = n ∧ lettersOf n = .ok ['Z', 'Z']) ∧
    ((∀ c ∈ ['x', 'F', 'd'], c.isAlpha = true) ∧
      ofLetters ['X', 'F', 'D'] = ofLetters ['x', 'F', 'd'] ∧
        ofLetters ['x', 'f', 'd'] = ofLetters ['x', 'F', 'd']) ∧
    List.Shortlex (· < ·) (letters 701) (letters 702) := by
  have isName : IsName ['Z', 'Z'] := ⟨by decide, List.all_eq_true.mp (by decide)⟩
  have allLetters : ∀ c ∈ ['x', 'F', 'd'], c.isAlpha = true :=
    List.all_eq_true.mp (by decide)
  obtain ⟨_, named, cases, order⟩ := columns_follow_names
  exact ⟨⟨isName, named _ isName⟩, ⟨allLetters, cases _ allLetters⟩, (order 701 702).mp (by decide)⟩

end PostfixSheet.Column
