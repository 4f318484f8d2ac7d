import PostfixSheet.Decimal.Numeral
import Mathlib.Logic.Basic

/-!
# Numerals in text

A numeral is read by its parts: a minus sign or none, digits, a point with digits on one side of it
at least, and a power of ten. What stands in the parts is what the numeral holds.
-/

namespace PostfixSheet.Text

/-- No character of a class is one of the marks that the class misses. -/
theorem ne_of_class {p : Char → Bool} {c : Char} (held : p c = true) {marks : Text}
    (missed : marks.all (fun mark => !p mark) = true) : ∀ mark ∈ marks, c ≠ mark := by
  rintro mark member rfl
  have outside := List.all_eq_true.mp missed c member
  rw [held] at outside
  cases outside

end PostfixSheet.Text

namespace PostfixSheet.Numeral

/-- The sign of a negative number; a positive one has none. -/
def minus (negative : Bool) : Text := if negative then ['-'] else []

theorem digit_ne_sign {c : Char} (digit : c.isDigit = true) : c ≠ '-' ∧ c ≠ '+' := by
  have other : ∀ mark ∈ ['-', '+'], c ≠ mark := Text.ne_of_class digit (by decide)
  exact ⟨other '-' (by simp), other '+' (by simp)⟩

theorem sign_of_other {c : Char} (noMinus : c ≠ '-') (noPlus : c ≠ '+') (rest : Text) :
    sign (c :: rest) = (false, c :: rest) := by
  unfold sign
  split
  · next same => exact absurd (List.cons.inj same).1 noMinus
  · next same => exact absurd (List.cons.inj same).1 noPlus
  · rfl

theorem sign_minus (negative : Bool) {c : Char} (start : c.isDigit = true ∨ c = '.')
    (rest : Text) : sign (minus negative ++ c :: rest) = (negative, c :: rest) := by
  cases negative with
  | true => rfl
  | false =>
      have other : c ≠ '-' ∧ c ≠ '+' := by
        rcases start with digit | rfl
        · exact digit_ne_sign digit
        · decide
      exact sign_of_other other.1 other.2 rest

/-- A power of ten starts with no digit and no point. -/
theorem exponent_head {power : Text} {exponent : Int} (read : exponent? power = some exponent) :
    power.takeWhile Char.isDigit = [] ∧ power.dropWhile Char.isDigit = power ∧
      power.head? ≠ some '.' := by
  cases power with
  | nil => exact ⟨rfl, rfl, by simp⟩
  | cons c rest =>
      rw [exponent?] at read
      split at read
      · next marked => rcases marked with rfl | rfl <;> exact ⟨rfl, rfl, by simp⟩
      · cases read

variable {negative : Bool} {power : Text} {exponent : Int}

theorem of_text_whole {digits : Text} (given : digits ≠ [])
    (allDigits : ∀ c ∈ digits, c.isDigit = true) (read : exponent? power = some exponent) :
    ofText? (minus negative ++ (digits ++ power)) = some ⟨negative, digits, 0, exponent⟩ := by
  obtain ⟨noDigits, noDrop, noPoint⟩ := exponent_head read
  obtain ⟨c, rest, shape⟩ := List.exists_cons_of_ne_nil given
  have signed : sign (minus negative ++ (digits ++ power)) = (negative, digits ++ power) := by
    rw [shape, List.cons_append]
    exact sign_minus negative (.inl (allDigits c (by simp [shape]))) _
  have front : (digits ++ power).takeWhile Char.isDigit = digits := by
    rw [List.takeWhile_append_of_pos allDigits, noDigits, List.append_nil]
  have back : (digits ++ power).dropWhile Char.isDigit = power := by
    rw [List.dropWhile_append_of_pos allDigits, noDrop]
  rw [ofText?, signed]
  simp only [front, back]
  split
  · exact absurd rfl noPoint
  · simp [given, read]

theorem of_text_point {whole fraction : Text} (given : whole ≠ [] ∨ fraction ≠ [])
    (allWhole : ∀ c ∈ whole, c.isDigit = true) (allFraction : ∀ c ∈ fraction, c.isDigit = true)
    (read : exponent? power = some exponent) :
    ofText? (minus negative ++ (whole ++ '.' :: (fraction ++ power))) =
      some ⟨negative, whole ++ fraction, fraction.length, exponent⟩ := by
  obtain ⟨noDigits, noDrop, _⟩ := exponent_head read
  have signed : sign (minus negative ++ (whole ++ '.' :: (fraction ++ power))) =
      (negative, whole ++ '.' :: (fraction ++ power)) := by
    cases whole with
    | nil => exact sign_minus negative (.inr rfl) _
    | cons c whole => exact sign_minus negative (.inl (allWhole c (by simp))) _
  have front : (whole ++ '.' :: (fraction ++ power)).takeWhile Char.isDigit = whole := by
    rw [List.takeWhile_append_of_pos allWhole, List.takeWhile_cons_of_neg (by decide),
      List.append_nil]
  have back : (whole ++ '.' :: (fraction ++ power)).dropWhile Char.isDigit =
      '.' :: (fraction ++ power) := by
    rw [List.dropWhile_append_of_pos allWhole, List.dropWhile_cons_of_neg (by decide)]
  have frontFraction : (fraction ++ power).takeWhile Char.isDigit = fraction := by
    rw [List.takeWhile_append_of_pos allFraction, noDigits, List.append_nil]
  have backFraction : (fraction ++ power).dropWhile Char.isDigit = power := by
    rw [List.dropWhile_append_of_pos allFraction, noDrop]
  have some : ¬(whole.isEmpty && fraction.isEmpty) = true := by
    rcases given with given | given <;> simp [given]
  rw [ofText?, signed]
  simp only [front, back, frontFraction, backFraction, if_neg some, read]
  rfl

end PostfixSheet.Numeral
