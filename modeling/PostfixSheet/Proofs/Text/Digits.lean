import PostfixSheet.Text.Basic
import Mathlib.Data.List.Induction
import Mathlib.Tactic.IntervalCases
import Mathlib.Tactic.Ring

/-!
# Runs of digits

Zeros in front of a run of digits do not change its value; zeros behind it multiply the value by
powers of ten. The digits of a number are as many as the power of ten above it says.
-/

namespace PostfixSheet.Text

theorem decimal_append (front back : Text) :
    decimal (front ++ back) = decimal front * 10 ^ back.length + decimal back := by
  rw [decimal, Nat.ofDigitChars_append, Nat.ofDigitChars_eq_ofDigitChars_zero, Nat.mul_comm]
  rfl

theorem decimal_zeros (count : Nat) : decimal (List.replicate count '0') = 0 := by
  simp [decimal]

theorem decimal_zeros_append (count : Nat) (digits : Text) :
    decimal (List.replicate count '0' ++ digits) = decimal digits := by
  rw [decimal_append, decimal_zeros, Nat.zero_mul, Nat.zero_add]

theorem decimal_append_zeros (digits : Text) (count : Nat) :
    decimal (digits ++ List.replicate count '0') = decimal digits * 10 ^ count := by
  rw [decimal_append, decimal_zeros, List.length_replicate, Nat.add_zero]

theorem is_digit_of_mem_zeros {count : Nat} {c : Char} (member : c ∈ List.replicate count '0') :
    c.isDigit = true := by
  rw [List.eq_of_mem_replicate member]
  rfl

theorem lt_pow_length (n : Nat) : n < 10 ^ (ofNat n).length := by
  have given : 0 < (ofNat n).length := List.length_pos_iff.mpr (of_nat_ne_nil n)
  exact (Nat.length_toDigits_le_iff (by decide) given).mp le_rfl

theorem pow_length_le {n : Nat} (some : n ≠ 0) : 10 ^ ((ofNat n).length - 1) ≤ n := by
  by_contra less
  rw [Nat.not_le] at less
  rcases Nat.eq_zero_or_pos ((ofNat n).length - 1) with single | given
  · rw [single, pow_zero] at less
    omega
  · have short : (ofNat n).length ≤ (ofNat n).length - 1 :=
      (Nat.length_toDigits_le_iff (by decide) given).mpr less
    have counted : 0 < (ofNat n).length := List.length_pos_iff.mpr (of_nat_ne_nil n)
    omega

/-- Only zero is written with a zero in front. -/
theorem head_of_nat {n : Nat} (positive : n ≠ 0) : (ofNat n).head? ≠ some '0' := by
  induction n using Nat.strongRecOn with
  | ind n induction =>
      rw [ofNat, Nat.toDigits_eq_if (by decide)]
      split
      · next single =>
        interval_cases n
        · exact absurd rfl positive
        all_goals decide
      · next several =>
        have shorter := induction (n / 10) (by omega) (by omega)
        have front : (Nat.toDigits 10 (n / 10)).head?.isSome = true := by
          rw [List.isSome_head?]
          exact Nat.toDigits_ne_nil
        rwa [List.head?_append, Option.or_of_isSome front]

theorem decimal_append_single (front : Text) (c : Char) :
    decimal (front ++ [c]) = 10 * decimal front + (c.toNat - 48) := by
  rw [decimal, Nat.ofDigitChars_append, Nat.ofDigitChars_cons, Nat.ofDigitChars_nil]
  rfl

theorem of_nat_digit {c : Char} (digit : c.isDigit = true) :
    c.toNat - 48 < 10 ∧ ofNat (c.toNat - 48) = [c] := by
  have range : 48 ≤ c.toNat ∧ c.toNat ≤ 57 := Char.isDigit_iff_toNat.mp digit
  have value : c.toNat - 48 < 10 := by omega
  have same : Nat.digitChar (c.toNat - 48) = c := by
    apply Char.toNat_inj.mp
    rw [Nat.toNat_digitChar_of_lt_ten value]
    omega
  exact ⟨value, by rw [ofNat, Nat.toDigits_of_lt_base value, same]⟩

/-- Digits without a zero in front are what their value is written with. -/
theorem of_nat_decimal {digits : Text} (some : digits ≠ [])
    (allDigits : ∀ c ∈ digits, c.isDigit = true) (head : digits.head? ≠ .some '0') :
    ofNat (decimal digits) = digits := by
  induction digits using List.reverseRecOn with
  | nil => exact absurd rfl some
  | append_singleton front c induction =>
      obtain ⟨value, last⟩ := of_nat_digit (allDigits c (by simp))
      rw [decimal_append_single]
      cases front with
      | nil => simpa [decimal] using last
      | cons first front =>
          have digitsBefore : ∀ d ∈ first :: front, d.isDigit = true :=
            fun d member => allDigits d (List.mem_append_left [c] member)
          have written := induction (by simp) digitsBefore head
          have positive : decimal (first :: front) ≠ 0 := by
            intro zero
            rw [zero] at written
            rw [← written] at head
            exact head rfl
          rw [ofNat, ← Nat.toDigits_append_toDigits (by decide) (Nat.pos_of_ne_zero positive) value,
            ← ofNat, ← ofNat, written, last]

theorem decimal_drop_zeros (digits : Text) :
    decimal (digits.dropWhile (· == '0')) = decimal digits := by
  induction digits with
  | nil => rfl
  | cons c digits induction =>
      by_cases zero : c = '0'
      · rw [zero, List.dropWhile_cons_of_pos rfl, induction]
        exact (decimal_zeros_append 1 digits).symm
      · rw [List.dropWhile_cons_of_neg (by simpa using zero)]

theorem of_nat_decimal_drop_zeros {digits : Text} (allDigits : ∀ c ∈ digits, c.isDigit = true)
    (positive : decimal digits ≠ 0) : ofNat (decimal digits) = digits.dropWhile (· == '0') := by
  rw [← decimal_drop_zeros]
  apply of_nat_decimal
  · intro none
    rw [← decimal_drop_zeros, none] at positive
    exact positive rfl
  · exact fun c member => allDigits c ((List.dropWhile_sublist _).mem member)
  · intro zero
    have other := List.head?_dropWhile_not (· == '0') digits
    rw [zero] at other
    cases other

end PostfixSheet.Text
