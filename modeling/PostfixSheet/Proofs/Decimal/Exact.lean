import PostfixSheet.Proofs.Decimal.Shown
import PostfixSheet.Proofs.Text.Pieces

/-!
# What is shown is exact

A finite double stands for a rational number, its mantissa times a power of two with a sign, and the
units that it is counted in agree with this number. So the whole numbers below 10¹⁶ are shown by
their digits alone, every finite double is read back from what is shown for it, and what is shown
for the other doubles is read as no number.
-/

namespace PostfixSheet.Binary64

open Float.Model (UnpackedFloat)
open Float.Model.UnpackedFloat (unpackMantissa unpackExponent unpackSign)

/-- The number that a finite double stands for. -/
def value (x : Float) : ℚ :=
  match x.toModel.unpack with
  | .finite sign mantissa exponent _ => sign.apply mantissa * 2 ^ exponent
  | .zero _ | .infinity _ | .notANumber => 0

def sign (x : Float) : UnpackedFloat.Sign := if negative x then .negative else .positive

theorem unpack_mantissa (b : BitVec 64) :
    (@unpackMantissa .binary64 b).toNat = b.toNat % 2 ^ 52 := by
  rw [Float.Model.UnpackedFloat.unpackMantissa_def, BitVec.extractLsb'_toNat, Nat.shiftRight_zero]

theorem unpack_sign (x : Float) :
    UnpackedFloat.Sign.ofBitVec (@unpackSign .binary64 x.toBits.toBitVec) = sign x := by
  have bit : (@unpackSign .binary64 x.toBits.toBitVec).toNat = x.toBits.toNat / 2 ^ 63 % 2 := by
    rw [Float.Model.UnpackedFloat.unpackSign_def, BitVec.extractLsb'_toNat,
      Nat.shiftRight_eq_div_pow]
    rfl
  have bound : x.toBits.toNat < 2 ^ 64 := x.toBits.toNat_lt
  have weight : signWeight = 2 ^ 63 := rfl
  have positive : @unpackSign .binary64 x.toBits.toBitVec = 0#1 ↔ x.toBits.toNat < 2 ^ 63 := by
    rw [← BitVec.toNat_inj, bit, BitVec.toNat_ofNat]
    omega
  unfold UnpackedFloat.Sign.ofBitVec sign negative
  rw [weight]
  by_cases low : x.toBits.toNat < 2 ^ 63
  · rw [if_pos (positive.mpr low), if_neg (by simpa using low)]
  · rw [if_neg (fun zero => low (positive.mp zero)), if_pos (by simpa using low)]

/-- Below the bits of infinity, the exponent is not the highest one. -/
theorem unpack_finite {x : Float} (finite : magnitude x < infinity) :
    @unpackExponent .binary64 x.toBits.toBitVec ≠ -1#11 ∧
    (@unpackExponent .binary64 x.toBits.toBitVec).toNat = magnitude x / 2 ^ 52 ∧
    (@unpackMantissa .binary64 x.toBits.toBitVec).toNat = magnitude x % 2 ^ 52 := by
  have exponent := unpack_exponent x.toBits.toBitVec
  have fraction := unpack_mantissa x.toBits.toBitVec
  have bits : magnitude x = x.toBits.toNat % 2 ^ 63 := rfl
  have bound : infinity = 2047 * 2 ^ 52 := rfl
  have same : x.toBits.toBitVec.toNat = x.toBits.toNat := rfl
  rw [bits]
  rw [same] at exponent fraction
  refine ⟨?_, by omega, by omega⟩
  intro ones
  have most : (@unpackExponent .binary64 x.toBits.toBitVec).toNat = 2047 := by
    rw [ones]
    rfl
  omega

theorem to_nat_of_append_one (fraction : BitVec 52) :
    (1#1 ++ fraction).toNat = leadingUnit + fraction.toNat := by
  rw [BitVec.toNat_append, ← Nat.shiftLeft_add_eq_or_of_lt fraction.isLt]
  rfl

/-- The parts of a finite double are its sign and the parts of its magnitude. -/
theorem unpack_cases {x : Float} (finite : magnitude x < infinity) :
    (magnitude x = 0 ∧ x.toModel.unpack = .zero (sign x)) ∨
      (∃ some, magnitude x < leadingUnit ∧
        x.toModel.unpack = .finite (sign x) (magnitude x) (-1074) some) ∨
      ∃ (exponent fraction : Nat) (some : _), fraction < leadingUnit ∧
        magnitude x = (exponent + 1) * leadingUnit + fraction ∧
        x.toModel.unpack = .finite (sign x) (leadingUnit + fraction) (exponent - 1074) some := by
  obtain ⟨notOnes, exponent, fraction⟩ := unpack_finite finite
  have bias : (Float.Model.Format.binary64.exponentBias : ℤ) = 1023 := rfl
  have unit : leadingUnit = 2 ^ 52 := rfl
  have unpacked : x.toModel.unpack =
      Float.Model.UnpackedFloat.unpack .binary64 x.toBits.toBitVec := rfl
  rw [unpacked, Float.Model.UnpackedFloat.unpack]
  dsimp only
  rw [if_neg notOnes, unpack_sign]
  by_cases low : @unpackExponent .binary64 x.toBits.toBitVec = 0#11
  · have noExponent : magnitude x / 2 ^ 52 = 0 := by
      rw [← exponent, low]
      rfl
    rw [if_pos low]
    by_cases zero : @unpackMantissa .binary64 x.toBits.toBitVec = 0#52
    · have noFraction : magnitude x % 2 ^ 52 = 0 := by
        rw [← fraction, zero]
        rfl
      rw [dif_pos zero]
      exact .inl ⟨by omega, rfl⟩
    · have whole : (@unpackMantissa .binary64 x.toBits.toBitVec).toNat = magnitude x := by omega
      have some : 0 < magnitude x := by
        rw [← whole]
        exact Nat.pos_of_ne_zero fun none => zero (BitVec.eq_of_toNat_eq none)
      rw [dif_neg zero]
      refine .inr (.inl ⟨some, by omega, ?_⟩)
      rw [Float.Model.UnpackedFloat.finite.injEq, whole, low]
      exact ⟨rfl, rfl, rfl⟩
  · have someExponent : magnitude x / 2 ^ 52 ≠ 0 := by
      rw [← exponent]
      exact fun none => low (BitVec.eq_of_toNat_eq none)
    rw [if_neg low]
    refine .inr (.inr ⟨magnitude x / 2 ^ 52 - 1, magnitude x % 2 ^ 52, ?_, ?_, ?_, ?_⟩)
    · omega
    · omega
    · rw [unit]
      omega
    · rw [Float.Model.UnpackedFloat.finite.injEq, to_nat_of_append_one, fraction, exponent]
      refine ⟨rfl, rfl, ?_⟩
      omega

theorem value_eq {x : Float} (finite : magnitude x < infinity) :
    value x = (sign x).apply (units (magnitude x)) / unitsPerOne := by
  -- With the power of two as a variable, nothing tries to multiply it out.
  obtain ⟨power, scale, same⟩ : ∃ power : Nat, unitsPerOne = 2 ^ power ∧ (power : ℤ) = 1074 :=
    ⟨1074, units_per_one_eq, rfl⟩
  unfold value
  rw [scale]
  rcases unpack_cases finite with ⟨zero, parts⟩ | ⟨some, small, parts⟩ |
    ⟨exponent, fraction, some, small, bits, parts⟩
  · rw [parts, zero]
    cases sign x <;> simp [units, UnpackedFloat.Sign.apply]
  · rw [parts, units_of_lt small, ← same]
    simp [div_eq_mul_inv]
  · rw [parts, bits, units_of_exponent exponent small, ← same]
    simp only [zpow_sub₀ (two_ne_zero : (2 : ℚ) ≠ 0), zpow_natCast]
    cases sign x <;> simp [UnpackedFloat.Sign.apply] <;> ring

theorem is_finite_iff {x : Float} : x.isFinite = true ↔ magnitude x < infinity := by
  refine ⟨magnitude_lt_of_is_finite, ?_⟩
  intro finite
  change x.toModel.unpack.isFinite = true
  rcases unpack_cases finite with ⟨_, parts⟩ | ⟨_, _, parts⟩ | ⟨_, _, _, _, _, parts⟩
  all_goals
    rw [parts]
    rfl

theorem units_of_whole {x : Float} {n : ℤ} (finite : magnitude x < infinity)
    (whole : value x = n) : units (magnitude x) = n.natAbs * unitsPerOne := by
  have some : (unitsPerOne : ℚ) ≠ 0 := Nat.cast_ne_zero.mpr units_per_one_pos.ne'
  rw [value_eq finite, div_eq_iff some] at whole
  have exact : (sign x).apply (units (magnitude x)) = n * unitsPerOne := by exact_mod_cast whole
  have size := congrArg Int.natAbs exact
  rw [Int.natAbs_mul, Int.natAbs_natCast] at size
  rw [← size]
  cases sign x <;> simp [UnpackedFloat.Sign.apply]

end PostfixSheet.Binary64

namespace PostfixSheet.Number

open Binary64 Decimal

theorem text_of_whole {x : Float} {n : ℤ} (finite : magnitude x < infinity)
    (whole : value x = n) (small : n.natAbs < 10 ^ 16) :
    text x = Numeral.minus (negative x) ++ Text.ofNat n.natAbs := by
  have counted := units_of_whole finite whole
  have plain : isPlainWhole (magnitude x) = true := by
    have below : n.natAbs * unitsPerOne < 10 ^ 16 * unitsPerOne :=
      Nat.mul_lt_mul_of_pos_right small units_per_one_pos
    simpa [isPlainWhole, counted] using below
  unfold text
  dsimp only
  rw [if_pos plain, counted, Nat.mul_div_cancel _ units_per_one_pos]
  rfl

theorem not_plain_whole_of_beyond {bits : Nat} (beyond : infinity ≤ bits) :
    isPlainWhole bits = false := by
  have limit : infinity = 2047 * leadingUnit := rfl
  have large : Nat.pow 10 16 * unitsPerOne ≤ units bits := by
    rcases bits_cases bits with small | ⟨exponent, fraction, small, rfl⟩
    · omega
    · obtain ⟨more, rfl⟩ : ∃ more, exponent = (2 + more) + 1074 := by
        rw [leading_unit_eq] at *
        exact ⟨exponent - 1076, by omega⟩
      rw [units_of_exponent _ small, pow_add _ _ 1074, ← units_per_one_eq,
        ← Nat.mul_assoc (leadingUnit + fraction)]
      apply Nat.mul_le_mul_right
      calc Nat.pow 10 16 ≤ leadingUnit * 2 ^ 2 := by decide
        _ ≤ (leadingUnit + fraction) * 2 ^ (2 + more) :=
          Nat.mul_le_mul (Nat.le_add_right _ _)
            (Nat.pow_le_pow_right Nat.two_pos (Nat.le_add_right _ _))
  have notBelow : ¬units bits < Nat.pow 10 16 * unitsPerOne := Nat.not_lt.mpr large
  unfold isPlainWhole
  rw [decide_eq_false notBelow, Bool.and_false]

theorem of_text_of_not_finite {x : Float} (notFinite : x.isFinite = false) :
    Token.ofText (text x) = .unrecognized (text x) := by
  have beyond : infinity ≤ magnitude x := by
    by_contra less
    rw [is_finite_iff.mpr (Nat.not_le.mp less)] at notFinite
    cases notFinite
  have shown : text x = layout.text x := by
    unfold text
    dsimp only
    rw [if_neg (by simp [not_plain_whole_of_beyond beyond])]
  rw [shown]
  unfold Layout.text
  dsimp only
  split
  · rfl
  · next notBeyond =>
    have same : magnitude x = infinity := Nat.le_antisymm (Nat.not_lt.mp notBeyond) beyond
    rw [if_pos same]
    cases negative x <;> rfl

/-- What is shown for a double is read back without loss or not at all. -/
theorem shown_is_exact (x : Float) :
    (x.isFinite = true →
      text x ≠ [] ∧ Text.Unbroken (text x) ∧
        ∃ y, Token.ofText (text x) = .number (text x) y ∧ y.toBits = x.toBits) ∧
    (∀ n : ℤ, x.isFinite = true → value x = n → n.natAbs < 10 ^ 16 →
      ∃ digits, text x = Numeral.minus (negative x) ++ digits ∧ digits ≠ [] ∧
        digits.all Char.isDigit = true ∧ (digits = ['0'] ∨ digits.head? ≠ some '0') ∧
        Text.decimal digits = n.natAbs) ∧
    (x.isFinite = false → Token.ofText (text x) = .unrecognized (text x)) := by
  refine ⟨?_, ?_, of_text_of_not_finite⟩
  · intro finite
    refine ⟨text_ne_nil x, ?_, x, of_text_text finite, rfl⟩
    intro c member
    exact not_is_blank_of_mem_characters (mem_text member)
  · intro n finite whole small
    refine ⟨Text.ofNat n.natAbs, ?_, Text.of_nat_ne_nil _, ?_, ?_, Text.decimal_of_nat _⟩
    · exact text_of_whole (is_finite_iff.mp finite) whole small
    · rw [List.all_eq_true]
      intro c member
      exact Text.is_digit_of_mem_of_nat member
    · by_cases zero : n.natAbs = 0
      · rw [zero]
        exact .inl rfl
      · exact .inr (Text.head_of_nat zero)

/-- The two sides of 10¹⁶, the lower one with a sign, and what lies beyond every number. -/
theorem switch_is_exact :
    (∃ digits, text (Float.ofBits 0xc341c37937e07fff) = '-' :: digits ∧ digits ≠ [] ∧
      digits.all Char.isDigit = true ∧ (digits = ['0'] ∨ digits.head? ≠ some '0') ∧
      Text.decimal digits = 9999999999999998) ∧
    (∃ y, Token.ofText (text (Float.ofBits 0x4341c37937e08000)) =
        .number (text (Float.ofBits 0x4341c37937e08000)) y ∧ y.toBits = 0x4341c37937e08000) ∧
    Token.ofText (text (Float.ofBits 0x7ff0000000000000)) =
      .unrecognized (text (Float.ofBits 0x7ff0000000000000)) := by
  have whole : value (Float.ofBits 0xc341c37937e07fff) = ((-9999999999999998 : ℤ) : ℚ) := by
    have parts : (Float.ofBits 0xc341c37937e07fff).toModel.unpack =
        .finite .negative 4999999999999999 1 (by decide) := rfl
    norm_num [value, parts, Float.Model.UnpackedFloat.Sign.apply]
  refine ⟨?_, ?_, ?_⟩
  · exact (shown_is_exact _).2.1 _ rfl whole (by decide)
  · exact ((shown_is_exact _).1 rfl).2.2
  · exact (shown_is_exact _).2.2 rfl

end PostfixSheet.Number
