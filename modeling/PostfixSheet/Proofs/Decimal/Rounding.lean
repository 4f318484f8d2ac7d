import PostfixSheet.Decimal.Binary64
import Mathlib.Tactic.Ring
import Mathlib.Tactic.NormNum

/-!
# Rounding to doubles

The nearest double belongs to the value of a fraction and not to the way it is written, and a value
that is a double is its own nearest. Too small a fraction has zero for its nearest double, too large
a one infinity, so a fraction with another nearest double is bounded on both sides.
-/

namespace PostfixSheet.Binary64

theorem leading_unit_eq : leadingUnit = 2 ^ 52 := rfl

theorem units_per_one_eq : unitsPerOne = 2 ^ 1074 := by decide +kernel

theorem units_of_lt {bits : Nat} (small : bits < leadingUnit) : units bits = bits := by
  simp [units, Nat.div_eq_of_lt small, Nat.mod_eq_of_lt small]

theorem units_of_exponent (exponent : Nat) {fraction : Nat} (small : fraction < leadingUnit) :
    units ((exponent + 1) * leadingUnit + fraction) = (leadingUnit + fraction) * 2 ^ exponent := by
  have positive : 0 < leadingUnit := by decide
  have high : ((exponent + 1) * leadingUnit + fraction) / leadingUnit = exponent + 1 := by
    rw [Nat.mul_comm, Nat.mul_add_div positive, Nat.div_eq_of_lt small, Nat.add_zero]
  have low : ((exponent + 1) * leadingUnit + fraction) % leadingUnit = fraction := by
    rw [Nat.mul_comm, Nat.mul_add_mod, Nat.mod_eq_of_lt small]
  simp [units, high, low]

theorem bits_cases (bits : Nat) :
    bits < leadingUnit ∨ ∃ exponent fraction, fraction < leadingUnit ∧
      bits = (exponent + 1) * leadingUnit + fraction := by
  have positive : 0 < leadingUnit := by decide
  by_cases small : bits < leadingUnit
  · exact .inl small
  · have some : 0 < bits / leadingUnit := Nat.div_pos (Nat.not_lt.mp small) positive
    refine .inr ⟨bits / leadingUnit - 1, bits % leadingUnit, Nat.mod_lt _ positive, ?_⟩
    rw [Nat.sub_add_cancel some, Nat.div_add_mod']

theorem round_half_even_scale (n d : Nat) {k : Nat} (positive : 0 < k) :
    roundHalfEven (n * k) (d * k) = roundHalfEven n d := by
  have scaled : ∀ a b : Nat, a * k < b * k ↔ a < b := fun a b => Nat.mul_lt_mul_right positive
  simp only [roundHalfEven, Nat.mul_div_mul_right _ _ positive, Nat.mul_mod_mul_right,
    ← Nat.mul_assoc, scaled]

theorem nearest_of_dropped {n d dropped : Nat}
    (bits : (n * unitsPerOne / d).log2 - 52 = dropped) :
    nearest n d = min (dropped * leadingUnit + roundHalfEven (n * unitsPerOne) (d * 2 ^ dropped))
      infinity := by
  rw [← bits]
  rfl

/-- Writing a fraction in another way does not change its nearest double. -/
theorem nearest_scale (n d : Nat) {k : Nat} (positive : 0 < k) :
    nearest (n * k) (d * k) = nearest n d := by
  have units : n * k * unitsPerOne = n * unitsPerOne * k := Nat.mul_right_comm n k unitsPerOne
  have width : ∀ e, d * k * Nat.pow 2 e = d * Nat.pow 2 e * k := fun e => Nat.mul_right_comm d k _
  simp only [nearest, units, width, Nat.mul_div_mul_right _ _ positive,
    round_half_even_scale _ _ positive]

theorem log_subnormal {bits : Nat} (small : bits < leadingUnit) : bits.log2 - 52 = 0 := by
  rcases Nat.eq_zero_or_pos bits with rfl | some
  · decide
  · have log : bits.log2 < 52 := (Nat.log2_lt some.ne').mpr small
    omega

theorem log_units (exponent : Nat) {fraction : Nat} (small : fraction < leadingUnit) :
    ((leadingUnit + fraction) * 2 ^ exponent).log2 = 52 + exponent := by
  rw [leading_unit_eq] at small ⊢
  rw [Nat.log2_eq_iff (by positivity)]
  constructor
  · rw [pow_add]
    exact Nat.mul_le_mul_right _ (Nat.le_add_right _ _)
  · rw [show 52 + exponent + 1 = 53 + exponent by omega, pow_add]
    exact Nat.mul_lt_mul_of_pos_right (by omega) (by positivity)

/-- A fraction whose value is a double rounds to this double. -/
theorem nearest_of_units {bits n d : Nat} (finite : bits < infinity) (positive : 0 < d)
    (exact : n * unitsPerOne = units bits * d) : nearest n d = bits := by
  have whole : n * unitsPerOne / d = units bits := by
    rw [exact, Nat.mul_div_cancel _ positive]
  rcases bits_cases bits with small | ⟨exponent, fraction, small, rfl⟩
  · rw [units_of_lt small] at exact whole
    have noneDropped : (n * unitsPerOne / d).log2 - 52 = 0 := by
      rw [whole]
      exact log_subnormal small
    rw [nearest_of_dropped noneDropped, exact, pow_zero, Nat.mul_one, round_half_even_mul positive,
      Nat.zero_mul, Nat.zero_add]
    exact Nat.min_eq_left finite.le
  · rw [units_of_exponent exponent small] at exact whole
    have exponentDropped : (n * unitsPerOne / d).log2 - 52 = exponent := by
      rw [whole, log_units exponent small]
      omega
    have rounded : roundHalfEven ((leadingUnit + fraction) * 2 ^ exponent * d) (d * 2 ^ exponent) =
        leadingUnit + fraction := by
      rw [Nat.mul_assoc, Nat.mul_comm (2 ^ exponent) d]
      exact round_half_even_mul (by positivity)
    have sum : exponent * leadingUnit + (leadingUnit + fraction) =
        (exponent + 1) * leadingUnit + fraction := by ring
    rw [nearest_of_dropped exponentDropped, exact, rounded, sum]
    exact Nat.min_eq_left finite.le

theorem nearest_eq_zero {n d : Nat} (small : 2 * (n * unitsPerOne) < d) : nearest n d = 0 := by
  have none : n * unitsPerOne / d = 0 := Nat.div_eq_of_lt (by omega)
  have noneDropped : (n * unitsPerOne / d).log2 - 52 = 0 := by
    rw [none]
    rfl
  have rounded : roundHalfEven (n * unitsPerOne) d = 0 := by
    rw [roundHalfEven, none, Nat.mod_eq_of_lt (by omega), if_pos small]
  rw [nearest_of_dropped noneDropped, pow_zero, Nat.mul_one, rounded]
  rfl

theorem div_le_round_half_even (n d : Nat) : n / d ≤ roundHalfEven n d := by
  unfold roundHalfEven
  dsimp only
  split
  · exact le_rfl
  · split
    · exact Nat.le_add_right _ _
    · exact Nat.le_add_right _ _

/-- A fraction has as many bits before the point as the power of two that it reaches. -/
theorem le_log_div {n d k : Nat} (positive : 0 < d) (large : 2 ^ k * d ≤ n) :
    n / d ≠ 0 ∧ k ≤ (n / d).log2 := by
  have size : 2 ^ k ≤ n / d := (Nat.le_div_iff_mul_le positive).mpr large
  have some : n / d ≠ 0 := (Nat.lt_of_lt_of_le (Nat.two_pow_pos k) size).ne'
  exact ⟨some, (Nat.le_log2 some).mpr size⟩

/-- From 2¹⁰²⁴ on the nearest double is infinity. -/
theorem nearest_eq_infinity {n d : Nat} (positive : 0 < d) (large : 2 ^ 1024 * d ≤ n) :
    nearest n d = infinity := by
  generalize counted : (n * unitsPerOne / d).log2 - 52 = dropped
  have units : 2 ^ (1024 + 1074) * d ≤ n * unitsPerOne := by
    rw [units_per_one_eq, pow_add, Nat.mul_right_comm]
    exact Nat.mul_le_mul_right _ large
  obtain ⟨some, log⟩ := le_log_div positive units
  -- all bits but the highest 53 are dropped, and the highest one keeps its place
  have kept : leadingUnit ≤ roundHalfEven (n * unitsPerOne) (d * 2 ^ dropped) := by
    refine le_trans ?_ (div_le_round_half_even _ _)
    rw [← Nat.div_div_eq_div_mul, Nat.le_div_iff_mul_le (Nat.two_pow_pos _), leading_unit_eq,
      ← pow_add, show 52 + dropped = (n * unitsPerOne / d).log2 by omega]
    exact Nat.log2_self_le some
  have exponent : 2046 ≤ dropped := by omega
  rw [nearest_of_dropped counted]
  apply Nat.min_eq_right
  calc infinity = 2046 * leadingUnit + leadingUnit := rfl
    _ ≤ dropped * leadingUnit + roundHalfEven (n * unitsPerOne) (d * 2 ^ dropped) :=
      Nat.add_le_add (Nat.mul_le_mul_right _ exponent) kept

end PostfixSheet.Binary64
