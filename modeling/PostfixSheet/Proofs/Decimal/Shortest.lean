import PostfixSheet.Decimal.Shortest
import PostfixSheet.Proofs.Decimal.Rounding
import PostfixSheet.Proofs.Text.Digits
import Mathlib.Data.List.TakeWhile
import Mathlib.Tactic.SplitIfs

/-!
# The shortest decimal reads back

Whatever grid the search stops at, the number of steps that it finds was tried and read back as the
double, and if no grid will do, the exact expansion does. A number that reads back as a positive
finite double is neither too small nor too large, so its point is not far away.
-/

namespace PostfixSheet.Decimal

open Binary64

theorem places_eq : places = 1074 := rfl

theorem steps_of_one_pos : 0 < 10 ^ places := by positivity

/-- A positive finite double is reached from numbers of a bounded size alone. -/
theorem steps_bounded {bits steps : Nat} (positive : 0 < bits) (finite : bits < infinity)
    (rounds : nearest steps (10 ^ places) = bits) : 10 ^ 750 ≤ steps ∧ steps < 10 ^ 1383 := by
  constructor
  · by_contra less
    have small : 2 * (steps * unitsPerOne) < 10 ^ places := by
      have size : 2 * (10 ^ 750 * unitsPerOne) ≤ 10 ^ places := by decide +kernel
      have product : steps * unitsPerOne < 10 ^ 750 * unitsPerOne :=
        Nat.mul_lt_mul_of_pos_right (Nat.not_le.mp less) units_per_one_pos
      omega
    rw [nearest_eq_zero small] at rounds
    omega
  · by_contra less
    have large : 2 ^ 1024 * 10 ^ places ≤ steps := by
      have size : 2 ^ 1024 * 10 ^ places ≤ 10 ^ 1383 := by decide +kernel
      exact size.trans (Nat.not_lt.mp less)
    rw [nearest_eq_infinity steps_of_one_pos large] at rounds
    omega

theorem reads_back_iff {bits steps : Nat} :
    readsBack bits steps = true ↔ nearest steps (10 ^ places) = bits := by
  rw [readsBack, beq_iff_eq, Nat.pow_eq]

theorem nearest_exact_digits {bits : Nat} (finite : bits < infinity) :
    nearest (exactDigits bits) (10 ^ places) = bits := by
  have two : unitsPerOne = 2 ^ places := by decide +kernel
  have ten : ∀ n, 5 ^ n * 2 ^ n = 10 ^ n := fun n => (Nat.mul_pow 5 2 n).symm
  apply nearest_of_units finite steps_of_one_pos
  rw [exactDigits, Nat.pow_eq, two, Nat.mul_assoc, ten]

theorem choose_sound (reads : Nat → Bool) {below rest width steps : Nat}
    (chosen : choose below rest width (reads below) (reads (below + 1)) = some steps) :
    reads steps = true := by
  cases first : reads below with
  | true =>
      cases second : reads (below + 1) with
      | true =>
          rw [first, second, choose] at chosen
          split_ifs at chosen
          · rwa [← Option.some.inj chosen]
          · rwa [← Option.some.inj chosen]
          · rcases Nat.mod_two_eq_zero_or_one below with even | odd
            · rw [even, Nat.add_zero] at chosen
              rwa [← Option.some.inj chosen]
            · rw [odd] at chosen
              rwa [← Option.some.inj chosen]
      | false =>
          rw [first, second, choose] at chosen
          rwa [← Option.some.inj chosen]
  | false =>
      cases second : reads (below + 1) with
      | true =>
          rw [first, second, choose] at chosen
          rwa [← Option.some.inj chosen]
      | false =>
          rw [first, second, choose] at chosen
          cases chosen

theorem neighbour_reads_back {bits exact width steps : Nat}
    (found : neighbour? bits exact width = some steps) : readsBack bits (steps * width) = true := by
  rw [neighbour?] at found
  exact choose_sound (fun steps => readsBack bits (steps * width)) found

/-- The shortest decimal comes from a number of steps on some grid that reads back. -/
theorem shortest_steps {bits : Nat} (finite : bits < infinity) :
    ∃ steps finer : Nat, nearest (steps * 10 ^ finer) (10 ^ places) = bits ∧
      shortest bits = .ofSteps steps finer := by
  rw [shortest]
  generalize search : List.findSome? _ _ = found
  cases found with
  | none =>
      -- no grid was fine enough, and the digits are all those of the double itself
      refine ⟨exactDigits bits, 0, ?_, rfl⟩
      rw [pow_zero, Nat.mul_one]
      exact nearest_exact_digits finite
  | some number =>
      obtain ⟨coarse, _, tried⟩ := List.exists_of_findSome?_eq_some search
      obtain ⟨steps, neighbour, rfl⟩ := Option.map_eq_some_iff.mp tried
      have reads := reads_back_iff.mp (neighbour_reads_back neighbour)
      rw [Nat.pow_eq] at reads
      exact ⟨steps, _, reads, rfl⟩

theorem trim_zeros_append (digits : Text) :
    trimZeros digits ++ List.replicate (digits.length - (trimZeros digits).length) '0' = digits := by
  have zeros : digits.reverse.takeWhile (· == '0') =
      List.replicate (digits.reverse.takeWhile (· == '0')).length '0' := by
    apply List.eq_replicate_of_mem
    intro c member
    simpa using List.mem_takeWhile_imp member
  have parts : (digits.reverse.takeWhile (· == '0')).length + (trimZeros digits).length =
      digits.length := by
    have whole : (digits.reverse.takeWhile (· == '0') ++ digits.reverse.dropWhile (· == '0')).length =
        digits.reverse.length := by rw [List.takeWhile_append_dropWhile]
    have back : (trimZeros digits).length = (digits.reverse.dropWhile (· == '0')).length :=
      List.length_reverse
    rwa [List.length_append, List.length_reverse, ← back] at whole
  have count : digits.length - (trimZeros digits).length =
      (digits.reverse.takeWhile (· == '0')).length := by omega
  rw [count, ← List.reverse_replicate, ← zeros, trimZeros, ← List.reverse_append,
    List.takeWhile_append_dropWhile, List.reverse_reverse]

theorem length_trim_zeros_le (digits : Text) : (trimZeros digits).length ≤ digits.length := by
  have whole := congrArg List.length (trim_zeros_append digits)
  rw [List.length_append] at whole
  omega

theorem decimal_trim_zeros (n : Nat) :
    Text.decimal (trimZeros (Text.ofNat n)) *
      10 ^ ((Text.ofNat n).length - (trimZeros (Text.ofNat n)).length) = n := by
  rw [← Text.decimal_append_zeros, trim_zeros_append, Text.decimal_of_nat]

theorem lt_of_pow_lt {m n : Nat} (less : 10 ^ m < 10 ^ n) : m < n :=
  (Nat.pow_lt_pow_iff_right (by decide)).mp less

/-- Bounds on a number of steps are bounds on how many places it takes. -/
theorem length_bounded {steps finer least most : Nat} (some : steps ≠ 0)
    (low : 10 ^ least ≤ steps * 10 ^ finer) (high : steps * 10 ^ finer < 10 ^ most) :
    least < (Text.ofNat steps).length + finer ∧ (Text.ofNat steps).length + finer ≤ most := by
  have given : 0 < (Text.ofNat steps).length := List.length_pos_iff.mpr (Text.of_nat_ne_nil steps)
  have above : steps * 10 ^ finer < 10 ^ ((Text.ofNat steps).length + finer) := by
    rw [pow_add]
    exact Nat.mul_lt_mul_of_pos_right (Text.lt_pow_length steps) (by positivity)
  have below : 10 ^ ((Text.ofNat steps).length - 1 + finer) ≤ steps * 10 ^ finer := by
    rw [pow_add]
    exact Nat.mul_le_mul_right _ (Text.pow_length_le some)
  have first := lt_of_pow_lt (low.trans_lt above)
  have second := lt_of_pow_lt (below.trans_lt high)
  omega

/-- The decimal `0.d₁d₂… · 10^point` rounds to a double, and its parts have sizes that are read. -/
structure Expansion.RoundsTo (number : Expansion) (bits : Nat) : Prop where
  allDigits : ∀ c ∈ number.digits, c.isDigit = true
  nonzero : Text.decimal number.digits ≠ 0
  fine : -(places : Int) ≤ number.point - number.digits.length
  rounds : nearest (Text.decimal number.digits *
    10 ^ (number.point - number.digits.length + places).toNat) (10 ^ places) = bits
  low : -400 ≤ number.point
  high : number.point ≤ 400

theorem shortest_rounds_to {bits : Nat} (positive : 0 < bits) (finite : bits < infinity) :
    (shortest bits).RoundsTo bits := by
  obtain ⟨steps, finer, rounds, same⟩ := shortest_steps finite
  obtain ⟨least, most⟩ := steps_bounded positive finite rounds
  have some : steps ≠ 0 := by
    rintro rfl
    rw [Nat.zero_mul] at least
    exact absurd least (by decide +kernel)
  have value := decimal_trim_zeros steps
  have shorter := length_trim_zeros_le (Text.ofNat steps)
  obtain ⟨low, high⟩ := length_bounded some least most
  rw [same, Expansion.ofSteps]
  constructor
  · intro c member
    have digit : c ∈ Text.ofNat steps := by
      rw [← trim_zeros_append (Text.ofNat steps)]
      exact List.mem_append_left _ member
    exact Text.is_digit_of_mem_of_nat digit
  · intro zero
    rw [zero, Nat.zero_mul] at value
    exact some value.symm
  · dsimp only
    omega
  · have power : ((Text.ofNat steps).length + finer - (places : Int) -
        (trimZeros (Text.ofNat steps)).length + places).toNat =
        (Text.ofNat steps).length - (trimZeros (Text.ofNat steps)).length + finer := by omega
    dsimp only
    rw [power, pow_add, ← Nat.mul_assoc, value, rounds]
  · dsimp only
    rw [places_eq]
    omega
  · dsimp only
    rw [places_eq]
    omega

/-- The digits of a decimal start with no zero. -/
theorem shortest_head {bits : Nat} (positive : 0 < bits) (finite : bits < infinity) :
    (shortest bits).digits.head? ≠ some '0' := by
  obtain ⟨steps, finer, _, same⟩ := shortest_steps finite
  have rounded := shortest_rounds_to positive finite
  rw [same] at rounded ⊢
  have nonzero : steps ≠ 0 := by
    rintro rfl
    exact rounded.nonzero rfl
  intro zero
  have front : (trimZeros (Text.ofNat steps)).head? = some '0' := zero
  apply Text.head_of_nat nonzero
  rw [← trim_zeros_append (Text.ofNat steps), List.head?_append, front]
  rfl

end PostfixSheet.Decimal
