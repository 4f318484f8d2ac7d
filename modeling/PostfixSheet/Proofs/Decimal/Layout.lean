import PostfixSheet.Decimal.Layout
import PostfixSheet.Proofs.Decimal.Numeral
import PostfixSheet.Proofs.Decimal.Shortest

/-!
# Written numbers read back

Wherever the point is put, the numeral has the value of the decimal: zeros in front of the digits do
not count, and what the digits lose or gain in places the power of ten makes up for. The sizes that
a numeral must have to be read at all are those of the decimals of doubles.
-/

namespace PostfixSheet.Decimal

open Binary64

/-- Within the sizes that are read, a numeral stands for the double nearest to its value. -/
theorem magnitude_eq {digits : Text} {power : Int} (nonzero : Text.decimal digits ≠ 0)
    (fine : -(places : Int) ≤ power) (high : power ≤ 400) (low : -400 ≤ power + digits.length) :
    Numeral.magnitude digits power =
      nearest (Text.decimal digits * 10 ^ (power + places).toNat) (10 ^ places) := by
  have notHigh : ¬400 < power := by omega
  have notLow : ¬power + digits.length < -400 := by omega
  rw [Numeral.magnitude]
  rw [if_neg nonzero, if_neg notHigh, if_neg notLow]
  by_cases whole : 0 ≤ power
  · have exponent : (power + places).toNat = power.toNat + places := by omega
    have scaled := nearest_scale (Text.decimal digits * 10 ^ power.toNat) 1 steps_of_one_pos
    rw [Nat.one_mul] at scaled
    rw [if_pos whole, exponent, pow_add, ← Nat.mul_assoc, scaled, Nat.pow_eq]
  · have exponent : places = (-power).toNat + (power + places).toNat := by omega
    have positive : 0 < 10 ^ (power + places).toNat := by positivity
    have scaled := nearest_scale (Text.decimal digits) (10 ^ (-power).toNat) positive
    rw [← pow_add, ← exponent] at scaled
    rw [if_neg whole, Nat.pow_eq, scaled]

/-- A numeral with the value of a decimal stands for the double that the decimal rounds to. -/
theorem Expansion.RoundsTo.magnitude {number : Expansion} {bits : Nat}
    (rounded : number.RoundsTo bits) {digits : Text} {power : Int} {moved : Nat}
    (value : Text.decimal digits = Text.decimal number.digits * 10 ^ moved)
    (same : power + moved = number.point - number.digits.length)
    (longer : number.digits.length + moved ≤ digits.length) (fine : -(places : Int) ≤ power) :
    Numeral.magnitude digits power = bits := by
  have nonzero : Text.decimal digits ≠ 0 := by
    rw [value]
    exact Nat.mul_ne_zero rounded.nonzero (by positivity)
  have low := rounded.low
  have high := rounded.high
  have exponent : moved + (power + places).toNat =
      (number.point - number.digits.length + places).toNat := by omega
  rw [magnitude_eq nonzero fine (by omega) (by omega), value, Nat.mul_assoc, ← pow_add, exponent]
  exact rounded.rounds

theorem Expansion.RoundsTo.ne_nil {number : Expansion} {bits : Nat}
    (rounded : number.RoundsTo bits) : number.digits ≠ [] := by
  intro none
  apply rounded.nonzero
  rw [none]
  rfl

theorem exponent_text_eq (exponent : Int) :
    ∃ padded, exponentText exponent = (if exponent < 0 then '-' else '+') :: padded ∧
      padded ≠ [] ∧ (∀ c ∈ padded, c.isDigit = true) ∧ Text.decimal padded = exponent.natAbs := by
  refine ⟨_, rfl, ?_⟩
  split
  · refine ⟨List.cons_ne_nil _ _, ?_, ?_⟩
    · intro c member
      rcases List.mem_cons.mp member with rfl | member
      · rfl
      · exact Text.is_digit_of_mem_of_nat member
    · have zero := Text.decimal_zeros_append 1 (Text.ofNat exponent.natAbs)
      rwa [Text.decimal_of_nat] at zero
  · exact ⟨Text.of_nat_ne_nil _, fun c member => Text.is_digit_of_mem_of_nat member,
      Text.decimal_of_nat _⟩

theorem mem_exponent_text {exponent : Int} {c : Char} (member : c ∈ exponentText exponent) :
    c.isDigit = true ∨ c ∈ ['.', 'e', '+', '-'] := by
  obtain ⟨padded, same, _, allDigits, _⟩ := exponent_text_eq exponent
  rw [same] at member
  rcases List.mem_cons.mp member with rfl | inside
  · right
    split <;> simp
  · exact .inl (allDigits c inside)

theorem exponent_of_text (exponent : Int) :
    Numeral.exponent? ('e' :: exponentText exponent) = some exponent := by
  obtain ⟨padded, same, given, allDigits, value⟩ := exponent_text_eq exponent
  have digitsOnly : (!padded.isEmpty && padded.all Char.isDigit) = true := by
    simpa [given] using List.all_eq_true.mpr allDigits
  rw [Numeral.exponent?, if_pos (.inl rfl), same]
  by_cases negative : exponent < 0
  · simp only [if_pos negative, Numeral.sign, digitsOnly, if_true, value]
    congr 1
    omega
  · simp only [if_neg negative, Numeral.sign, digitsOnly, if_true, value]
    simp
    omega

/-- A text starts with a digit, and a numeral is read from it that stands for given bits. -/
structure ReadsAs (text : Text) (negative : Bool) (bits : Nat) : Prop where
  head : ∃ c rest, text = c :: rest ∧ c.isDigit = true
  numeral : ∃ numeral, Numeral.ofText? (Numeral.minus negative ++ text) = some numeral ∧
    numeral.toFloat = Binary64.toFloat negative bits

theorem digits_head {digits : Text} (given : digits ≠ [])
    (allDigits : ∀ c ∈ digits, c.isDigit = true) (rest : Text) :
    ∃ c further, digits ++ rest = c :: further ∧ c.isDigit = true := by
  obtain ⟨c, digits, rfl⟩ := List.exists_cons_of_ne_nil given
  exact ⟨c, digits ++ rest, rfl, allDigits c List.mem_cons_self⟩

section Written

variable {number : Expansion} {bits : Nat} (rounded : number.RoundsTo bits) (negative : Bool)

include rounded

theorem reads_as_whole {digits power : Text} {exponent : Int} {moved : Nat} (given : digits ≠ [])
    (allDigits : ∀ c ∈ digits, c.isDigit = true) (read : Numeral.exponent? power = some exponent)
    (value : Text.decimal digits = Text.decimal number.digits * 10 ^ moved)
    (same : exponent + moved = number.point - number.digits.length)
    (longer : number.digits.length + moved ≤ digits.length) (fine : -(places : Int) ≤ exponent) :
    ReadsAs (digits ++ power) negative bits := by
  refine ⟨digits_head given allDigits power, _, Numeral.of_text_whole given allDigits read, ?_⟩
  have stands := rounded.magnitude value same longer fine
  simp only [Numeral.toFloat, Int.natCast_zero, Int.sub_zero, stands]

theorem reads_as_point {whole fraction power : Text} {exponent : Int} {moved : Nat}
    (given : whole ≠ []) (allDigits : ∀ c ∈ whole ++ fraction, c.isDigit = true)
    (read : Numeral.exponent? power = some exponent)
    (value : Text.decimal (whole ++ fraction) = Text.decimal number.digits * 10 ^ moved)
    (same : exponent - fraction.length + moved = number.point - number.digits.length)
    (longer : number.digits.length + moved ≤ (whole ++ fraction).length)
    (fine : -(places : Int) ≤ exponent - fraction.length) :
    ReadsAs (whole ++ '.' :: (fraction ++ power)) negative bits := by
  have allWhole : ∀ c ∈ whole, c.isDigit = true :=
    fun c member => allDigits c (List.mem_append_left _ member)
  have allFraction : ∀ c ∈ fraction, c.isDigit = true :=
    fun c member => allDigits c (List.mem_append_right _ member)
  refine ⟨digits_head given allWhole _, _,
    Numeral.of_text_point (.inl given) allWhole allFraction read, ?_⟩
  have stands := rounded.magnitude value same longer fine
  simp only [Numeral.toFloat, stands]

/-- With all its digits written and no zeros behind them, the point alone says where they stand. -/
theorem reads_as_broken {whole fraction power : Text} {exponent : Int} (given : whole ≠ [])
    (allDigits : ∀ c ∈ whole ++ fraction, c.isDigit = true)
    (read : Numeral.exponent? power = some exponent)
    (value : Text.decimal (whole ++ fraction) = Text.decimal number.digits)
    (same : exponent - fraction.length = number.point - number.digits.length)
    (longer : number.digits.length ≤ (whole ++ fraction).length) :
    ReadsAs (whole ++ '.' :: (fraction ++ power)) negative bits := by
  have moved : Text.decimal (whole ++ fraction) = Text.decimal number.digits * 10 ^ 0 := by
    rw [pow_zero, Nat.mul_one, value]
  have fine : -(places : Int) ≤ exponent - fraction.length := same ▸ rounded.fine
  exact reads_as_point rounded negative given allDigits read moved (by simpa using same) longer fine

theorem small_reads_back (before : number.point ≤ 0) :
    ReadsAs (['0', '.'] ++ List.replicate (-number.point).toNat '0' ++ number.digits) negative
      bits := by
  have shape : ['0', '.'] ++ List.replicate (-number.point).toNat '0' ++ number.digits =
      ['0'] ++ '.' :: ((List.replicate (-number.point).toNat '0' ++ number.digits) ++ []) := by
    simp
  have zeros : ['0'] ++ (List.replicate (-number.point).toNat '0' ++ number.digits) =
      List.replicate ((-number.point).toNat + 1) '0' ++ number.digits := by
    simp [List.replicate_succ]
  rw [shape]
  refine reads_as_broken rounded negative (List.cons_ne_nil _ _) ?_ rfl ?_ ?_ ?_
  · rw [zeros]
    intro c member
    rcases List.mem_append.mp member with member | member
    · exact Text.is_digit_of_mem_zeros member
    · exact rounded.allDigits c member
  · rw [zeros, Text.decimal_zeros_append]
  · simp only [List.length_append, List.length_replicate]
    omega
  · rw [zeros, List.length_append]
    omega

theorem broken_reads_back (after : 0 < number.point) (inside : number.point < number.digits.length) :
    ReadsAs (number.digits.take number.point.toNat ++ ['.'] ++
      number.digits.drop number.point.toNat) negative bits := by
  have shape : number.digits.take number.point.toNat ++ ['.'] ++
      number.digits.drop number.point.toNat = number.digits.take number.point.toNat ++
        '.' :: (number.digits.drop number.point.toNat ++ []) := by simp
  have given : number.digits.take number.point.toNat ≠ [] := by
    simp [rounded.ne_nil]
    omega
  rw [shape]
  refine reads_as_broken rounded negative given ?_ rfl ?_ ?_ ?_
  · rw [List.take_append_drop]
    exact rounded.allDigits
  · rw [List.take_append_drop]
  · rw [List.length_drop]
    omega
  · rw [List.take_append_drop]

theorem large_reads_back {ending : Text} (kind : ending = [] ∨ ending = ['.', '0'])
    (beyond : (number.digits.length : Int) ≤ number.point) :
    ReadsAs (number.digits ++ List.replicate (number.point - number.digits.length).toNat '0' ++
      ending) negative bits := by
  let zeros := (number.point - number.digits.length).toNat
  have given : number.digits ++ List.replicate zeros '0' ≠ [] := by simp [rounded.ne_nil]
  have allDigits : ∀ count, ∀ c ∈ number.digits ++ List.replicate count '0', c.isDigit = true := by
    intro count c member
    rcases List.mem_append.mp member with member | member
    · exact rounded.allDigits c member
    · exact Text.is_digit_of_mem_zeros member
  rcases kind with rfl | rfl
  · have value := Text.decimal_append_zeros number.digits zeros
    refine reads_as_whole rounded negative given (allDigits zeros) rfl value ?_ ?_ ?_
    · omega
    · rw [List.length_append, List.length_replicate]
    · omega
  · have further : number.digits ++ List.replicate zeros '0' ++ ['0'] =
        number.digits ++ List.replicate (zeros + 1) '0' := by
      rw [List.append_assoc, List.replicate_succ']
    have value := Text.decimal_append_zeros number.digits (zeros + 1)
    have shape : ['.', '0'] = '.' :: (['0'] ++ []) := rfl
    rw [shape]
    refine @reads_as_point number bits rounded negative _ _ _ 0 (zeros + 1) given ?_ rfl ?_ ?_ ?_ ?_
    · rw [further]
      exact allDigits (zeros + 1)
    · rw [further, value]
    · simp only [List.length_singleton]
      omega
    · rw [further, List.length_append, List.length_replicate]
    · simp only [List.length_singleton]
      have fine := places_eq
      omega

theorem positional_reads_back {layout : Layout}
    (kind : layout.wholeEnd = [] ∨ layout.wholeEnd = ['.', '0']) :
    ReadsAs (positional layout number) negative bits := by
  rw [positional]
  split
  · next before => exact small_reads_back rounded negative before
  · next after =>
    split
    · next inside => exact broken_reads_back rounded negative (Int.not_le.mp after) inside
    · next beyond => exact large_reads_back rounded negative kind (Int.not_lt.mp beyond)

theorem scientific_reads_back : ReadsAs (scientific number) negative bits := by
  have read := exponent_of_text (number.point - 1)
  have given := rounded.ne_nil
  have allDigits := rounded.allDigits
  rw [scientific]
  split
  · next single =>
    have whole : number.digits.take 1 = number.digits := List.take_of_length_le single
    have length : number.digits.length = 1 := by
      have some := List.length_pos_iff.mpr given
      omega
    have value : Text.decimal number.digits = Text.decimal number.digits * 10 ^ 0 := by
      rw [pow_zero, Nat.mul_one]
    have fine := rounded.fine
    rw [whole, List.append_nil]
    exact reads_as_whole rounded negative given allDigits read value (by omega) (by omega) (by omega)
  · next several =>
    have shape : number.digits.take 1 ++ '.' :: number.digits.drop 1 ++
        'e' :: exponentText (number.point - 1) = number.digits.take 1 ++
          '.' :: (number.digits.drop 1 ++ 'e' :: exponentText (number.point - 1)) := by simp
    have first : number.digits.take 1 ≠ [] := by simp [given]
    rw [shape]
    refine reads_as_broken rounded negative first ?_ read ?_ ?_ ?_
    · rwa [List.take_append_drop]
    · rw [List.take_append_drop]
    · rw [List.length_drop]
      omega
    · rw [List.take_append_drop]

/-- A decimal that rounds to a double is read back as the double from its text. -/
theorem write_reads_back {layout : Layout}
    (kind : layout.wholeEnd = [] ∨ layout.wholeEnd = ['.', '0']) :
    ReadsAs (layout.write number) negative bits := by
  rw [Layout.write]
  split
  · exact positional_reads_back rounded negative kind
  · exact scientific_reads_back rounded negative

end Written

/-- A written number has digits, a point, and a power of ten with its sign. -/
theorem mem_write {layout : Layout} (plain : layout.wholeEnd = []) {number : Expansion}
    (allDigits : ∀ c ∈ number.digits, c.isDigit = true) {c : Char}
    (member : c ∈ layout.write number) : c.isDigit = true ∨ c ∈ ['.', 'e', '+', '-'] := by
  have first : ∀ count, c ∈ number.digits.take count → c.isDigit = true :=
    fun count inside => allDigits c (List.mem_of_mem_take inside)
  have last : ∀ count, c ∈ number.digits.drop count → c.isDigit = true :=
    fun count inside => allDigits c (List.mem_of_mem_drop inside)
  rw [Layout.write] at member
  split at member
  · rw [positional, plain] at member
    split at member
    · simp only [List.mem_append, List.mem_cons, List.not_mem_nil, or_false] at member
      rcases member with ((rfl | rfl) | inside) | inside
      · exact .inl rfl
      · exact .inr (by simp)
      · exact .inl (Text.is_digit_of_mem_zeros inside)
      · exact .inl (allDigits c inside)
    · split at member
      · simp only [List.mem_append, List.mem_singleton] at member
        rcases member with (inside | rfl) | inside
        · exact .inl (first _ inside)
        · exact .inr (by simp)
        · exact .inl (last _ inside)
      · simp only [List.mem_append, List.not_mem_nil, or_false] at member
        rcases member with inside | inside
        · exact .inl (allDigits c inside)
        · exact .inl (Text.is_digit_of_mem_zeros inside)
  · rw [scientific] at member
    simp only [List.mem_append, List.mem_cons] at member
    rcases member with (inside | inside) | rfl | inside
    · exact .inl (first 1 inside)
    · split at inside
      · cases inside
      · rcases List.mem_cons.mp inside with rfl | inside
        · exact .inr (by simp)
        · exact .inl (last 1 inside)
    · exact .inr (by simp)
    · exact mem_exponent_text inside

end PostfixSheet.Decimal
