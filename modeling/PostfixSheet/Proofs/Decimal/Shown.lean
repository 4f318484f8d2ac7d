import Mathlib
import PostfixSheet.Number
import PostfixSheet.Proofs.Decimal.Layout
import PostfixSheet.Proofs.Token.Kind

/-!
# Shown numbers read back

What a sheet shows for a number is a single word, made of few characters. For a finite number the
word is a number token again, with the same bits: whole numbers have their value by their digits,
and all others are shown by the shortest decimal.
-/

namespace PostfixSheet.Binary64

theorem units_eq_zero {bits : Nat} (zero : units bits = 0) : bits = 0 := by
  rcases bits_cases bits with small | ⟨exponent, fraction, small, rfl⟩
  · rwa [units_of_lt small] at zero
  · rw [units_of_exponent exponent small, leading_unit_eq] at zero
    have positive : 0 < (2 ^ 52 + fraction) * 2 ^ exponent := by positivity
    omega

/-- A double is made of its sign and its magnitude. -/
theorem to_float_self (x : Float) : toFloat (negative x) (magnitude x) = x := by
  have bound : x.toBits.toNat < 2 ^ 64 := x.toBits.toNat_lt
  have bits : (if negative x = true then signWeight + magnitude x else magnitude x) =
      x.toBits.toNat := by
    have weight : signWeight = 2 ^ 63 := rfl
    simp only [negative, magnitude, weight, decide_eq_true_eq]
    split <;> omega
  rw [toFloat, bits, UInt64.ofNat_toNat, Float.ofBits_toBits]

theorem unpack_exponent (b : BitVec 64) :
    (@Float.Model.UnpackedFloat.unpackExponent .binary64 b).toNat = b.toNat / 2 ^ 52 % 2 ^ 11 := by
  rw [Float.Model.UnpackedFloat.unpackExponent_def, BitVec.extractLsb'_toNat,
    Nat.shiftRight_eq_div_pow]

/-- Infinities and what is not a number have all bits of the exponent set. -/
theorem magnitude_lt_of_is_finite {x : Float} (finite : x.isFinite = true) :
    magnitude x < infinity := by
  by_contra beyond
  have large : 2047 * 2 ^ 52 ≤ x.toBits.toNat % 2 ^ 63 := Nat.not_lt.mp beyond
  have exponent := unpack_exponent x.toBits.toBitVec
  have ones : @Float.Model.UnpackedFloat.unpackExponent .binary64 x.toBits.toBitVec = -1#11 := by
    apply BitVec.eq_of_toNat_eq
    rw [exponent]
    change x.toBits.toNat / 2 ^ 52 % 2 ^ 11 = 2047
    omega
  change (Float.Model.UnpackedFloat.unpack .binary64 x.toBits.toBitVec).isFinite = true at finite
  rw [Float.Model.UnpackedFloat.unpack] at finite
  simp only [ones, if_true] at finite
  split at finite <;> cases finite

end PostfixSheet.Binary64

namespace PostfixSheet.Number

open Binary64 Decimal

/-- The characters that numbers are shown with. -/
def characters : Text := "0123456789+-.einfa".toList

theorem mem_characters_of_is_digit {c : Char} (digit : c.isDigit = true) : c ∈ characters := by
  obtain ⟨least, most⟩ := Text.is_digit_range digit
  rw [← Char.ofNat_toNat c]
  generalize c.toNat = n at least most
  interval_cases n <;> decide

theorem not_is_blank_of_mem_characters {c : Char} (member : c ∈ characters) :
    Text.isBlank c = false := by
  have all : characters.all (fun c => !Text.isBlank c) = true := by decide
  simpa using List.all_eq_true.mp all c member

theorem units_of_plain_whole {bits : Nat} (whole : isPlainWhole bits = true) :
    units bits = units bits / unitsPerOne * unitsPerOne := by
  rw [isPlainWhole, Bool.and_eq_true, beq_iff_eq] at whole
  exact (Nat.div_mul_cancel (Nat.dvd_of_mod_eq_zero whole.1)).symm

theorem whole_reads_back {bits : Nat} (finite : bits < infinity) (whole : isPlainWhole bits = true)
    (negative : Bool) : ReadsAs (Text.ofNat (units bits / unitsPerOne)) negative bits := by
  have exact := units_of_plain_whole whole
  generalize units bits / unitsPerOne = value at exact
  have allDigits : ∀ c ∈ Text.ofNat value, c.isDigit = true := fun c => Text.is_digit_of_mem_of_nat
  have given := Text.of_nat_ne_nil value
  have read : Numeral.ofText? (Numeral.minus negative ++ (Text.ofNat value ++ [])) =
      some ⟨negative, Text.ofNat value, 0, 0⟩ := Numeral.of_text_whole given allDigits rfl
  have stands : Numeral.magnitude (Text.ofNat value) 0 = bits := by
    rw [Numeral.magnitude, Text.decimal_of_nat]
    by_cases zero : value = 0
    · rw [zero, Nat.zero_mul] at exact
      rw [if_pos zero, units_eq_zero exact]
    · have notLow : ¬(0 + (Text.ofNat value).length : Int) < -400 := by omega
      rw [if_neg zero, if_neg (by decide), if_neg notLow, if_pos le_rfl]
      have unscaled : value * Nat.pow 10 (0 : Int).toNat = value := Nat.mul_one value
      rw [unscaled]
      apply nearest_of_units finite Nat.one_pos
      rw [Nat.mul_one, exact]
  rw [List.append_nil] at read
  have head := digits_head given allDigits []
  rw [List.append_nil] at head
  refine ⟨head, _, read, ?_⟩
  simp only [Numeral.toFloat, Int.natCast_zero, Int.sub_zero, stands]

/-- A finite number is shown as its sign and a text that reads back. -/
theorem text_eq {x : Float} (finite : magnitude x < infinity) :
    ∃ body, text x = Numeral.minus (negative x) ++ body ∧
      ReadsAs body (negative x) (magnitude x) := by
  rw [text]
  by_cases whole : isPlainWhole (magnitude x) = true
  · rw [if_pos whole]
    exact ⟨_, rfl, whole_reads_back finite whole (negative x)⟩
  · have some : magnitude x ≠ 0 := by
      intro zero
      rw [zero] at whole
      exact whole (by decide +kernel)
    have notBeyond : ¬infinity < magnitude x := Nat.not_lt.mpr finite.le
    rw [if_neg whole, Layout.text]
    rw [if_neg notBeyond, if_neg finite.ne, if_neg some]
    have rounded := shortest_rounds_to (Nat.pos_of_ne_zero some) finite
    exact ⟨_, rfl, write_reads_back rounded (negative x) (.inl rfl)⟩

/-- What is shown for a finite number is a number token with this number. -/
theorem of_text_text {x : Float} (finite : x.isFinite = true) :
    Token.ofText (text x) = .number (text x) x := by
  obtain ⟨body, same, reads⟩ := text_eq (magnitude_lt_of_is_finite finite)
  obtain ⟨c, rest, rfl, digit⟩ := reads.head
  obtain ⟨numeral, read, stands⟩ := reads.numeral
  rw [same, Token.of_text_of_numeral (.inl digit) read, stands, to_float_self]

/-- A double that is not shown as whole has a name, or its digits are those of the shortest decimal. -/
theorem layout_text_cases (x : Float) :
    layout.text x = layout.notANumber ∨ ∃ body,
      layout.text x = Numeral.minus (negative x) ++ body ∧
        (body = layout.infinity ∨ body = ['0'] ∨ 0 < magnitude x ∧ magnitude x < infinity ∧
          body = layout.write (shortest (magnitude x))) := by
  rw [Layout.text]
  split
  · exact .inl rfl
  · next notBeyond =>
    refine .inr ⟨_, rfl, ?_⟩
    split
    · exact .inl rfl
    · next notInfinity =>
      split
      · exact .inr (.inl rfl)
      · next some =>
        have finite : magnitude x < infinity := by omega
        exact .inr (.inr ⟨Nat.pos_of_ne_zero some, finite, rfl⟩)

theorem mem_sign {negative : Bool} {c : Char} (member : c ∈ Numeral.minus negative) :
    c ∈ characters := by
  cases negative with
  | true =>
      obtain rfl := List.mem_singleton.mp member
      decide
  | false => cases member

theorem mem_layout_text {x : Float} {c : Char} (member : c ∈ layout.text x) : c ∈ characters := by
  rcases layout_text_cases x with name | ⟨body, same, parts⟩
  · have names : layout.notANumber ⊆ characters := by decide
    rw [name] at member
    exact names member
  · rw [same] at member
    rcases List.mem_append.mp member with sign | member
    · exact mem_sign sign
    · rcases parts with rfl | rfl | ⟨positive, finite, rfl⟩
      · have names : layout.infinity ⊆ characters := by decide
        exact names member
      · obtain rfl := List.mem_singleton.mp member
        decide
      · have rounded := shortest_rounds_to positive finite
        rcases mem_write rfl rounded.allDigits member with digit | other
        · exact mem_characters_of_is_digit digit
        · have others : ['.', 'e', '+', '-'] ⊆ characters := by decide
          exact others other

theorem mem_text {x : Float} {c : Char} (member : c ∈ text x) : c ∈ characters := by
  rw [text] at member
  split at member
  · rcases List.mem_append.mp member with sign | digits
    · exact mem_sign sign
    · exact mem_characters_of_is_digit (Text.is_digit_of_mem_of_nat digits)
  · exact mem_layout_text member

theorem layout_text_ne_nil (x : Float) : layout.text x ≠ [] := by
  rcases layout_text_cases x with name | ⟨body, same, parts⟩
  · rw [name]
    decide
  · rw [same]
    apply List.append_ne_nil_of_right_ne_nil
    rcases parts with rfl | rfl | ⟨positive, finite, rfl⟩
    · decide
    · exact List.cons_ne_nil _ _
    · have rounded := shortest_rounds_to positive finite
      have written : ReadsAs (layout.write (shortest (magnitude x))) false (magnitude x) :=
        write_reads_back rounded false (.inl rfl)
      obtain ⟨c, rest, same, _⟩ := written.head
      rw [same]
      exact List.cons_ne_nil _ _

theorem text_ne_nil (x : Float) : text x ≠ [] := by
  rw [text]
  split
  · exact List.append_ne_nil_of_right_ne_nil _ (Text.of_nat_ne_nil _)
  · exact layout_text_ne_nil x

end PostfixSheet.Number
