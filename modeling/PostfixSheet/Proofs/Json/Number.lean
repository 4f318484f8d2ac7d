import PostfixSheet.Json.Reader
import PostfixSheet.Json.Writer
import PostfixSheet.Proofs.Decimal.Shown

/-!
# JSON numbers

A written number is taken whole by the scan, as long as nothing follows it that could go on with it,
and it is read as the number that was written: the digits of an integer alone, a double by a point
or a power of ten.
-/

namespace PostfixSheet.Json

open Decimal
open Numeral (leadingDigits leadingSign leadingExponent)

/-- What can stand behind a number: nothing that goes on with it. -/
def Ends (rest : Text) : Prop :=
  ∀ c, rest.head? = some c → c.isDigit = false ∧ c ≠ '.' ∧ c ≠ 'e' ∧ c ≠ 'E'

/-- The digits before the point: a zero alone, or digits that start with none. -/
def IsWhole (whole : Text) : Prop :=
  whole = ['0'] ∨ whole ≠ [] ∧ (∀ c ∈ whole, c.isDigit = true) ∧ whole.head? ≠ some '0'

def IsFraction (fraction : Text) : Prop :=
  fraction = [] ∨ ∃ digits, digits ≠ [] ∧ (∀ c ∈ digits, c.isDigit = true) ∧
    fraction = '.' :: digits

def IsPower (power : Text) : Prop := power = [] ∨ ∃ exponent, power = 'e' :: exponentText exponent

theorem take_digits {digits rest : Text} (allDigits : ∀ c ∈ digits, c.isDigit = true)
    (other : ∀ c, rest.head? = some c → c.isDigit = false) :
    leadingDigits (digits ++ rest) = digits := by
  rw [leadingDigits, List.takeWhile_append_of_pos allDigits]
  cases rest with
  | nil => simp
  | cons c rest =>
      have stops := other c rfl
      rw [List.takeWhile_cons_of_neg (by simp [stops]), List.append_nil]

theorem IsWhole.head {whole : Text} (spelled : IsWhole whole) :
    ∃ c digits, whole = c :: digits ∧ c.isDigit = true := by
  rcases spelled with rfl | ⟨given, allDigits, _⟩
  · exact ⟨'0', [], rfl, rfl⟩
  · obtain ⟨c, digits, rfl⟩ := List.exists_cons_of_ne_nil given
    exact ⟨c, digits, rfl, allDigits c (by simp)⟩

/-- The minus sign at the start of a text, if there is one. -/
def leadingMinus (text : Text) : Text :=
  match text with
  | '-' :: _ => ['-']
  | _ => []

/-- The digits before the point at the start of a text: a zero ends them. -/
def leadingWhole (text : Text) : Text :=
  match text with
  | '0' :: _ => ['0']
  | rest => leadingDigits rest

theorem leading_number_eq (text : Text) :
    leadingNumber? text =
      let minus := leadingMinus text
      let whole := leadingWhole (text.drop minus.length)
      let rest := text.drop (minus.length + whole.length)
      let fraction := leadingFraction rest
      if whole.isEmpty then none
      else some (minus ++ whole ++ fraction ++ leadingExponent (rest.drop fraction.length)) := rfl

theorem leading_minus (negative : Bool) {c : Char} (digit : c.isDigit = true) (rest : Text) :
    leadingMinus (Numeral.minus negative ++ c :: rest) = Numeral.minus negative := by
  cases negative with
  | true => rfl
  | false =>
      simp only [Numeral.minus, leadingMinus]
      split
      · next shape => exact absurd (List.cons.inj shape).1 (Numeral.digit_ne_sign digit).1
      · rfl

theorem IsWhole.leading {whole rest : Text} (spelled : IsWhole whole)
    (other : ∀ c, rest.head? = some c → c.isDigit = false) :
    leadingWhole (whole ++ rest) = whole := by
  rcases spelled with rfl | ⟨given, allDigits, noZero⟩
  · rfl
  · unfold leadingWhole
    split
    · next digits shape =>
      obtain ⟨c, further, rfl⟩ := List.exists_cons_of_ne_nil given
      have zero : c = '0' := (List.cons.inj shape).1
      exact absurd (by rw [zero]; rfl) noZero
    · exact take_digits allDigits other

theorem leading_exponent_of_power {power rest : Text} (spelled : IsPower power)
    (ends : Ends rest) : leadingExponent (power ++ rest) = power := by
  rcases spelled with rfl | ⟨exponent, rfl⟩
  · cases rest with
    | nil => rfl
    | cons c rest =>
        obtain ⟨_, _, notSmall, notLarge⟩ := ends c rfl
        have noPower : ¬(c = 'e' ∨ c = 'E') := by simp [notSmall, notLarge]
        simp only [List.nil_append, leadingExponent, if_neg noPower]
  · obtain ⟨padded, same, given, allDigits, _⟩ := exponent_text_eq exponent
    have stops : ∀ c, rest.head? = some c → c.isDigit = false := fun c first => (ends c first).1
    have taken := take_digits allDigits stops
    have some : padded.isEmpty = false := by simpa using given
    rw [same]
    by_cases negative : exponent < 0
    · simp [leadingExponent, leadingSign, negative, taken, some]
    · simp [leadingExponent, leadingSign, negative, taken, some]

theorem leading_fraction_of_fraction {fraction rest : Text} (spelled : IsFraction fraction)
    (other : ∀ c, rest.head? = some c → c.isDigit = false ∧ c ≠ '.') :
    leadingFraction (fraction ++ rest) = fraction := by
  rcases spelled with rfl | ⟨digits, given, allDigits, rfl⟩
  · rw [List.nil_append]
    unfold leadingFraction
    split
    · next shape => exact absurd rfl (other '.' rfl).2
    · rfl
  · have taken := take_digits allDigits fun c first => (other c first).1
    have some : digits.isEmpty = false := by simpa using given
    simp [leadingFraction, taken, some]

theorem power_head {power rest : Text} (spelled : IsPower power) (ends : Ends rest) :
    ∀ c, (power ++ rest).head? = some c → c.isDigit = false ∧ c ≠ '.' := by
  intro c first
  rcases spelled with rfl | ⟨exponent, rfl⟩
  · exact ⟨(ends c first).1, (ends c first).2.1⟩
  · obtain rfl : 'e' = c := Option.some.inj first
    exact ⟨rfl, by decide⟩

theorem fraction_head {fraction rest : Text} (spelled : IsFraction fraction)
    (other : ∀ c, rest.head? = some c → c.isDigit = false ∧ c ≠ '.') :
    ∀ c, (fraction ++ rest).head? = some c → c.isDigit = false := by
  intro c first
  rcases spelled with rfl | ⟨digits, _, _, rfl⟩
  · exact (other c first).1
  · obtain rfl : '.' = c := Option.some.inj first
    rfl

/-- A spelled number is the longest number before what cannot go on with it. -/
theorem leading_number_of_spelled {whole fraction power rest : Text} (negative : Bool)
    (spelledWhole : IsWhole whole) (spelledFraction : IsFraction fraction)
    (spelledPower : IsPower power) (ends : Ends rest) :
    leadingNumber? (Numeral.minus negative ++ (whole ++ (fraction ++ (power ++ rest)))) =
      some (Numeral.minus negative ++ (whole ++ (fraction ++ power))) := by
  have powerStops := power_head spelledPower ends
  have fractionStops := fraction_head spelledFraction powerStops
  have wholeTaken := spelledWhole.leading fractionStops
  have fractionTaken := leading_fraction_of_fraction spelledFraction powerStops
  have powerTaken := leading_exponent_of_power spelledPower ends
  obtain ⟨c, digits, same, digit⟩ := spelledWhole.head
  have minus : leadingMinus (Numeral.minus negative ++ (whole ++ (fraction ++ (power ++ rest)))) =
      Numeral.minus negative := by
    rw [same, List.cons_append]
    exact leading_minus negative digit _
  have given : whole.isEmpty = false := by simp [same]
  rw [leading_number_eq]
  simp only [minus, ← List.drop_drop, List.drop_left, wholeTaken, fractionTaken, powerTaken, given]
  simp

/-- A number as it is written. -/
def Spelled (spelling : Text) : Prop :=
  ∃ negative whole fraction power, IsWhole whole ∧ IsFraction fraction ∧ IsPower power ∧
    spelling = Numeral.minus negative ++ (whole ++ (fraction ++ power))

theorem Spelled.leading {spelling rest : Text} (spelled : Spelled spelling) (ends : Ends rest) :
    leadingNumber? (spelling ++ rest) = some spelling := by
  obtain ⟨negative, whole, fraction, power, isWhole, isFraction, isPower, rfl⟩ := spelled
  have taken := leading_number_of_spelled negative isWhole isFraction isPower ends
  simpa only [List.append_assoc] using taken

theorem Spelled.start {spelling : Text} (spelled : Spelled spelling) :
    ∃ c rest, c.isDigit = true ∧ (spelling = c :: rest ∨ spelling = '-' :: c :: rest) := by
  obtain ⟨negative, whole, fraction, power, isWhole, _, _, rfl⟩ := spelled
  obtain ⟨c, digits, rfl, digit⟩ := isWhole.head
  refine ⟨c, digits ++ (fraction ++ power), digit, ?_⟩
  cases negative with
  | true => exact .inr rfl
  | false => exact .inl rfl

/-- Whether a text can be told from a number by its first two characters. -/
def startsNoNumber : Text → Bool
  | '-' :: c :: _ => !c.isDigit
  | c :: _ => !c.isDigit && c != '-'
  | [] => false

theorem fixed_start : ∀ token ∈ fixedTokens, startsNoNumber token.text = true := by decide

theorem not_prefix_of_start {text : Text} (foreign : startsNoNumber text = true) {c : Char}
    (digit : c.isDigit = true) (rest : Text) :
    text.isPrefixOf (c :: rest) = false ∧ text.isPrefixOf ('-' :: c :: rest) = false := by
  unfold startsNoNumber at foreign
  split at foreign
  · next d further =>
    have minus : c ≠ '-' := (Numeral.digit_ne_sign digit).1
    have other : d ≠ c := by
      rintro rfl
      simp [digit] at foreign
    simp [List.isPrefixOf, minus.symm, other]
  · next d further _ =>
    have other : d ≠ c := by
      rintro rfl
      simp [digit] at foreign
    have minus : d ≠ '-' := by
      rintro rfl
      simp at foreign
    simp [List.isPrefixOf, minus, other]
  · cases foreign

/-- No token with a spelling of its own starts like a number. -/
theorem Spelled.not_fixed {spelling : Text} (spelled : Spelled spelling) (rest : Text) :
    fixedTokens.find? (·.text.isPrefixOf (spelling ++ rest)) = none := by
  obtain ⟨c, further, digit, start⟩ := spelled.start
  rw [List.find?_eq_none]
  intro token fixed
  have ⟨plain, minus⟩ := not_prefix_of_start (fixed_start token fixed) digit (further ++ rest)
  rcases start with rfl | rfl
  · simp only [List.cons_append, plain]
    exact Bool.false_ne_true
  · simp only [List.cons_append, minus]
    exact Bool.false_ne_true

theorem Spelled.first {spelling rest : Text} (spelled : Spelled spelling) (ends : Ends rest) :
    Token.first? (spelling ++ rest) = some (.number spelling) := by
  rw [Token.first?, spelled.not_fixed rest, spelled.leading ends]
  rfl

theorem IsWhole.all_digits {whole : Text} (spelled : IsWhole whole) :
    ∀ c ∈ whole, c.isDigit = true := by
  rcases spelled with rfl | ⟨_, allDigits, _⟩
  · intro c member
    rw [List.mem_singleton.mp member]
    rfl
  · exact allDigits

theorem Spelled.mem {spelling : Text} (spelled : Spelled spelling) {c : Char}
    (member : c ∈ spelling) : c.isDigit = true ∨ c ∈ ['.', 'e', '+', '-'] := by
  obtain ⟨negative, whole, fraction, power, isWhole, isFraction, isPower, rfl⟩ := spelled
  simp only [List.mem_append] at member
  rcases member with inMinus | inWhole | inFraction | inPower
  · cases negative with
    | true =>
        obtain rfl := List.mem_singleton.mp inMinus
        exact .inr (by decide)
    | false => cases inMinus
  · exact .inl (isWhole.all_digits c inWhole)
  · rcases isFraction with rfl | ⟨digits, _, allDigits, rfl⟩
    · cases inFraction
    · rcases List.mem_cons.mp inFraction with rfl | inDigits
      · exact .inr (by decide)
      · exact .inl (allDigits c inDigits)
  · rcases isPower with rfl | ⟨exponent, rfl⟩
    · cases inPower
    · rcases List.mem_cons.mp inPower with rfl | inExponent
      · exact .inr (by decide)
      · exact mem_exponent_text inExponent

/-! ## Integers -/

theorem is_whole_of_nat (n : Nat) : IsWhole (Text.ofNat n) := by
  by_cases zero : n = 0
  · left
    rw [zero]
    rfl
  · exact .inr ⟨Text.of_nat_ne_nil n, fun c => Text.is_digit_of_mem_of_nat, Text.head_of_nat zero⟩

theorem of_int_eq (n : Int) :
    Text.ofInt n = Numeral.minus (decide (n < 0)) ++ Text.ofNat n.natAbs := by
  cases n with
  | ofNat n => simp [Text.ofInt, Numeral.minus]
  | negSucc n => simp [Text.ofInt, Numeral.minus]

theorem spelled_integer (n : Int) : Spelled (Text.ofInt n) := by
  refine ⟨decide (n < 0), Text.ofNat n.natAbs, [], [], is_whole_of_nat _, .inl rfl, .inl rfl, ?_⟩
  rw [of_int_eq, List.append_nil, List.append_nil]

theorem of_number_digits (negative : Bool) {digits : Text} (given : digits ≠ [])
    (allDigits : ∀ c ∈ digits, c.isDigit = true) (short : digits.length ≤ Text.integerLimit) :
    ofNumber (Numeral.minus negative ++ digits) =
      .ok (.integer (if negative then -(Text.decimal digits : Int) else Text.decimal digits)) := by
  have all : digits.all Char.isDigit = true := List.all_eq_true.mpr allDigits
  cases negative with
  | true => simp [ofNumber, Numeral.minus, all, Nat.not_lt.mpr short]
  | false =>
      obtain ⟨c, further, rfl⟩ := List.exists_cons_of_ne_nil given
      have noSign : c ≠ '-' := (Numeral.digit_ne_sign (allDigits c (by simp))).1
      rw [Numeral.minus, if_neg (by decide), List.nil_append, ofNumber.eq_def]
      split
      · next shape => exact absurd (List.cons.inj shape).1 noSign
      · simp only [all, if_true, if_neg (Nat.not_lt.mpr short), Nat.lt_irrefl, if_false,
          Bool.false_eq_true]

theorem of_number_integer {n : Int}
    (short : (Text.ofNat n.natAbs).length ≤ Text.integerLimit) :
    ofNumber (Text.ofInt n) = .ok (.integer n) := by
  have allDigits : ∀ c ∈ Text.ofNat n.natAbs, c.isDigit = true := fun c => Text.is_digit_of_mem_of_nat
  rw [of_int_eq, of_number_digits _ (Text.of_nat_ne_nil _) allDigits short, Text.decimal_of_nat]
  congr 2
  by_cases negative : n < 0
  · simp only [negative, decide_true, if_true]
    omega
  · simp only [negative, decide_false, Bool.false_eq_true, if_false]
    omega

/-! ## Doubles -/

/-- A number without its sign that has a point or a power of ten, so it is no integer. -/
def IsBroken (text : Text) : Prop :=
  ∃ whole fraction power, IsWhole whole ∧ IsFraction fraction ∧ IsPower power ∧
    (fraction ≠ [] ∨ power ≠ []) ∧ text = whole ++ (fraction ++ power)

theorem IsBroken.spelled {text : Text} (broken : IsBroken text) (negative : Bool) :
    Spelled (Numeral.minus negative ++ text) := by
  obtain ⟨whole, fraction, power, isWhole, isFraction, isPower, _, rfl⟩ := broken
  exact ⟨negative, whole, fraction, power, isWhole, isFraction, isPower, rfl⟩

theorem IsBroken.no_integer {text : Text} (broken : IsBroken text) :
    text.all Char.isDigit = false := by
  obtain ⟨whole, fraction, power, _, isFraction, isPower, some, rfl⟩ := broken
  have marked : ∃ c ∈ whole ++ (fraction ++ power), c.isDigit = false := by
    rcases some with given | given
    · rcases isFraction with none | ⟨digits, _, _, rfl⟩
      · exact absurd none given
      · exact ⟨'.', by simp, rfl⟩
    · rcases isPower with none | ⟨exponent, rfl⟩
      · exact absurd none given
      · exact ⟨'e', by simp, rfl⟩
  obtain ⟨c, member, mark⟩ := marked
  rw [List.all_eq_false]
  exact ⟨c, member, by simp [mark]⟩

theorem write_is_broken {number : Expansion} {bits : Nat} (rounded : number.RoundsTo bits)
    (start : number.digits.head? ≠ some '0') : IsBroken (layout.write number) := by
  have given := rounded.ne_nil
  have allDigits := rounded.allDigits
  have front : ∀ count, 0 < count → IsWhole (number.digits.take count) := by
    intro count some
    right
    refine ⟨?_, fun c member => allDigits c (List.mem_of_mem_take member), ?_⟩
    · simp [given]
      omega
    · rwa [List.head?_take, if_neg (by omega)]
  have back : ∀ count, count < number.digits.length →
      IsFraction ('.' :: number.digits.drop count) := by
    intro count inside
    right
    refine ⟨_, ?_, fun c member => allDigits c (List.mem_of_mem_drop member), rfl⟩
    simpa using inside
  rw [Layout.write]
  split
  · rw [positional]
    split
    · next before =>
      refine ⟨['0'], '.' :: (List.replicate (-number.point).toNat '0' ++ number.digits), [],
        .inl rfl, .inr ⟨_, by simp [given], ?_, rfl⟩, .inl rfl, .inl (by simp), by simp⟩
      intro c member
      rcases List.mem_append.mp member with inZeros | inDigits
      · exact Text.is_digit_of_mem_zeros inZeros
      · exact allDigits c inDigits
    · next after =>
      split
      · next inside =>
        let count := number.point.toNat
        exact ⟨number.digits.take count, '.' :: number.digits.drop count, [], front count (by omega),
          back count (by omega), .inl rfl, .inl (by simp), by simp [count]⟩
      · refine ⟨_, ['.', '0'], [], .inr ⟨?_, ?_, ?_⟩, .inr ⟨['0'], by simp, ?_, rfl⟩, .inl rfl,
          .inl (by simp), rfl⟩
        · simp [given]
        · intro c member
          rcases List.mem_append.mp member with inDigits | inZeros
          · exact allDigits c inDigits
          · exact Text.is_digit_of_mem_zeros inZeros
        · rwa [List.head?_append_of_ne_nil _ given]
        · intro c member
          rw [List.mem_singleton.mp member]
          rfl
  · have power : IsPower ('e' :: exponentText (number.point - 1)) := .inr ⟨_, rfl⟩
    rw [scientific]
    split
    · exact ⟨_, [], _, front 1 (by decide), .inl rfl, power, .inr (by simp), by simp⟩
    · exact ⟨_, _, _, front 1 (by decide), back 1 (by omega), power, .inr (by simp), by simp⟩

/-- A finite double is written as a number that reads back as it and is no integer. -/
theorem float_text {x : Float} (finite : Binary64.magnitude x < Binary64.infinity) :
    ∃ body, layout.text x = Numeral.minus (Binary64.negative x) ++ body ∧
      ReadsAs body (Binary64.negative x) (Binary64.magnitude x) ∧ IsBroken body := by
  have notBeyond : ¬Binary64.infinity < Binary64.magnitude x := Nat.not_lt.mpr finite.le
  rw [Layout.text]
  rw [if_neg notBeyond, if_neg finite.ne]
  refine ⟨_, rfl, ?_⟩
  by_cases zero : Binary64.magnitude x = 0
  · rw [if_pos zero, zero]
    refine ⟨⟨⟨'0', _, rfl, rfl⟩, ?_⟩, ['0'], ['.', '0'], [], .inl rfl,
      .inr ⟨['0'], by simp, by simp, rfl⟩, .inl rfl, .inl (by simp), rfl⟩
    cases Binary64.negative x with
    | true => exact ⟨_, rfl, rfl⟩
    | false => exact ⟨_, rfl, rfl⟩
  · have positive := Nat.pos_of_ne_zero zero
    have rounded := shortest_rounds_to positive finite
    rw [if_neg zero]
    exact ⟨write_reads_back rounded _ (.inr rfl),
      write_is_broken rounded (shortest_head positive finite)⟩

theorem spelled_float {x : Float} (finite : x.isFinite = true) : Spelled (layout.text x) := by
  obtain ⟨body, same, _, broken⟩ := float_text (Binary64.magnitude_lt_of_is_finite finite)
  rw [same]
  exact broken.spelled _

theorem of_number_float {x : Float} (finite : x.isFinite = true) :
    ofNumber (layout.text x) = .ok (.float x) := by
  obtain ⟨body, same, reads, broken⟩ := float_text (Binary64.magnitude_lt_of_is_finite finite)
  obtain ⟨numeral, read, stands⟩ := reads.numeral
  have noInteger := broken.no_integer
  have value : numeral.toFloat = x := by rw [stands, Binary64.to_float_self]
  obtain ⟨c, rest, start, digit⟩ := reads.head
  rw [same, ofNumber.eq_def]
  -- the reader looks for digits alone behind the sign, and there is none on a positive number
  cases negative : Binary64.negative x with
  | true =>
      rw [negative] at read
      simp only [Numeral.minus, if_true, List.cons_append, List.nil_append] at read ⊢
      simp only [noInteger, read, value]
      rfl
  | false =>
      rw [negative] at read
      simp only [Numeral.minus, Bool.false_eq_true, if_false, List.nil_append] at read ⊢
      split
      · have minus : c = '-' := (List.cons.inj start).1.symm
        exact absurd minus (Numeral.digit_ne_sign digit).1
      · simp only [noInteger, read, value]
        rfl

end PostfixSheet.Json
