import PostfixSheet.Proofs.Address.Column
import PostfixSheet.Token
import Mathlib.Tactic.Ring

/-!
# Labels and the addresses they name

The label of an address names that address as long as the number of its row has no more digits than
an integer in text may have. Every address that a label or a reference token names is of that kind.
-/

namespace PostfixSheet.Address

/-- The number of the row, counted from one, has no more digits than may be read. -/
def Nameable (a : Address) : Prop := (Text.ofNat (a.row + 1)).length ≤ Text.integerLimit

instance (a : Address) : Decidable a.Nameable := inferInstanceAs (Decidable (_ ≤ _))

theorem not_is_alpha_of_is_digit {c : Char} (digit : c.isDigit = true) : ¬c.isAlpha = true := by
  have digitRange := Text.is_digit_range digit
  intro alpha
  have alphaRange := Text.is_alpha_range alpha
  omega

theorem label_parts_append {letters digits : Text} (someLetters : letters ≠ [])
    (someDigits : digits ≠ []) (allLetters : ∀ c ∈ letters, c.isAlpha = true)
    (allDigits : ∀ c ∈ digits, c.isDigit = true) :
    labelParts? (letters ++ digits) = some (letters, digits) := by
  have noLetter : ∀ c ∈ digits.head?, ¬c.isAlpha = true := by
    intro c member
    exact not_is_alpha_of_is_digit (allDigits c (List.mem_of_mem_head? member))
  have stops : digits.takeWhile Char.isAlpha = [] := by
    cases digits with
    | nil => rfl
    | cons c digits => exact List.takeWhile_cons_of_neg (noLetter c rfl)
  have stays : digits.dropWhile Char.isAlpha = digits := by
    cases digits with
    | nil => rfl
    | cons c digits => exact List.dropWhile_cons_of_neg (noLetter c rfl)
  have front : (letters ++ digits).takeWhile Char.isAlpha = letters := by
    rw [List.takeWhile_append_of_pos allLetters, stops, List.append_nil]
  have back : (letters ++ digits).dropWhile Char.isAlpha = digits := by
    rw [List.dropWhile_append_of_pos allLetters, stays]
  simp only [labelParts?, front, back]
  simp [someLetters, someDigits, List.all_eq_true.mpr allDigits]

theorem upper_label (a : Address) : Text.upper a.label = a.label := by
  apply Text.upper_eq_self
  intro c member
  rcases List.mem_append.mp member with member | member
  · exact Column.upper_char_of_mem_letters member
  · exact Text.upper_char_of_is_digit (Text.is_digit_of_mem_of_nat member)

theorem label_parts_label (a : Address) :
    labelParts? a.label = some (Column.letters a.column, Text.ofNat (a.row + 1)) :=
  label_parts_append (Column.letters_ne_nil a.column) (Text.of_nat_ne_nil _)
    (fun _ => Column.is_alpha_of_mem_letters) (fun _ => Text.is_digit_of_mem_of_nat)

theorem of_label_label {a : Address} (nameable : a.Nameable) : ofLabel? a.label = some a := by
  have short : ¬Text.integerLimit < (Text.ofNat (a.row + 1)).length := Nat.not_lt.mpr nameable
  simp only [ofLabel?, upper_label, label_parts_label, if_neg short, Text.decimal_of_nat,
    Column.of_letters_letters, Int.toNat_natCast]

/-- What is read as the parts of a label is the text cut in two. -/
theorem label_parts_sound {text letters digits : Text}
    (cut : labelParts? text = some (letters, digits)) :
    text = letters ++ digits ∧ letters ≠ [] ∧ digits ≠ [] ∧
      (∀ c ∈ letters, c.isAlpha = true) ∧ ∀ c ∈ digits, c.isDigit = true := by
  simp only [labelParts?] at cut
  split at cut
  · next shape =>
    simp only [Option.some.injEq, Prod.mk.injEq] at cut
    obtain ⟨rfl, rfl⟩ := cut
    simp only [Bool.and_eq_true, Bool.not_eq_true', List.isEmpty_eq_false_iff] at shape
    obtain ⟨⟨someLetters, someDigits⟩, allDigits⟩ := shape
    exact ⟨List.takeWhile_append_dropWhile.symm, someLetters, someDigits,
      List.all_eq_true.mp List.all_takeWhile, List.all_eq_true.mp allDigits⟩
  · cases cut

/-- A label in upper case names what the label names. -/
theorem of_label_upper {label : Text} (shape : hasLabelShape label = true) :
    ofLabel? (Text.upper label) = ofLabel? label := by
  obtain ⟨⟨letters, digits⟩, cut⟩ := Option.isSome_iff_exists.mp shape
  obtain ⟨rfl, _, _, allLetters, allDigits⟩ := label_parts_sound cut
  have twice : Text.upper (Text.upper (letters ++ digits)) = Text.upper (letters ++ digits) := by
    rw [Text.upper_append, Text.upper_append, (Text.upper_of_letters allLetters).2.2,
      Text.upper_of_digits allDigits, Text.upper_of_digits allDigits]
  rw [ofLabel?, twice, ← ofLabel?]

theorem of_digit_chars_lt {digits : Text} (allDigits : ∀ c ∈ digits, c.isDigit = true)
    (sofar : Nat) :
    Nat.ofDigitChars 10 digits sofar < (sofar + 1) * 10 ^ digits.length := by
  induction digits generalizing sofar with
  | nil => simp
  | cons c digits induction =>
      obtain ⟨_, upTo⟩ := Text.is_digit_range (allDigits c (by simp))
      have shorter := induction (fun d member => allDigits d (by simp [member]))
        (10 * sofar + (c.toNat - '0'.toNat))
      rw [Nat.ofDigitChars_cons, List.length_cons]
      refine shorter.trans_le ?_
      have digitBound : c.toNat - '0'.toNat ≤ 9 := by
        change c.toNat - 48 ≤ 9
        omega
      calc (10 * sofar + (c.toNat - '0'.toNat) + 1) * 10 ^ digits.length
          ≤ ((sofar + 1) * 10) * 10 ^ digits.length := Nat.mul_le_mul_right _ (by omega)
        _ = (sofar + 1) * 10 ^ (digits.length + 1) := by rw [Nat.pow_succ]; ring

theorem decimal_lt {digits : Text} (allDigits : ∀ c ∈ digits, c.isDigit = true) :
    Text.decimal digits < 10 ^ digits.length := by
  simpa [Text.decimal] using of_digit_chars_lt allDigits 0

theorem length_of_nat_decimal_le {digits : Text} (someDigits : digits ≠ [])
    (allDigits : ∀ c ∈ digits, c.isDigit = true) :
    (Text.ofNat (Text.decimal digits)).length ≤ digits.length :=
  (Nat.length_toDigits_le_iff (by decide) (List.length_pos_iff.mpr someDigits)).mpr
    (decimal_lt allDigits)

theorem nameable_of_label {label : Text} {a : Address} (named : ofLabel? label = some a) :
    a.Nameable := by
  simp only [ofLabel?] at named
  split at named
  · cases named
  · next letters digits cut =>
    obtain ⟨_, _, someDigits, _, allDigits⟩ := label_parts_sound cut
    split at named
    · cases named
    · next short =>
      split at named
      · cases named
      · next row value =>
        obtain rfl := Option.some.inj named
        have bound := length_of_nat_decimal_le someDigits allDigits
        rw [value] at bound
        exact bound.trans (Nat.not_lt.mp short)

end PostfixSheet.Address

namespace PostfixSheet.Token

theorem nameable_of_reference {text label : Text} {a : Address}
    (read : ofText text = .reference label (some a)) : a.Nameable := by
  simp only [ofText] at read
  split at read
  · cases read
  · split at read
    · simp only [reference.injEq] at read
      exact Address.nameable_of_label read.2
    · split at read <;> cases read

/-- Whatever a reference token of a text names can be spoken of by its label. -/
theorem nameable_of_mem_scan {text label : Text} {a : Address}
    (member : .reference label (some a) ∈ scan text) : a.Nameable := by
  obtain ⟨word, _, read⟩ := List.mem_map.mp member
  exact nameable_of_reference read

end PostfixSheet.Token
