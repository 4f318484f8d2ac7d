import PostfixSheet.Proofs.Address.ColumnOrder
import PostfixSheet.Proofs.Address.Label
import PostfixSheet.Proofs.Text.Digits

/-!
# How addresses are spelled

A label names an address exactly if its upper case is the name of a column with the digits of a row
behind it: at most as many digits as an integer in text may have, and not only zeros. The address
gives the label back in upper case and without the zeros in front of the row, so these and the case
of the letters are all in which two labels of one address can differ.
-/

namespace PostfixSheet.Address

/-- A text is a name of a column and the digits of a row that is counted from one. -/
structure Spells (text letters digits : Text) : Prop where
  cut : text = letters ++ digits
  isName : Column.IsName letters
  someDigits : digits ≠ []
  allDigits : ∀ c ∈ digits, c.isDigit = true
  readable : digits.length ≤ Text.integerLimit
  positive : 1 ≤ Text.decimal digits

theorem is_upper_of_is_alpha {c : Char} (letter : c.isAlpha = true) (notSmall : c.isLower = false) :
    c.isUpper = true := by
  rcases Bool.or_eq_true_iff.mp letter with capital | small
  · exact capital
  · cases notSmall.symm.trans small

theorem is_name_of_upper {label letters rest : Text} (cut : Text.upper label = letters ++ rest)
    (some : letters ≠ []) (allLetters : ∀ c ∈ letters, c.isAlpha = true) :
    Column.IsName letters := by
  refine ⟨some, fun c member => ?_⟩
  have inside : c ∈ Text.upper label := by
    rw [cut]
    exact List.mem_append_left rest member
  obtain ⟨d, _, made⟩ := List.mem_flatMap.mp inside
  exact is_upper_of_is_alpha (allLetters c member) (Text.not_is_lower_of_mem_upper_char made)

variable {label other text letters digits : Text}

theorem of_label_of_spells (spells : Spells (Text.upper label) letters digits) :
    ofLabel? label = some ⟨Column.worth letters - 1, Text.decimal digits - 1⟩ := by
  obtain ⟨cut, isName, someDigits, allDigits, readable, positive⟩ := spells
  have allLetters : ∀ c ∈ letters, c.isAlpha = true :=
    fun c member => Bool.or_eq_true_iff.mpr (.inl (isName.capital c member))
  have parts := label_parts_append isName.some someDigits allLetters allDigits
  have column : (Column.ofLetters letters).toNat = Column.worth letters - 1 := by
    rw [Column.of_letters_name isName]
    omega
  have row : Text.decimal digits = Text.decimal digits - 1 + 1 := (Nat.sub_add_cancel positive).symm
  rw [ofLabel?, cut, parts]
  simp only [if_neg (Nat.not_lt.mpr readable)]
  rw [row, column]
  rfl

theorem spells_of_label {a : Address} (named : ofLabel? label = some a) :
    ∃ letters digits, Spells (Text.upper label) letters digits := by
  simp only [ofLabel?] at named
  split at named
  · cases named
  · next letters digits parts =>
    obtain ⟨cut, someLetters, someDigits, allLetters, allDigits⟩ := label_parts_sound parts
    split at named
    · cases named
    · next readable =>
      split at named
      · cases named
      · next row value =>
        have isName := is_name_of_upper cut someLetters allLetters
        have positive : 1 ≤ Text.decimal digits := by omega
        exact ⟨letters, digits, cut, isName, someDigits, allDigits, Nat.not_lt.mp readable, positive⟩

/-- The label of the address that a text spells is the text without the zeros in front of its row. -/
theorem label_of_spells {a : Address} (spells : Spells text letters digits)
    (column : a.column + 1 = Column.worth letters) (row : a.row + 1 = Text.decimal digits) :
    a.label = letters ++ digits.dropWhile (· == '0') := by
  have sameColumn : a.column = Column.worth letters - 1 := by omega
  have nonzero : Text.decimal digits ≠ 0 := by omega
  rw [label, sameColumn, Column.letters_worth spells.isName, row,
    Text.of_nat_decimal_drop_zeros spells.allDigits nonzero]

theorem labelled_of_nameable {a : Address} (nameable : a.Nameable) : a.labelled = .ok a := by
  have readable : ¬Text.integerLimit < (Text.ofNat (a.row + 1)).length := Nat.not_lt.mpr nameable
  simp only [labelled, if_neg readable]

theorem of_label_eq_iff {lettersOther digitsOther : Text}
    (spells : Spells (Text.upper label) letters digits)
    (spellsOther : Spells (Text.upper other) lettersOther digitsOther) :
    ofLabel? label = ofLabel? other ↔ letters = lettersOther ∧
      digits.dropWhile (· == '0') = digitsOther.dropWhile (· == '0') := by
  have positive := spells.isName.worth_pos
  have positiveOther := spellsOther.isName.worth_pos
  have row := spells.positive
  have rowOther := spellsOther.positive
  rw [of_label_of_spells spells, of_label_of_spells spellsOther, Option.some.injEq, mk.injEq]
  constructor
  · rintro ⟨sameColumn, sameRow⟩
    have worths : Column.worth letters = Column.worth lettersOther := by omega
    have rows : Text.decimal digits = Text.decimal digitsOther := by omega
    refine ⟨Column.worth_injective spells.isName spellsOther.isName worths, ?_⟩
    rw [← Text.of_nat_decimal_drop_zeros spells.allDigits (by omega),
      ← Text.of_nat_decimal_drop_zeros spellsOther.allDigits (by omega), rows]
  · rintro ⟨rfl, sameDigits⟩
    refine ⟨rfl, ?_⟩
    rw [← Text.decimal_drop_zeros digits, sameDigits, Text.decimal_drop_zeros]

/-- Labels and addresses: which texts are read, what they name and how that is written again. What
can be named comes back from its label, and two labels name the same up to case and zeros. -/
theorem labels_spell_addresses :
    (∀ label, (∃ a, ofLabel? label = some a) ↔
      ∃ letters digits, Spells (Text.upper label) letters digits) ∧
    (∀ label letters digits, Spells (Text.upper label) letters digits →
      ∃ a, ofLabel? label = some a ∧ a.row + 1 = Text.decimal digits ∧
        a.column + 1 = Column.worth letters ∧ a.labelled = .ok a ∧
        a.label = letters ++ digits.dropWhile (· == '0')) ∧
    (∀ a : Address, a.Nameable → a.labelled = .ok a ∧ ofLabel? a.label = some a) ∧
    ∀ label other letters digits lettersOther digitsOther,
      Spells (Text.upper label) letters digits →
      Spells (Text.upper other) lettersOther digitsOther →
      (ofLabel? label = ofLabel? other ↔ letters = lettersOther ∧
        digits.dropWhile (· == '0') = digitsOther.dropWhile (· == '0')) := by
  refine ⟨?_, ?_, ?_, ?_⟩
  · intro label
    constructor
    · rintro ⟨a, named⟩
      exact spells_of_label named
    · rintro ⟨letters, digits, spells⟩
      exact ⟨_, of_label_of_spells spells⟩
  · intro label letters digits spells
    have named := of_label_of_spells spells
    have column := Nat.sub_add_cancel spells.isName.worth_pos
    have row := Nat.sub_add_cancel spells.positive
    exact ⟨_, named, row, column, labelled_of_nameable (nameable_of_label named),
      label_of_spells spells column row⟩
  · exact fun a nameable => ⟨labelled_of_nameable nameable, of_label_label nameable⟩
  · intro label other letters digits lettersOther digitsOther spells spellsOther
    exact of_label_eq_iff spells spellsOther

/-- A ligature in the place of two letters, and zeros in front of the row. -/
theorem ligature_label_spells :
    Spells (Text.upper ['\ufb00', '0', '0', '7']) ['F', 'F'] ['0', '0', '7'] ∧
    Spells (Text.upper ['f', 'F', '7']) ['F', 'F'] ['7'] ∧ Nameable ⟨161, 6⟩ ∧
    (∃ a, ofLabel? ['\ufb00', '0', '0', '7'] = some a ∧ a.row + 1 = Text.decimal ['0', '0', '7'] ∧
      a.column + 1 = Column.worth ['F', 'F'] ∧ a.labelled = .ok a ∧ a.label = ['F', 'F', '7']) ∧
    ofLabel? (Address.label ⟨161, 6⟩) = some ⟨161, 6⟩ ∧
    ofLabel? ['\ufb00', '0', '0', '7'] = ofLabel? ['f', 'F', '7'] := by
  have isName : Column.IsName ['F', 'F'] := ⟨by decide, List.all_eq_true.mp (by decide)⟩
  have spells : Spells (Text.upper ['\ufb00', '0', '0', '7']) ['F', 'F'] ['0', '0', '7'] :=
    ⟨by decide +kernel, isName, by decide, List.all_eq_true.mp (by decide), by decide, by decide⟩
  have plain : Spells (Text.upper ['f', 'F', '7']) ['F', 'F'] ['7'] :=
    ⟨by decide +kernel, isName, by decide, List.all_eq_true.mp (by decide), by decide, by decide⟩
  have nameable : Nameable ⟨161, 6⟩ := by decide +kernel
  obtain ⟨_, named, back, same⟩ := labels_spell_addresses
  exact ⟨spells, plain, nameable, named _ _ _ spells, (back _ nameable).2,
    (same _ _ _ _ _ _ spells plain).mpr ⟨rfl, rfl⟩⟩

end PostfixSheet.Address
