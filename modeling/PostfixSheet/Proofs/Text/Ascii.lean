import PostfixSheet.Text.Blank
import PostfixSheet.Text.Upper

/-!
# Letters and digits of ASCII

None of them is blank. Upper case turns letters into capital letters, one for each, leaves these and
all digits alone, and leaves no small letter of ASCII anywhere. Beyond ASCII there are ten characters
that become letters of ASCII and nothing else; every other one keeps a character that is none.
-/

namespace PostfixSheet.Text

theorem upper_eq_self {text : Text} (fixed : ∀ c ∈ text, upperChar c = [c]) :
    upper text = text := by
  induction text with
  | nil => rfl
  | cons c text induction =>
      rw [upper_cons, fixed c (by simp), induction fun d member => fixed d (by simp [member])]
      rfl

/-- What holds of each character of ASCII can be looked up one by one. -/
theorem forall_ascii {p : Char → Prop} (each : ∀ n < 128, p (Char.ofNat n)) :
    ∀ c : Char, c.toNat < 128 → p c := by
  intro c ascii
  have here := each c.toNat ascii
  rwa [Char.ofNat_toNat] at here

theorem is_digit_range {c : Char} (digit : c.isDigit = true) : 48 ≤ c.toNat ∧ c.toNat ≤ 57 :=
  Char.isDigit_iff_toNat.mp digit

theorem is_alpha_range {c : Char} (alpha : c.isAlpha = true) :
    (65 ≤ c.toNat ∧ c.toNat ≤ 90) ∨ (97 ≤ c.toNat ∧ c.toNat ≤ 122) := by
  rcases Bool.or_eq_true_iff.mp alpha with capital | small
  · exact .inl (of_decide_eq_true capital)
  · obtain ⟨above, upTo⟩ := Bool.and_eq_true_iff.mp small
    exact .inr ⟨of_decide_eq_true above, of_decide_eq_true upTo⟩

theorem is_upper_range {c : Char} (capital : c.isUpper = true) : 65 ≤ c.toNat ∧ c.toNat ≤ 90 :=
  of_decide_eq_true capital

theorem is_lower_range {c : Char} (small : c.isLower = true) : 97 ≤ c.toNat ∧ c.toNat ≤ 122 := by
  obtain ⟨above, upTo⟩ := Bool.and_eq_true_iff.mp small
  exact ⟨of_decide_eq_true above, of_decide_eq_true upTo⟩

theorem not_is_lower_of_range {c : Char} (outside : c.toNat < 97 ∨ 122 < c.toNat) :
    c.isLower = false := by
  rw [Bool.eq_false_iff]
  intro small
  have range := is_lower_range small
  omega

theorem not_is_blank {c : Char} (above : 33 ≤ c.toNat) (below : c.toNat < 127) :
    isBlank c = false := by
  simp only [isBlank, Bool.or_eq_false_iff, Bool.and_eq_false_iff, decide_eq_false_iff_not,
    beq_eq_false_iff_ne]
  omega

theorem not_is_blank_of_is_digit {c : Char} (digit : c.isDigit = true) : isBlank c = false := by
  have range := is_digit_range digit
  exact not_is_blank (by omega) (by omega)

theorem not_is_blank_of_is_alpha {c : Char} (letter : c.isAlpha = true) : isBlank c = false := by
  have range := is_alpha_range letter
  exact not_is_blank (by omega) (by omega)

theorem to_upper_of_not_is_lower : ∀ c : Char, c.toNat < 128 → c.isLower = false → c.toUpper = c :=
  forall_ascii (by decide +kernel)

theorem to_upper_not_is_lower : ∀ c : Char, c.toNat < 128 → c.toUpper.isLower = false :=
  forall_ascii (by decide +kernel)

theorem upper_char_of_not_is_lower {c : Char} (ascii : c.toNat < 128)
    (notSmall : c.isLower = false) : upperChar c = [c] := by
  rw [upper_char_of_lt ascii, to_upper_of_not_is_lower c ascii notSmall]

theorem upper_char_of_is_digit {c : Char} (digit : c.isDigit = true) : upperChar c = [c] := by
  have range := is_digit_range digit
  exact upper_char_of_not_is_lower (by omega) (not_is_lower_of_range (by omega))

theorem upper_char_of_is_upper {c : Char} (capital : c.isUpper = true) : upperChar c = [c] := by
  have range := is_upper_range capital
  exact upper_char_of_not_is_lower (by omega) (not_is_lower_of_range (by omega))

theorem to_upper_of_letter : ∀ c : Char, c.toNat < 128 → c.isAlpha = true →
    c.toUpper.isAlpha = true ∧ upperChar c.toUpper = [c.toUpper] :=
  forall_ascii (by decide +kernel)

theorem is_alpha_lt {c : Char} (letter : c.isAlpha = true) : c.toNat < 128 := by
  have range := is_alpha_range letter
  omega

theorem upper_char_of_is_alpha {c : Char} (letter : c.isAlpha = true) :
    ∃ d, upperChar c = [d] ∧ d.isAlpha = true ∧ upperChar d = [d] := by
  have ascii := is_alpha_lt letter
  exact ⟨c.toUpper, upper_char_of_lt ascii, to_upper_of_letter c ascii letter⟩

theorem upper_char_of_case : ∀ c : Char, c.toNat < 128 →
    upperChar c.toUpper = upperChar c ∧ upperChar c.toLower = upperChar c :=
  forall_ascii (by decide +kernel)

theorem upper_map {text : Text} {change : Char → Char}
    (kept : ∀ c ∈ text, upperChar (change c) = upperChar c) :
    upper (text.map change) = upper text := by
  induction text with
  | nil => rfl
  | cons c text induction =>
      rw [List.map_cons, upper_cons, upper_cons, kept c (by simp),
        induction fun d member => kept d (by simp [member])]

theorem upper_of_digits {digits : Text} (allDigits : ∀ c ∈ digits, c.isDigit = true) :
    upper digits = digits :=
  upper_eq_self fun c member => upper_char_of_is_digit (allDigits c member)

theorem upper_of_letters {letters : Text} (allLetters : ∀ c ∈ letters, c.isAlpha = true) :
    (upper letters).length = letters.length ∧
      (∀ c ∈ upper letters, c.isAlpha = true) ∧
        upper (upper letters) = upper letters := by
  induction letters with
  | nil => simp
  | cons c letters induction =>
      obtain ⟨d, capital, letter, fixed⟩ := upper_char_of_is_alpha (allLetters c (by simp))
      obtain ⟨length, all, twice⟩ := induction fun c member => allLetters c (by simp [member])
      have first : upper (c :: letters) = d :: upper letters := by
        rw [upper_cons, capital]
        rfl
      rw [first]
      refine ⟨by simp [length], ?_, ?_⟩
      · intro e member
        rcases List.mem_cons.mp member with rfl | member
        · exact letter
        · exact all e member
      · rw [upper_cons, fixed, twice]
        rfl

/-! Beyond ASCII, what the tables of upper case say -/

/-- Sharp s, dotless i, long s, and the ligatures of f and of long s. -/
def foreignLetters : List Char :=
  ['\u00df', '\u0131', '\u017f', '\ufb00', '\ufb01', '\ufb02', '\ufb03', '\ufb04', '\ufb05', '\ufb06']

theorem foreign_letters_table :
    ∀ c ∈ foreignLetters, 128 ≤ c.toNat ∧ ∀ d ∈ upperChar c, d.isUpper = true := by
  have all : foreignLetters.all (fun c =>
      decide (128 ≤ c.toNat) && (upperChar c).all Char.isUpper) = true := by decide +kernel
  intro c foreign
  have both := Bool.and_eq_true_iff.mp (List.all_eq_true.mp all c foreign)
  exact ⟨of_decide_eq_true both.1, List.all_eq_true.mp both.2⟩

theorem sequences_table : ∀ entry ∈ upperSequences,
    (∀ n ∈ entry.2, (Char.ofNat n).isLower = false) ∧
      (Char.ofNat entry.1 ∈ foreignLetters ∨ ∃ n ∈ entry.2, 128 ≤ (Char.ofNat n).toNat) := by
  decide +kernel

/-- The upper cases of a range are characters, and none is in ASCII. -/
def CaseRange.Beyond (range : CaseRange) : Prop :=
  128 ≤ range.first + range.shift ∧
    (range.last + range.shift < 0xd800 ∨
      0xdfff < range.first + range.shift ∧ range.last + range.shift < 0x110000)

instance (range : CaseRange) : Decidable range.Beyond := inferInstanceAs (Decidable (_ ∧ _))

theorem ranges_table : ∀ range ∈ upperRanges,
    range.Beyond ∨ (range.first = range.last ∧ Char.ofNat range.first ∈ foreignLetters) := by
  decide +kernel

theorem CaseRange.bounds_of_covers {range : CaseRange} {n : Nat} (covers : range.covers n = true) :
    range.first ≤ n ∧ n ≤ range.last := by
  simp only [CaseRange.covers, Bool.and_eq_true, decide_eq_true_eq] at covers
  exact covers.1

theorem CaseRange.shifted_beyond {range : CaseRange} {n : Nat} (covers : range.covers n = true)
    (beyond : range.Beyond) : 128 ≤ (Char.ofNat (n + range.shift).toNat).toNat := by
  have bounds := bounds_of_covers covers
  obtain ⟨above, valid⟩ := beyond
  have isChar : (n + range.shift).toNat.isValidChar := by
    rw [Nat.isValidChar]
    omega
  rw [Char.ofNat, dif_pos isChar]
  change 128 ≤ (n + range.shift).toNat
  omega

theorem upper_char_cases {c : Char} (beyond : 128 ≤ c.toNat) :
    (∃ entry ∈ upperSequences, entry.1 = c.toNat ∧ upperChar c = entry.2.map Char.ofNat) ∨
      c ∈ foreignLetters ∨ ∃ d, 128 ≤ d.toNat ∧ upperChar c = [d] := by
  rw [upperChar]
  simp only [Nat.not_lt.mpr beyond, if_false]
  cases listed : upperSequences.lookup c.toNat with
  | some sequence =>
      obtain ⟨before, after, split, _⟩ := List.lookup_eq_some_iff.mp listed
      have member : (c.toNat, sequence) ∈ upperSequences := by
        rw [split]
        simp
      exact .inl ⟨_, member, rfl, rfl⟩
  | none =>
      cases found : upperRanges.find? (·.covers c.toNat) with
      | some range =>
          have covers : range.covers c.toNat = true :=
            List.find?_some (p := fun range => CaseRange.covers range c.toNat) found
          rcases ranges_table range (List.mem_of_find?_eq_some found) with
            further | ⟨single, foreign⟩
          · exact .inr (.inr ⟨_, CaseRange.shifted_beyond covers further, rfl⟩)
          · have bounds := CaseRange.bounds_of_covers covers
            have same : range.first = c.toNat := by omega
            rw [same, Char.ofNat_toNat] at foreign
            exact .inr (.inl foreign)
      | none => exact .inr (.inr ⟨c, beyond, rfl⟩)

/-- A character beyond ASCII that has only characters of ASCII for its upper case is one of ten. -/
theorem foreign_or_beyond {c : Char} (beyond : 128 ≤ c.toNat) :
    c ∈ foreignLetters ∨ ∃ d ∈ upperChar c, 128 ≤ d.toNat := by
  rcases upper_char_cases beyond with ⟨entry, listed, same, upper⟩ | foreign | ⟨d, further, upper⟩
  · rw [upper]
    rcases (sequences_table entry listed).2 with foreign | ⟨n, inside, further⟩
    · rw [same, Char.ofNat_toNat] at foreign
      exact .inl foreign
    · exact .inr ⟨_, List.mem_map_of_mem inside, further⟩
  · exact .inl foreign
  · rw [upper]
    exact .inr ⟨d, List.mem_singleton_self d, further⟩

theorem not_is_lower_of_mem_upper_char {c d : Char} (member : d ∈ upperChar c) :
    d.isLower = false := by
  by_cases ascii : c.toNat < 128
  · rw [upper_char_of_lt ascii, List.mem_singleton] at member
    rw [member]
    exact to_upper_not_is_lower c ascii
  · have beyond : 128 ≤ c.toNat := Nat.not_lt.mp ascii
    rcases upper_char_cases beyond with ⟨entry, listed, _, upper⟩ | foreign | ⟨e, further, upper⟩
    · rw [upper] at member
      obtain ⟨n, inside, rfl⟩ := List.mem_map.mp member
      exact (sequences_table entry listed).1 n inside
    · have range := is_upper_range ((foreign_letters_table c foreign).2 d member)
      exact not_is_lower_of_range (by omega)
    · rw [upper, List.mem_singleton] at member
      rw [member]
      exact not_is_lower_of_range (by omega)

end PostfixSheet.Text
