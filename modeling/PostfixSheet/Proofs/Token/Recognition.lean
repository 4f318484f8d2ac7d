import PostfixSheet.Proofs.Address.Spelling
import PostfixSheet.Proofs.Token.Kind

/-!
# Two recognisers of labels

A word is a reference if it has the shape of a label as it stands. A label that is read on its own is
put in upper case first, and only then its shape is looked at. Both name the same address, but ten
characters beyond ASCII become letters in upper case: a label with one of them names an address, and
the same word is no reference.
-/

namespace PostfixSheet

namespace Text

/-- Characters that are in ASCII once they are put in upper case were in ASCII before, up to ten. -/
theorem ascii_of_upper {text : Text} (ascii : ∀ d ∈ upper text, d.toNat < 128)
    (native : ∀ c ∈ text, c ∉ foreignLetters) : ∀ c ∈ text, c.toNat < 128 := by
  intro c member
  by_contra beyond
  rcases foreign_or_beyond (Nat.not_lt.mp beyond) with foreign | ⟨d, made, further⟩
  · exact native c member foreign
  · have inside : d ∈ upper text := List.mem_flatMap.mpr ⟨c, member, made⟩
    exact absurd (ascii d inside) (Nat.not_lt.mpr further)

theorem upper_of_ascii {text : Text} (ascii : ∀ c ∈ text, c.toNat < 128) :
    upper text = text.map Char.toUpper := by
  induction text with
  | nil => rfl
  | cons c text induction =>
      rw [upper_cons, upper_char_of_lt (ascii c (by simp)),
        induction fun d member => ascii d (by simp [member])]
      rfl

theorem class_of_to_upper : ∀ c : Char, c.toNat < 128 →
    (c.toUpper.isAlpha = true → c.isAlpha = true) ∧ (c.toUpper.isDigit = true → c.isDigit = true) :=
  forall_ascii (by decide +kernel)

end Text

namespace Address

theorem has_label_shape_iff {text : Text} :
    hasLabelShape text = true ↔ ∃ letters digits, text = letters ++ digits ∧ letters ≠ [] ∧
      digits ≠ [] ∧ (∀ c ∈ letters, c.isAlpha = true) ∧ ∀ c ∈ digits, c.isDigit = true := by
  constructor
  · intro shape
    obtain ⟨⟨letters, digits⟩, parts⟩ := Option.isSome_iff_exists.mp shape
    exact ⟨letters, digits, label_parts_sound parts⟩
  · rintro ⟨letters, digits, rfl, someLetters, someDigits, allLetters, allDigits⟩
    rw [hasLabelShape, label_parts_append someLetters someDigits allLetters allDigits]
    rfl

theorem letter_or_digit_of_shape {word : Text} (shape : hasLabelShape word = true) {c : Char}
    (member : c ∈ word) : c.isAlpha = true ∨ c.isDigit = true := by
  obtain ⟨letters, digits, rfl, _, _, allLetters, allDigits⟩ := has_label_shape_iff.mp shape
  exact (List.mem_append.mp member).imp (allLetters c) (allDigits c)

theorem ascii_of_shape {word : Text} (shape : hasLabelShape word = true) {c : Char}
    (member : c ∈ word) : c.toNat < 128 := by
  rcases letter_or_digit_of_shape shape member with letter | digit
  · exact Text.is_alpha_lt letter
  · have range := Text.is_digit_range digit
    omega

theorem native_of_shape {word : Text} (shape : hasLabelShape word = true) :
    ∀ c ∈ word, c ∉ Text.foreignLetters := by
  intro c member foreign
  have beyond := (Text.foreign_letters_table c foreign).1
  exact absurd (ascii_of_shape shape member) (Nat.not_lt.mpr beyond)

theorem shape_of_named {word : Text} {a : Address} (named : ofLabel? word = some a) :
    hasLabelShape (Text.upper word) = true := by
  rw [hasLabelShape]
  cases found : labelParts? (Text.upper word) with
  | none =>
      rw [ofLabel?, found] at named
      cases named
  | some parts => rfl

theorem shape_of_native {word : Text} (capital : hasLabelShape (Text.upper word) = true)
    (native : ∀ c ∈ word, c ∉ Text.foreignLetters) : hasLabelShape word = true := by
  have ascii := Text.ascii_of_upper (fun _ => ascii_of_shape capital) native
  obtain ⟨letters, digits, cut, someLetters, someDigits, allLetters, allDigits⟩ :=
    has_label_shape_iff.mp capital
  rw [Text.upper_of_ascii ascii] at cut
  obtain ⟨front, back, rfl, rfl, rfl⟩ := List.map_eq_append_iff.mp cut
  refine has_label_shape_iff.mpr ⟨front, back, rfl, by simpa using someLetters,
    by simpa using someDigits, ?_, ?_⟩
  · intro c member
    exact (Text.class_of_to_upper c (ascii c (List.mem_append_left back member))).1
      (allLetters _ (List.mem_map_of_mem member))
  · intro c member
    exact (Text.class_of_to_upper c (ascii c (List.mem_append_right front member))).2
      (allDigits _ (List.mem_map_of_mem member))

/-- What has the shape of a label in upper case is in upper case for good. -/
theorem upper_of_upper {word : Text} (shape : hasLabelShape (Text.upper word) = true) :
    Text.upper (Text.upper word) = Text.upper word := by
  obtain ⟨letters, digits, cut, someLetters, _, allLetters, allDigits⟩ :=
    has_label_shape_iff.mp shape
  have isName := is_name_of_upper cut someLetters allLetters
  have capitals : Text.upper letters = letters :=
    Text.upper_eq_self fun c member => Text.upper_char_of_is_upper (isName.capital c member)
  calc Text.upper (Text.upper word) = Text.upper letters ++ Text.upper digits := by
        rw [cut, Text.upper_append]
    _ = Text.upper word := by rw [capitals, Text.upper_of_digits allDigits, ← cut]

theorem of_label_of_upper {word : Text} (shape : hasLabelShape (Text.upper word) = true) :
    ofLabel? (Text.upper word) = ofLabel? word := by
  rw [ofLabel?, upper_of_upper shape, ← ofLabel?]

end Address

namespace Token

theorem of_text_eq_reference_iff {word label : Text} {address : Option Address} :
    ofText word = .reference label address ↔
      Address.hasLabelShape word = true ∧ Text.upper word = label ∧
        Address.ofLabel? word = address := by
  constructor
  · intro read
    unfold ofText at read
    split at read
    · cases read
    · split at read
      · next shape => exact ⟨shape, Token.reference.inj read⟩
      · split at read <;> cases read
  · rintro ⟨shape, rfl, rfl⟩
    obtain ⟨⟨letters, digits⟩, parts⟩ := Option.isSome_iff_exists.mp shape
    exact of_text_of_label parts

theorem refers_iff {word : Text} {a : Address} :
    (∃ label, ofText word = .reference label (some a)) ↔
      Address.ofLabel? word = some a ∧ Address.hasLabelShape word = true := by
  constructor
  · rintro ⟨label, read⟩
    obtain ⟨shape, _, named⟩ := of_text_eq_reference_iff.mp read
    exact ⟨named, shape⟩
  · rintro ⟨named, shape⟩
    exact ⟨_, of_text_eq_reference_iff.mpr ⟨shape, rfl, named⟩⟩

/-- A word is a reference to an address exactly if it names the address and has the shape of a label,
and also exactly if it names the address and none of the ten characters occurs in it. What a word
names is what its upper case refers to. -/
theorem references_among_labels (word : Text) (a : Address) :
    ((∃ label, ofText word = .reference label (some a)) ↔
      Address.ofLabel? word = some a ∧ Address.hasLabelShape word = true) ∧
    ((∃ label, ofText word = .reference label (some a)) ↔
      Address.ofLabel? word = some a ∧ ∀ c ∈ word, c ∉ Text.foreignLetters) ∧
    ((∃ label, ofText (Text.upper word) = .reference label (some a)) ↔
      Address.ofLabel? word = some a) := by
  refine ⟨refers_iff, refers_iff.trans ?_, refers_iff.trans ?_⟩
  · exact and_congr_right fun named =>
      ⟨Address.native_of_shape, Address.shape_of_native (Address.shape_of_named named)⟩
  · constructor
    · rintro ⟨named, shape⟩
      rw [← Address.of_label_of_upper shape, named]
    · intro named
      have shape := Address.shape_of_named named
      exact ⟨(Address.of_label_of_upper shape).trans named, shape⟩

/-- With a sharp s for its letters a label names a cell of column `SS`, and yet it has not the shape
of a label and is no reference. -/
theorem sharp_s_names_without_referring :
    Address.ofLabel? ['\u00df', '1'] = some ⟨512, 0⟩ ∧
      Address.hasLabelShape ['\u00df', '1'] = false ∧
      ¬∃ label, ofText ['\u00df', '1'] = .reference label (some ⟨512, 0⟩) := by
  have noShape : Address.hasLabelShape ['\u00df', '1'] = false := by decide +kernel
  refine ⟨by decide +kernel, noShape, ?_⟩
  rintro ⟨label, read⟩
  rw [of_text_eq_reference_iff, noShape] at read
  exact Bool.false_ne_true read.1

end Token
end PostfixSheet
