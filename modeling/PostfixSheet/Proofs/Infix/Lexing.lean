import PostfixSheet.Infix.Lexeme
import PostfixSheet.Proofs.Text.Pieces
import PostfixSheet.Proofs.Token.Kind

/-!
# The lexemes of a text

The classes of lexemes are said here by their form, and a text splits into lexemes if at every place
the longest one that starts there is taken and blanks between lexemes are skipped. The scan finds
exactly this split: no two classes share a first character, so the class that a place belongs to is
settled by one character, and its reader takes as much as any member of the class could.
-/

namespace PostfixSheet.Infix

def AllDigits (text : Text) : Prop := ∀ c ∈ text, c.isDigit = true

/-- No power of ten at all, or a letter, a sign that may be left out, and at least one digit. -/
inductive IsPower : Text → Prop
  | absent : IsPower []
  | written {mark : Char} {sign digits : Text} (marked : mark = 'e' ∨ mark = 'E')
      (signed : sign = [] ∨ sign = ['+'] ∨ sign = ['-']) (given : digits ≠ [])
      (allDigits : AllDigits digits) : IsPower (mark :: (sign ++ digits))

/-- Digits without a point, or with a point and a digit before or after it. -/
inductive IsNumber : Text → Prop
  | whole {digits power : Text} (given : digits ≠ []) (allDigits : AllDigits digits)
      (scaled : IsPower power) : IsNumber (digits ++ power)
  | point {whole fraction power : Text} (given : whole ≠ [] ∨ fraction ≠ [])
      (allWhole : AllDigits whole) (allFraction : AllDigits fraction) (scaled : IsPower power) :
      IsNumber (whole ++ '.' :: (fraction ++ power))

/-- Letters and then digits, at least one of each. -/
inductive IsLabel : Text → Prop
  | label {letters digits : Text} (named : letters ≠ []) (counted : digits ≠ [])
      (allLetters : ∀ c ∈ letters, c.isAlpha = true) (allDigits : AllDigits digits) :
      IsLabel (letters ++ digits)

namespace Lexeme

def WellFormed : Lexeme → Prop
  | .number literal => IsNumber literal
  | .label text => IsLabel text
  | .operator _ | .opening | .closing => True

/-- The class of a lexeme: the lexeme without a text of its own. -/
def bare : Lexeme → Lexeme
  | .number _ => .number []
  | .label _ => .label []
  | .operator op => .operator op
  | .opening => .opening
  | .closing => .closing

/-- A lexeme stands at the start of a text, and no longer one does. -/
structure IsLongest (lexeme : Lexeme) (text : Text) : Prop where
  wellFormed : lexeme.WellFormed
  starts : lexeme.text <+: text
  longest : ∀ other : Lexeme, other.WellFormed → other.text <+: text →
    other.text.length ≤ lexeme.text.length

end Lexeme

/-- Blanks are skipped, and everywhere else the longest lexeme is taken. -/
inductive Splits : Text → List Lexeme → Prop
  | nil : Splits [] []
  | skip {c : Char} {rest : Text} {lexemes : List Lexeme} (blank : isSpace c = true)
      (further : Splits rest lexemes) : Splits (c :: rest) lexemes
  | take {lexeme : Lexeme} {rest : Text} {lexemes : List Lexeme}
      (longest : lexeme.IsLongest (lexeme.text ++ rest)) (further : Splits rest lexemes) :
      Splits (lexeme.text ++ rest) (lexeme :: lexemes)

namespace Lexeme

open Numeral (leadingDigits leadingSign leadingExponent)

theorem leading_digits_append {digits : Text} (allDigits : AllDigits digits) (rest : Text) :
    leadingDigits (digits ++ rest) = digits ++ leadingDigits rest :=
  List.takeWhile_append_of_pos allDigits

theorem all_digits_leading (text : Text) : AllDigits (leadingDigits text) :=
  fun c => List.all_eq_true.mp List.all_takeWhile c

theorem leading_digits_start (text : Text) : leadingDigits text <+: text :=
  List.takeWhile_prefix Char.isDigit

theorem leading_digits_of_not_digit {c : Char} (other : c.isDigit = false) (rest : Text) :
    leadingDigits (c :: rest) = [] := by
  simp [leadingDigits, other]

theorem length_le_leading_digits {digits text : Text} (allDigits : AllDigits digits)
    (starts : digits <+: text) : digits.length ≤ (leadingDigits text).length := by
  obtain ⟨rest, rfl⟩ := starts
  rw [leading_digits_append allDigits, List.length_append]
  exact Nat.le_add_right _ _

theorem mark_is_not_digit {mark : Char} (marked : mark = 'e' ∨ mark = 'E') :
    mark.isDigit = false ∧ mark ≠ '.' := by
  rcases marked with rfl | rfl <;> decide

theorem leading_sign_cases (text : Text) :
    leadingSign text = [] ∨ leadingSign text = ['+'] ∨ leadingSign text = ['-'] := by
  unfold leadingSign
  split <;> simp

theorem leading_sign_start (text : Text) : leadingSign text <+: text := by
  unfold leadingSign
  split <;> simp

theorem leading_sign_append {sign digits : Text} (signed : sign = [] ∨ sign = ['+'] ∨ sign = ['-'])
    (given : digits ≠ []) (allDigits : AllDigits digits) (rest : Text) :
    leadingSign (sign ++ (digits ++ rest)) = sign := by
  rcases signed with rfl | rfl | rfl
  · obtain ⟨c, digits, rfl⟩ := List.exists_cons_of_ne_nil given
    obtain ⟨notMinus, notPlus⟩ := Numeral.digit_ne_sign (allDigits c (by simp))
    simp [leadingSign, notPlus, notMinus]
  · rfl
  · rfl

theorem leading_exponent_sound (text : Text) :
    IsPower (leadingExponent text) ∧ leadingExponent text <+: text := by
  cases text with
  | nil => exact ⟨.absent, List.nil_prefix⟩
  | cons c rest =>
      rw [leadingExponent]
      split
      · next marked =>
        have signed := leading_sign_start rest
        have counted := leading_digits_start (rest.drop (leadingSign rest).length)
        have whole := List.prefix_iff_eq_append.mp signed
        dsimp only
        split
        · exact ⟨.absent, List.nil_prefix⟩
        · next some =>
          refine ⟨.written marked (leading_sign_cases rest) (by simpa using some)
            (all_digits_leading _), ?_⟩
          rw [List.cons_append, List.cons_prefix_cons]
          refine ⟨rfl, ?_⟩
          conv_rhs => rw [← whole]
          exact (List.prefix_append_right_inj _).mpr counted
      · exact ⟨.absent, List.nil_prefix⟩

theorem leading_exponent_longest {power text : Text} (scaled : IsPower power)
    (starts : power <+: text) : power.length ≤ (leadingExponent text).length := by
  cases scaled with
  | absent => exact Nat.zero_le _
  | @written mark sign digits marked signed given allDigits =>
      obtain ⟨rest, rfl⟩ := starts
      have regroup : mark :: (sign ++ digits) ++ rest = mark :: (sign ++ (digits ++ rest)) := by
        simp
      have someDigits : (leadingDigits (digits ++ rest)).isEmpty = false := by
        rw [leading_digits_append allDigits]
        simp [given]
      have longer := length_le_leading_digits allDigits (List.prefix_append digits rest)
      rw [regroup, leadingExponent, if_pos marked]
      simp only [leading_sign_append signed given allDigits, List.drop_left, someDigits,
        Bool.false_eq_true, if_false, List.length_cons, List.length_append]
      omega

theorem leading_number_of_no_point {text : Text}
    (noPoint : (text.drop (leadingDigits text).length).head? ≠ some '.') :
    leadingNumber? text =
      if (leadingDigits text).isEmpty then none
      else some (leadingDigits text ++ leadingExponent (text.drop (leadingDigits text).length)) := by
  unfold leadingNumber?
  dsimp only
  split
  · next afterPoint same =>
    rw [same] at noPoint
    exact absurd rfl noPoint
  · rfl

theorem leading_number_of_point {text afterPoint : Text}
    (pointed : text.drop (leadingDigits text).length = '.' :: afterPoint) :
    leadingNumber? text =
      if (leadingDigits text).isEmpty && (leadingDigits afterPoint).isEmpty then none
      else some (leadingDigits text ++ '.' :: leadingDigits afterPoint ++
        leadingExponent (afterPoint.drop (leadingDigits afterPoint).length)) := by
  unfold leadingNumber?
  dsimp only
  rw [pointed]
  rfl

theorem leading_number_sound {text number : Text} (found : leadingNumber? text = some number) :
    IsNumber number ∧ number <+: text := by
  have whole := List.prefix_iff_eq_append.mp (leading_digits_start text)
  by_cases noPoint : (text.drop (leadingDigits text).length).head? ≠ some '.'
  · rw [leading_number_of_no_point noPoint] at found
    split at found
    · cases found
    · next given =>
      obtain rfl := Option.some.inj found
      obtain ⟨scaled, starts⟩ :=
        leading_exponent_sound (text.drop (leadingDigits text).length)
      refine ⟨.whole (by simpa using given) (all_digits_leading text) scaled, ?_⟩
      conv_rhs => rw [← whole]
      exact (List.prefix_append_right_inj _).mpr starts
  · obtain ⟨afterPoint, pointed⟩ := List.head?_eq_some_iff.mp (not_not.mp noPoint)
    have fraction := List.prefix_iff_eq_append.mp (leading_digits_start afterPoint)
    rw [leading_number_of_point pointed] at found
    split at found
    · cases found
    · next given =>
      obtain rfl := Option.some.inj found
      obtain ⟨scaled, starts⟩ :=
        leading_exponent_sound (afterPoint.drop (leadingDigits afterPoint).length)
      have regroup : leadingDigits text ++ '.' :: leadingDigits afterPoint ++
          leadingExponent (afterPoint.drop (leadingDigits afterPoint).length) =
          leadingDigits text ++ '.' :: (leadingDigits afterPoint ++
            leadingExponent (afterPoint.drop (leadingDigits afterPoint).length)) := by simp
      rw [regroup]
      refine ⟨.point ?_ (all_digits_leading text) (all_digits_leading afterPoint) scaled, ?_⟩
      · by_cases none : leadingDigits text = []
        · exact .inr (by simpa [none] using given)
        · exact .inl none
      · conv_rhs => rw [← whole, pointed, ← fraction]
        refine (List.prefix_append_right_inj _).mpr ?_
        rw [List.cons_prefix_cons]
        exact ⟨rfl, (List.prefix_append_right_inj _).mpr starts⟩

theorem length_le_leading_number {text : Text} (given : leadingDigits text ≠ []) :
    ∃ number, leadingNumber? text = some number ∧
      (leadingDigits text).length ≤ number.length := by
  by_cases noPoint : (text.drop (leadingDigits text).length).head? ≠ some '.'
  · rw [leading_number_of_no_point noPoint, if_neg (by simpa using given)]
    exact ⟨_, rfl, by simp⟩
  · obtain ⟨afterPoint, pointed⟩ := List.head?_eq_some_iff.mp (not_not.mp noPoint)
    rw [leading_number_of_point pointed, if_neg (by simp [given])]
    exact ⟨_, rfl, by simp⟩

theorem leading_digits_before_power {digits power : Text} (allDigits : AllDigits digits)
    (scaled : IsPower power) (given : power ≠ []) (rest : Text) :
    leadingDigits (digits ++ (power ++ rest)) = digits ∧ (power ++ rest).head? ≠ some '.' := by
  cases scaled with
  | absent => exact absurd rfl given
  | @written mark sign exponent marked signed counted allExponent =>
      obtain ⟨notDigit, notPoint⟩ := mark_is_not_digit marked
      have stop : leadingDigits (mark :: (sign ++ exponent) ++ rest) = [] :=
        leading_digits_of_not_digit notDigit _
      rw [leading_digits_append allDigits, stop, List.append_nil]
      exact ⟨rfl, by simpa using notPoint⟩

theorem length_le_digits_and_exponent {digits power : Text} (allDigits : AllDigits digits)
    (scaled : IsPower power) (rest : Text) :
    (digits ++ power).length ≤ (leadingDigits (digits ++ (power ++ rest))).length +
      (leadingExponent ((digits ++ (power ++ rest)).drop
        (leadingDigits (digits ++ (power ++ rest))).length)).length := by
  rw [List.length_append]
  by_cases plain : power = []
  · have longer := length_le_leading_digits allDigits (List.prefix_append digits (power ++ rest))
    rw [plain] at longer ⊢
    rw [List.length_nil]
    omega
  · have front := (leading_digits_before_power allDigits scaled plain rest).1
    have longer := leading_exponent_longest scaled (List.prefix_append power rest)
    rw [front, List.drop_left]
    omega

theorem leading_number_longest_whole {digits power : Text} (given : digits ≠ [])
    (allDigits : AllDigits digits) (scaled : IsPower power) (rest : Text) :
    ∃ found, leadingNumber? (digits ++ (power ++ rest)) = some found ∧
      (digits ++ power).length ≤ found.length := by
  have someDigits : leadingDigits (digits ++ (power ++ rest)) ≠ [] := by
    rw [leading_digits_append allDigits]
    simp [given]
  by_cases plain : power = []
  -- without a power, the text may go on with a point, and the reader with it
  · have longer := length_le_leading_digits allDigits (List.prefix_append digits (power ++ rest))
    obtain ⟨found, reads, enough⟩ := length_le_leading_number someDigits
    refine ⟨found, reads, ?_⟩
    rw [plain, List.append_nil]
    omega
  · obtain ⟨front, noPoint⟩ := leading_digits_before_power allDigits scaled plain rest
    have longer := length_le_digits_and_exponent allDigits scaled rest
    have stop : ((digits ++ (power ++ rest)).drop
        (leadingDigits (digits ++ (power ++ rest))).length).head? ≠ some '.' := by
      rw [front, List.drop_left]
      exact noPoint
    rw [leading_number_of_no_point stop, if_neg (by simpa using someDigits)]
    exact ⟨_, rfl, by simpa using longer⟩

theorem leading_number_longest_point {whole fraction power : Text}
    (given : whole ≠ [] ∨ fraction ≠ []) (allWhole : AllDigits whole)
    (allFraction : AllDigits fraction) (scaled : IsPower power) (rest : Text) :
    ∃ found, leadingNumber? (whole ++ '.' :: (fraction ++ (power ++ rest))) = some found ∧
      (whole ++ '.' :: (fraction ++ power)).length ≤ found.length := by
  have front := leading_digits_append allWhole ('.' :: (fraction ++ (power ++ rest)))
  have stop : leadingDigits ('.' :: (fraction ++ (power ++ rest))) = [] :=
    leading_digits_of_not_digit (by decide) _
  rw [stop, List.append_nil] at front
  have pointed : (whole ++ '.' :: (fraction ++ (power ++ rest))).drop
      (leadingDigits (whole ++ '.' :: (fraction ++ (power ++ rest)))).length =
      '.' :: (fraction ++ (power ++ rest)) := by rw [front, List.drop_left]
  have longer := length_le_digits_and_exponent allFraction scaled rest
  have someDigits :
      ¬(whole.isEmpty && (leadingDigits (fraction ++ (power ++ rest))).isEmpty) = true := by
    rw [leading_digits_append allFraction]
    rcases given with given | given <;> simp [given]
  rw [leading_number_of_point pointed, front, if_neg someDigits]
  refine ⟨_, rfl, ?_⟩
  simp only [List.length_append, List.length_cons] at longer ⊢
  omega

theorem leading_number_longest {number text : Text} (wellFormed : IsNumber number)
    (starts : number <+: text) :
    ∃ found, leadingNumber? text = some found ∧ number.length ≤ found.length := by
  obtain ⟨rest, rfl⟩ := starts
  cases wellFormed with
  | @whole digits power given allDigits scaled =>
      rw [List.append_assoc]
      exact leading_number_longest_whole given allDigits scaled rest
  | @point whole fraction power given allWhole allFraction scaled =>
      have regroup : whole ++ '.' :: (fraction ++ power) ++ rest =
          whole ++ '.' :: (fraction ++ (power ++ rest)) := by simp
      rw [regroup]
      exact leading_number_longest_point given allWhole allFraction scaled rest

theorem leading_label_sound {text label : Text} (found : leadingLabel? text = some label) :
    IsLabel label ∧ label <+: text := by
  have letters := List.prefix_iff_eq_append.mp (List.takeWhile_prefix Char.isAlpha (l := text))
  have digits := leading_digits_start (text.drop (text.takeWhile Char.isAlpha).length)
  simp only [leadingLabel?] at found
  split at found
  · cases found
  · next given =>
    obtain rfl := Option.some.inj found
    simp only [Bool.or_eq_true, not_or, List.isEmpty_iff] at given
    have allLetters : ∀ c ∈ text.takeWhile Char.isAlpha, c.isAlpha = true :=
      fun c => List.all_eq_true.mp List.all_takeWhile c
    refine ⟨.label given.1 given.2 allLetters (all_digits_leading _), ?_⟩
    conv_rhs => rw [← letters]
    exact (List.prefix_append_right_inj _).mpr digits

theorem leading_label_longest {label text : Text} (wellFormed : IsLabel label)
    (starts : label <+: text) :
    ∃ found, leadingLabel? text = some found ∧ label.length ≤ found.length := by
  obtain ⟨rest, rfl⟩ := starts
  cases wellFormed with
  | @label letters digits named counted allLetters allDigits =>
      rw [List.append_assoc]
      have stop : (digits ++ rest).takeWhile Char.isAlpha = [] := by
        obtain ⟨c, digits, rfl⟩ := List.exists_cons_of_ne_nil counted
        have noLetter := Address.not_is_alpha_of_is_digit (allDigits c (by simp))
        exact List.takeWhile_cons_of_neg noLetter
      have front : (letters ++ (digits ++ rest)).takeWhile Char.isAlpha = letters := by
        rw [List.takeWhile_append_of_pos allLetters, stop, List.append_nil]
      have back := leading_digits_append allDigits rest
      have given : ¬(letters.isEmpty || (leadingDigits (digits ++ rest)).isEmpty) = true := by
        rw [back]
        simp [named, counted]
      simp only [leadingLabel?, front, List.drop_left, if_neg given]
      refine ⟨_, rfl, ?_⟩
      rw [back]
      simp only [List.length_append]
      omega

/-- A character of a class without parentheses and operators starts a label or a number. -/
theorem first_of_class {p : Char → Bool} {c : Char} (held : p c = true)
    (noParenthesis : ['(', ')'].all (fun mark => !p mark) = true)
    (noOperator : ['+', '-', '*', '/'].all (fun mark => !p mark) = true) (rest : Text) :
    first? (c :: rest) =
      if c.isAlpha then (leadingLabel? (c :: rest)).map .label
      else (leadingNumber? (c :: rest)).map .number := by
  have other := Text.ne_of_class held noParenthesis
  unfold first?
  split
  · next same => exact absurd (List.cons.inj same).1 (other '(' (by simp))
  · next same => exact absurd (List.cons.inj same).1 (other ')' (by simp))
  · next same => cases same
  · next d further _ _ same =>
    obtain ⟨rfl, rfl⟩ := List.cons.inj same
    rw [Operator.of_text_eq_none_of_class held noOperator]

theorem number_head {number : Text} (wellFormed : IsNumber number) :
    ∃ c rest, number = c :: rest ∧ (c.isDigit = true ∨ c = '.') := by
  cases wellFormed with
  | @whole digits power given allDigits _ =>
      obtain ⟨c, digits, rfl⟩ := List.exists_cons_of_ne_nil given
      exact ⟨c, digits ++ power, rfl, .inl (allDigits c (by simp))⟩
  | @point whole fraction power given allWhole _ _ =>
      cases whole with
      | nil => exact ⟨'.', fraction ++ power, rfl, .inr rfl⟩
      | cons c whole => exact ⟨c, _, rfl, .inl (allWhole c (by simp))⟩

theorem label_head {label : Text} (wellFormed : IsLabel label) :
    ∃ c rest, label = c :: rest ∧ c.isAlpha = true := by
  cases wellFormed with
  | @label letters digits named _ allLetters _ =>
      obtain ⟨c, letters, rfl⟩ := List.exists_cons_of_ne_nil named
      exact ⟨c, letters ++ digits, rfl, allLetters c (by simp)⟩

theorem first_of_number {number : Text} (wellFormed : IsNumber number) (rest : Text) :
    first? (number ++ rest) = (leadingNumber? (number ++ rest)).map .number := by
  obtain ⟨c, tail, rfl, head⟩ := number_head wellFormed
  rcases head with digit | rfl
  · have noLetter : ¬c.isAlpha = true := Address.not_is_alpha_of_is_digit digit
    rw [List.cons_append, first_of_class digit (by decide) (by decide), if_neg noLetter]
  · rfl

theorem first_of_label {label : Text} (wellFormed : IsLabel label) (rest : Text) :
    first? (label ++ rest) = (leadingLabel? (label ++ rest)).map .label := by
  obtain ⟨c, tail, rfl, letter⟩ := label_head wellFormed
  rw [List.cons_append, first_of_class letter (by decide) (by decide), if_pos letter]

theorem first_of_operator (op : Operator) (rest : Text) :
    first? (op.text ++ rest) = some (.operator op) := by
  cases op <;> rfl

theorem first_sound {text : Text} {lexeme : Lexeme} (found : first? text = some lexeme) :
    lexeme.WellFormed ∧ lexeme.text <+: text := by
  unfold first? at found
  split at found
  · cases found
    exact ⟨trivial, by simp [Lexeme.text]⟩
  · cases found
    exact ⟨trivial, by simp [Lexeme.text]⟩
  · cases found
  · next c rest _ _ =>
    split at found
    · next op same =>
      cases found
      have single : [c] = op.text := Operator.eq_text_of_of_text same
      refine ⟨trivial, ?_⟩
      change op.text <+: c :: rest
      rw [← single]
      simp
    · split at found
      · obtain ⟨label, read, rfl⟩ := Option.map_eq_some_iff.mp found
        exact leading_label_sound read
      · obtain ⟨number, read, rfl⟩ := Option.map_eq_some_iff.mp found
        exact leading_number_sound read

/-- Where a lexeme starts, one of its class is found that is at least as long. -/
theorem first_longest {text : Text} {lexeme : Lexeme} (wellFormed : lexeme.WellFormed)
    (starts : lexeme.text <+: text) :
    ∃ found, first? text = some found ∧ found.bare = lexeme.bare ∧
      lexeme.text.length ≤ found.text.length := by
  obtain ⟨rest, rfl⟩ := starts
  cases lexeme with
  | number literal =>
      obtain ⟨number, read, longer⟩ :=
        leading_number_longest wellFormed (List.prefix_append literal rest)
      refine ⟨.number number, ?_, rfl, longer⟩
      change first? (literal ++ rest) = _
      rw [first_of_number wellFormed, read]
      rfl
  | label text =>
      obtain ⟨label, read, longer⟩ :=
        leading_label_longest wellFormed (List.prefix_append text rest)
      refine ⟨.label label, ?_, rfl, longer⟩
      change first? (text ++ rest) = _
      rw [first_of_label wellFormed, read]
      rfl
  | operator op => exact ⟨.operator op, first_of_operator op rest, rfl, Nat.le_refl _⟩
  | opening => exact ⟨.opening, rfl, rfl, Nat.le_refl _⟩
  | closing => exact ⟨.closing, rfl, rfl, Nat.le_refl _⟩

theorem eq_of_bare_and_text {lexeme other : Lexeme} (bare_eq : lexeme.bare = other.bare)
    (text_eq : lexeme.text = other.text) : lexeme = other := by
  cases lexeme <;> cases other <;> simp_all [bare, text]

/-- What is found at the start of a text is its longest lexeme. -/
theorem first_eq_some_iff {text : Text} {lexeme : Lexeme} :
    first? text = some lexeme ↔ lexeme.IsLongest text := by
  constructor
  · intro found
    obtain ⟨wellFormed, starts⟩ := first_sound found
    refine ⟨wellFormed, starts, ?_⟩
    intro other otherFormed otherStarts
    obtain ⟨same, foundAgain, _, longer⟩ := first_longest otherFormed otherStarts
    obtain rfl : lexeme = same := Option.some.inj (found.symm.trans foundAgain)
    exact longer
  · intro longest
    -- what is found has the class of the lexeme, and neither of the two is longer than the other
    obtain ⟨found, read, sameBare, longer⟩ := first_longest longest.wellFormed longest.starts
    obtain ⟨wellFormed, starts⟩ := first_sound read
    have shorter := longest.longest found wellFormed starts
    have within := List.prefix_of_prefix_length_le longest.starts starts longer
    have sameText := within.eq_of_length (Nat.le_antisymm longer shorter)
    rw [read, eq_of_bare_and_text sameBare sameText.symm]

theorem first_of_space {c : Char} (blank : isSpace c = true) (rest : Text) :
    first? (c :: rest) = none := by
  simp only [isSpace, Bool.or_eq_true, beq_iff_eq] at blank
  rcases blank with (((rfl | rfl) | rfl) | rfl) | rfl <;> rfl

end Lexeme

theorem Splits.well_formed {text : Text} {lexemes : List Lexeme} (split : Splits text lexemes) :
    ∀ lexeme ∈ lexemes, lexeme.WellFormed := by
  induction split with
  | nil => simp
  | skip _ _ induction => exact induction
  | take longest _ induction =>
      intro lexeme member
      rcases List.mem_cons.mp member with rfl | member
      · exact longest.wellFormed
      · exact induction lexeme member

section Blank

open Text (Unbroken unbroken_append unbroken_cons unbroken_single)

theorem AllDigits.unbroken {digits : Text} (allDigits : AllDigits digits) : Unbroken digits :=
  fun c member => Text.not_is_blank_of_is_digit (allDigits c member)

theorem unbroken_letters {letters : Text} (allLetters : ∀ c ∈ letters, c.isAlpha = true) :
    Unbroken letters := fun c member => Text.not_is_blank_of_is_alpha (allLetters c member)

theorem IsPower.unbroken {power : Text} (scaled : IsPower power) : Unbroken power := by
  cases scaled with
  | absent => exact List.forall_mem_nil _
  | written marked signed given allDigits =>
      refine unbroken_cons ?_ (unbroken_append ?_ allDigits.unbroken)
      · rcases marked with rfl | rfl <;> decide
      · rcases signed with rfl | rfl | rfl
        · exact List.forall_mem_nil _
        · exact unbroken_single (by decide)
        · exact unbroken_single (by decide)

theorem IsNumber.unbroken {literal : Text} (wellFormed : IsNumber literal) :
    Unbroken literal := by
  cases wellFormed with
  | whole given allDigits scaled => exact unbroken_append allDigits.unbroken scaled.unbroken
  | point given allWhole allFraction scaled =>
      exact unbroken_append allWhole.unbroken
        (unbroken_cons (by decide) (unbroken_append allFraction.unbroken scaled.unbroken))

theorem IsLabel.unbroken {label : Text} (wellFormed : IsLabel label) : Unbroken label := by
  cases wellFormed with
  | label named counted allLetters allDigits =>
      exact unbroken_append (unbroken_letters allLetters) allDigits.unbroken

theorem Lexeme.unbroken {lexeme : Lexeme} (wellFormed : lexeme.WellFormed) :
    Unbroken lexeme.text := by
  cases lexeme with
  | number literal => exact IsNumber.unbroken wellFormed
  | label text => exact IsLabel.unbroken wellFormed
  | operator op => cases op <;> exact unbroken_single (by decide)
  | opening => exact unbroken_single (by decide)
  | closing => exact unbroken_single (by decide)

/-- No lexeme goes on past a blank. -/
theorem Lexeme.is_longest_before_blank {lexeme : Lexeme} (wellFormed : lexeme.WellFormed)
    (rest : Text) : lexeme.IsLongest (lexeme.text ++ ' ' :: rest) := by
  refine ⟨wellFormed, List.prefix_append _ _, ?_⟩
  intro other otherFormed starts
  by_contra longer
  have within : lexeme.text ++ [' '] <+: other.text := by
    apply List.prefix_of_prefix_length_le _ starts
    · rw [List.length_append, List.length_singleton]
      omega
    · exact ⟨rest, by simp⟩
  have blank : ' ' ∈ other.text := within.subset (by simp)
  have unbroken := Lexeme.unbroken otherFormed ' ' blank
  cases unbroken

/-- The lexemes with a blank behind each. -/
def spaced (lexemes : List Lexeme) : Text := lexemes.flatMap fun lexeme => lexeme.text ++ [' ']

theorem splits_spaced {lexemes : List Lexeme}
    (wellFormed : ∀ lexeme ∈ lexemes, lexeme.WellFormed) : Splits (spaced lexemes) lexemes := by
  induction lexemes with
  | nil => exact .nil
  | cons lexeme lexemes induction =>
      have apart : spaced (lexeme :: lexemes) = lexeme.text ++ ' ' :: spaced lexemes := by
        simp [spaced]
      have further := induction fun other member => wellFormed other (List.mem_cons_of_mem _ member)
      have longest := Lexeme.is_longest_before_blank (wellFormed lexeme List.mem_cons_self)
        (spaced lexemes)
      rw [apart]
      exact .take longest (.skip rfl further)

end Blank

/-- A text after its first characters is scanned from the place after them. -/
theorem scan_from_skip (skip : Nat) (spot : Spot) (text : Text) :
    scanFrom skip spot text =
      scanFrom 0 ((text.take skip).foldl Spot.after spot) (text.drop skip) := by
  induction skip generalizing spot text with
  | zero => rfl
  | succ skip induction =>
      cases text with
      | nil => simp [scanFrom]
      | cons c rest =>
          rw [scanFrom, induction]
          rfl

theorem scan_from_space {c : Char} (blank : isSpace c = true) (spot : Spot) (rest : Text) :
    scanFrom 0 spot (c :: rest) = scanFrom 0 (spot.after c) rest := by
  rw [scanFrom, if_pos blank]

theorem Lexeme.text_ne_nil {lexeme : Lexeme} (wellFormed : lexeme.WellFormed) :
    lexeme.text ≠ [] := by
  cases lexeme with
  | number literal =>
      obtain ⟨c, rest, same, _⟩ := Lexeme.number_head wellFormed
      simp [text, same]
  | label label =>
      obtain ⟨c, rest, same, _⟩ := Lexeme.label_head wellFormed
      simp [text, same]
  | operator op => simp [text, Operator.text]
  | opening => simp [text]
  | closing => simp [text]

theorem scan_from_lexeme {rest : Text} {lexeme : Lexeme}
    (longest : lexeme.IsLongest (lexeme.text ++ rest)) (spot : Spot) :
    scanFrom 0 spot (lexeme.text ++ rest) =
      ⟨⟨lexeme, spot⟩ :: (scanFrom 0 (lexeme.text.foldl Spot.after spot) rest).lexemes,
        (scanFrom 0 (lexeme.text.foldl Spot.after spot) rest).stop⟩ := by
  have found := Lexeme.first_eq_some_iff.mpr longest
  obtain ⟨c, tail, shape⟩ := List.exists_cons_of_ne_nil (Lexeme.text_ne_nil longest.wellFormed)
  have notBlank : ¬isSpace c = true := by
    intro blank
    rw [shape, List.cons_append, Lexeme.first_of_space blank] at found
    cases found
  have further : scanFrom (lexeme.text.length - 1) (spot.after c) (tail ++ rest) =
      scanFrom 0 (lexeme.text.foldl Spot.after spot) rest := by
    rw [scan_from_skip, shape]
    simp
  rw [shape, List.cons_append] at found ⊢
  rw [scanFrom, if_neg notBlank, found]
  simp only [further]
  rw [shape]

theorem scan_from_stop {c : Char} {rest : Text} (solid : isSpace c = false)
    (none : Lexeme.first? (c :: rest) = none) (spot : Spot) :
    scanFrom 0 spot (c :: rest) = ⟨[], some (c, spot)⟩ := by
  rw [scanFrom, if_neg (by simp [solid]), none]

/-- Texts by what a scan does with them next: the text is at its end, at a blank, at a character that
starts no lexeme, or at the longest lexeme that starts there. -/
@[elab_as_elim]
theorem scan_induction {motive : Text → Prop} (nil : motive [])
    (space : ∀ c rest, isSpace c = true → motive rest → motive (c :: rest))
    (stop : ∀ c rest, isSpace c = false → Lexeme.first? (c :: rest) = none → motive (c :: rest))
    (take : ∀ (lexeme : Lexeme) (rest : Text), lexeme.IsLongest (lexeme.text ++ rest) →
      motive rest → motive (lexeme.text ++ rest))
    (text : Text) : motive text := by
  induction length : text.length using Nat.strongRecOn generalizing text with
  | ind n induction =>
  cases text with
  | nil => exact nil
  | cons c rest =>
      have shorter : rest.length < n := by simp [← length]
      cases blank : isSpace c with
      | true => exact space c rest blank (induction rest.length shorter rest rfl)
      | false =>
          cases found : Lexeme.first? (c :: rest) with
          | none => exact stop c rest blank found
          | some lexeme =>
              have longest := Lexeme.first_eq_some_iff.mp found
              have some := List.length_pos_iff.mpr (Lexeme.text_ne_nil longest.wellFormed)
              obtain ⟨further, same⟩ := longest.starts
              rw [← same] at longest length ⊢
              have less : further.length < n := by
                rw [← length, List.length_append]
                omega
              exact take lexeme further longest (induction further.length less further rfl)

/-- The scan of a text that it gets through is the split of the text into lexemes. -/
theorem splits_of_scan_from {spot : Spot} {text : Text}
    (through : (scanFrom 0 spot text).stop = none) :
    Splits text ((scanFrom 0 spot text).lexemes.map Placed.lexeme) := by
  induction text using scan_induction generalizing spot with
  | nil => exact .nil
  | space c rest blank induction =>
      rw [scan_from_space blank] at through ⊢
      exact .skip blank (induction through)
  | stop c rest solid none =>
      rw [scan_from_stop solid none] at through
      cases through
  | take lexeme rest longest induction =>
      rw [scan_from_lexeme longest] at through ⊢
      exact .take longest (induction through)

theorem scan_from_of_splits {text : Text} {lexemes : List Lexeme} (split : Splits text lexemes)
    (spot : Spot) : (scanFrom 0 spot text).stop = none ∧
      (scanFrom 0 spot text).lexemes.map Placed.lexeme = lexemes := by
  induction split generalizing spot with
  | nil => exact ⟨rfl, rfl⟩
  | skip blank _ induction =>
      rw [scan_from_space blank]
      exact induction _
  | @take lexeme rest lexemes longest _ induction =>
      obtain ⟨through, found⟩ := induction (lexeme.text.foldl Spot.after spot)
      rw [scan_from_lexeme longest]
      exact ⟨through, by simp [found]⟩

/-- A text splits into exactly the lexemes of its scan, if the scan gets through. -/
theorem splits_iff_scan {text : Text} {lexemes : List Lexeme} :
    Splits text lexemes ↔
      (scan text).stop = none ∧ (scan text).lexemes.map Placed.lexeme = lexemes := by
  constructor
  · intro split
    exact scan_from_of_splits split Spot.start
  · rintro ⟨through, rfl⟩
    exact splits_of_scan_from through

theorem Splits.unique {text : Text} {lexemes other : List Lexeme} (split : Splits text lexemes)
    (splitAgain : Splits text other) : other = lexemes := by
  rw [← (splits_iff_scan.mp split).2, ← (splits_iff_scan.mp splitAgain).2]

end PostfixSheet.Infix
