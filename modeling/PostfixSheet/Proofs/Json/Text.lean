import PostfixSheet.Json.Token
import Mathlib.Tactic.NormNum

/-!
# JSON strings

Every character comes back from how it is written in a string: the two that end or escape, the
control characters, and those beyond ASCII by the numbers of their halves. What is written is
printable ASCII.
-/

namespace PostfixSheet.Json

/-- The characters that text on one line is made of everywhere. -/
def IsPlain (c : Char) : Prop := 32 ≤ c.toNat ∧ c.toNat < 127

instance (c : Char) : Decidable (IsPlain c) := inferInstanceAs (Decidable (_ ∧ _))

theorem digit_char_cases : ∀ k : Fin 16,
    Text.hexDigit? (Nat.digitChar k) = some k.val ∧ 32 ≤ (Nat.digitChar k).toNat ∧
      (Nat.digitChar k).toNat < 127 := by
  decide

theorem hex_digit_digit_char (n : Nat) :
    Text.hexDigit? (Nat.digitChar (n % 16)) = some (n % 16) :=
  (digit_char_cases ⟨n % 16, Nat.mod_lt n (by decide)⟩).1

theorem plain_digit_char (n : Nat) : IsPlain (Nat.digitChar (n % 16)) :=
  (digit_char_cases ⟨n % 16, Nat.mod_lt n (by decide)⟩).2

theorem plain_of_mem_hex {width n : Nat} {c : Char} (member : c ∈ Text.hex width n) :
    IsPlain c := by
  induction width generalizing n with
  | zero => cases member
  | succ width induction =>
      rw [Text.hex] at member
      rcases List.mem_append.mp member with front | last
      · exact induction front
      · rw [List.mem_singleton.mp last]
        exact plain_digit_char n

theorem scan_hex_digit (done : List Nat) (left value n : Nat) (rest : Text) :
    scanFrom (.inEscape done (left + 1) value) (Nat.digitChar (n % 16) :: rest) =
      scanFrom (.inEscape done left (16 * value + n % 16)) rest := by
  rw [scanFrom, hex_digit_digit_char]

theorem scan_last_hex_digit (done : List Nat) (value n : Nat) (rest : Text) :
    scanFrom (.inEscape done 0 value) (Nat.digitChar (n % 16) :: rest) =
      scanFrom (.inString ((16 * value + n % 16) :: done)) rest := by
  rw [scanFrom, hex_digit_digit_char]

theorem scan_unit_escape {n : Nat} (bound : n < 0x10000) (done : List Nat) (rest : Text) :
    scanFrom (.inString done) (unitEscape n ++ rest) = scanFrom (.inString (n :: done)) rest := by
  have digits : Text.hex 4 n = [Nat.digitChar (n / 16 / 16 / 16 % 16),
      Nat.digitChar (n / 16 / 16 % 16), Nat.digitChar (n / 16 % 16), Nat.digitChar (n % 16)] := rfl
  have value : 16 * (16 * (16 * (16 * 0 + n / 16 / 16 / 16 % 16) + n / 16 / 16 % 16) +
      n / 16 % 16) + n % 16 = n := by omega
  have start : scanFrom (.inString done) (unitEscape n ++ rest) =
      scanFrom (.inEscape done 3 0) (Text.hex 4 n ++ rest) := by
    rw [unitEscape, List.cons_append, List.cons_append, scanFrom, if_neg (by decide),
      if_pos rfl, scanFrom, if_pos rfl]
  rw [start, digits]
  simp only [List.cons_append, List.nil_append]
  rw [scan_hex_digit, scan_hex_digit, scan_hex_digit, scan_last_hex_digit, value]

/-- The numbers that a character is written by. -/
def units (c : Char) : List Nat :=
  if c.toNat < 0x10000 then [c.toNat]
  else [0xd800 + (c.toNat - 0x10000) / 0x400, 0xdc00 + (c.toNat - 0x10000) % 0x400]

theorem char_bound (c : Char) : c.toNat < 0xd800 ∨ 0xdfff < c.toNat ∧ c.toNat < 0x110000 :=
  c.valid

theorem scan_escaped {c d : Char} (stands : escaped? d = some c) (noCode : d ≠ 'u')
    (done : List Nat) (rest : Text) :
    scanFrom (.inString done) ('\\' :: d :: rest) = scanFrom (.inString (c.toNat :: done)) rest := by
  rw [scanFrom, if_neg (by decide), if_pos rfl, scanFrom, if_neg noCode, stands]

theorem units_bound (c : Char) : ∀ n ∈ units c, n < 0x10000 := by
  have bound := char_bound c
  intro n member
  rw [units] at member
  split at member
  · next small =>
    rw [List.mem_singleton.mp member]
    exact small
  · simp only [List.mem_cons, List.not_mem_nil, or_false] at member
    rcases member with same | same
    · omega
    · omega

/-- A character is written by a letter for it, as itself, or by its numbers. -/
theorem escape_cases (c : Char) :
    (∃ d, escaped? d = some c ∧ d ≠ 'u' ∧ IsPlain d ∧ escape c = ['\\', d]) ∨
    (IsPlain c ∧ c ≠ '\x22' ∧ c ≠ '\\' ∧ escape c = [c]) ∨
    escape c = (units c).flatMap unitEscape := by
  by_cases mark : c = '\x22' ∨ c = '\\'
  · left
    rcases mark with rfl | rfl
    · exact ⟨'\x22', rfl, by decide, by decide, rfl⟩
    · exact ⟨'\\', rfl, by decide, by decide, rfl⟩
  by_cases feed : c = '\n'
  · exact .inl ⟨'n', by rw [feed]; rfl, by decide, by decide, by rw [feed]; rfl⟩
  by_cases back : c = '\r'
  · exact .inl ⟨'r', by rw [back]; rfl, by decide, by decide, by rw [back]; rfl⟩
  by_cases tab : c = '\t'
  · exact .inl ⟨'t', by rw [tab]; rfl, by decide, by decide, by rw [tab]; rfl⟩
  by_cases erased : c = '\x08'
  · exact .inl ⟨'b', by rw [erased]; rfl, by decide, by decide, by rw [erased]; rfl⟩
  by_cases page : c = '\x0c'
  · exact .inl ⟨'f', by rw [page]; rfl, by decide, by decide, by rw [page]; rfl⟩
  right
  rw [escape, if_neg mark, if_neg feed, if_neg back, if_neg tab, if_neg erased, if_neg page]
  split
  · next printable =>
    obtain ⟨noQuote, noBackslash⟩ := not_or.mp mark
    exact .inl ⟨printable, noQuote, noBackslash, rfl⟩
  · right
    rw [units]
    split
    · simp
    · simp

theorem scan_units {numbers : List Nat} (bounded : ∀ n ∈ numbers, n < 0x10000) (done : List Nat)
    (rest : Text) :
    scanFrom (.inString done) (numbers.flatMap unitEscape ++ rest) =
      scanFrom (.inString (numbers.reverse ++ done)) rest := by
  induction numbers generalizing done with
  | nil => rfl
  | cons n numbers induction =>
      have first := scan_unit_escape (bounded n (by simp)) done
        (numbers.flatMap unitEscape ++ rest)
      rw [List.flatMap_cons, List.append_assoc, first,
        induction fun other member => bounded other (by simp [member])]
      simp

/-- The scan takes a character as it is written and keeps its numbers. -/
theorem scan_escape (c : Char) (done : List Nat) (rest : Text) :
    scanFrom (.inString done) (escape c ++ rest) =
      scanFrom (.inString ((units c).reverse ++ done)) rest := by
  have alone (small : c.toNat < 0x10000) : units c = [c.toNat] := by rw [units, if_pos small]
  rcases escape_cases c with ⟨d, stands, noCode, _, same⟩ | ⟨plain, noQuote, noEscape, same⟩ | same
  · have small : c.toNat < 0x10000 := by
      rw [escaped?] at stands
      split_ifs at stands with mark
      · rcases mark with rfl | rfl | rfl <;> cases stands <;> decide
      all_goals cases stands; decide
    rw [same, alone small]
    exact scan_escaped stands noCode done rest
  · have ⟨visible, below⟩ := plain
    rw [same, alone (by omega), List.singleton_append, scanFrom, if_neg noQuote, if_neg noEscape,
      if_neg (by omega)]
    rfl
  · rw [same]
    exact scan_units (units_bound c) done rest

theorem scan_escapes (text : Text) (done : List Nat) (rest : Text) :
    scanFrom (.inString done) (text.flatMap escape ++ rest) =
      scanFrom (.inString ((text.flatMap units).reverse ++ done)) rest := by
  induction text generalizing done with
  | nil => rfl
  | cons c text induction =>
      rw [List.flatMap_cons, List.append_assoc, scan_escape, induction, List.flatMap_cons,
        List.reverse_append, List.append_assoc]

theorem of_code_char (c : Char) : Sign.ofCode c.toNat = .char c := by
  have bound := char_bound c
  have noHalf : ¬(Sign.firstHalf ≤ c.toNat ∧ c.toNat - Sign.firstHalf < 0x800) := by
    rw [Sign.firstHalf]
    omega
  rw [Sign.ofCode, dif_neg noHalf, Char.ofNat_toNat]

/-- The numbers of a character make it again, whatever numbers follow. -/
theorem of_units_units (c : Char) (rest : List Nat) :
    ofUnits (units c ++ rest) = .char c :: ofUnits rest := by
  have bound := char_bound c
  rw [units]
  split
  · next small =>
    cases rest with
    | nil => simp only [List.append_nil, ofUnits, of_code_char]
    | cons n rest =>
        have noPair : ¬(0xd800 ≤ c.toNat ∧ c.toNat < 0xdc00 ∧ 0xdc00 ≤ n ∧ n < 0xe000) := by omega
        simp only [List.singleton_append, ofUnits, if_neg noPair, of_code_char]
  · next large =>
    have value : 0x10000 + (0xd800 + (c.toNat - 0x10000) / 0x400 - 0xd800) * 0x400 +
        (0xdc00 + (c.toNat - 0x10000) % 0x400 - 0xdc00) = c.toNat := by omega
    have pair : 0xd800 ≤ 0xd800 + (c.toNat - 0x10000) / 0x400 ∧
        0xd800 + (c.toNat - 0x10000) / 0x400 < 0xdc00 ∧
        0xdc00 ≤ 0xdc00 + (c.toNat - 0x10000) % 0x400 ∧
        0xdc00 + (c.toNat - 0x10000) % 0x400 < 0xe000 := by omega
    rw [List.cons_append, List.singleton_append, ofUnits.eq_3, if_pos pair, value,
      Char.ofNat_toNat]

theorem of_units_flat_map (text : Text) : ofUnits (text.flatMap units) = text.signs := by
  induction text with
  | nil => rfl
  | cons c text induction =>
      rw [List.flatMap_cons, of_units_units, induction]
      rfl

theorem scan_open_quote (rest : Text) :
    scanFrom .between ('\x22' :: rest) = scanFrom (.inString []) rest := by
  rw [scanFrom, if_neg (by decide), if_pos rfl]

theorem scan_closing_quote (done : List Nat) (rest : Text) :
    scanFrom (.inString done) ('\x22' :: rest) =
      .string (ofUnits done.reverse) :: scanFrom .between rest := by
  rw [scanFrom, if_pos rfl]

theorem escape_signs (text : Text) : text.signs.flatMap escapeSign = text.flatMap escape := by
  rw [Text.signs, List.flatMap_map]
  rfl

theorem string_text (text : Text) :
    (Token.string text).text = '\x22' :: text.flatMap escape ++ ['\x22'] :=
  congrArg (fun inner => '\x22' :: inner ++ ['\x22']) (escape_signs text)

/-- A written string is one token, whatever follows it. -/
theorem scan_string (text rest : Text) :
    scanFrom .between ((Token.string text).text ++ rest) = .string text :: scanFrom .between rest := by
  rw [string_text, List.append_assoc, List.cons_append, scan_open_quote, scan_escapes,
    List.singleton_append, scan_closing_quote, List.append_nil, List.reverse_reverse,
    of_units_flat_map]

theorem plain_of_mem_escape {c d : Char} (member : d ∈ escape c) : IsPlain d := by
  rcases escape_cases c with ⟨e, _, _, plain, same⟩ | ⟨plain, _, _, same⟩ | same
  · simp only [same, List.mem_cons, List.not_mem_nil, or_false] at member
    rcases member with rfl | rfl
    · decide
    · exact plain
  · rw [same] at member
    rwa [List.mem_singleton.mp member]
  · rw [same] at member
    obtain ⟨n, _, inEscape⟩ := List.mem_flatMap.mp member
    simp only [unitEscape, List.mem_cons] at inEscape
    rcases inEscape with rfl | rfl | inHex
    · decide
    · decide
    · exact plain_of_mem_hex inHex

end PostfixSheet.Json
