/-!
Text as the library sees it: a list of characters. Every reader and writer is a recursion over such
a list, so what one writes and another reads can be compared character by character.
-/

namespace PostfixSheet

abbrev Text := List Char

namespace Text

/-- Puts a character in front of the first of several pieces; a first piece is made if there is
none. -/
def consFirst (c : Char) : List Text → List Text
  | [] => [[c]]
  | piece :: pieces => (c :: piece) :: pieces

/-- The pieces between the characters that satisfy `cut`, which are dropped. There is one piece more
than there are cuts, so the text without cuts is a single piece. -/
def splitWhere (cut : Char → Bool) (text : Text) : List Text :=
  text.foldr (fun c pieces => if cut c then [] :: pieces else consFirst c pieces) [[]]

/-- The decimal digits of a number, without leading zeros. -/
def ofNat (n : Nat) : Text := Nat.toDigits 10 n

/-- The decimal digits of a number, after a minus sign if it is negative. -/
def ofInt : Int → Text
  | .ofNat n => ofNat n
  | .negSucc n => '-' :: ofNat (n + 1)

/-- The number that a run of decimal digits stands for; zero for the empty run. -/
def decimal (digits : Text) : Nat := Nat.ofDigitChars 10 digits 0

/-- The most digits that an integer in text may have, leading zeros included. -/
def integerLimit : Nat := 4300

/-- The last `width` decimal digits of a number. -/
def digits : (width : Nat) → Nat → Text
  | 0, _ => []
  | width + 1, n => digits width (n / 10) ++ [Nat.digitChar (n % 10)]

/-- The last `width` hexadecimal digits of a number, in lower case. -/
def hex : (width : Nat) → Nat → Text
  | 0, _ => []
  | width + 1, n => hex width (n / 16) ++ [Nat.digitChar (n % 16)]

/-- The value of a hexadecimal digit in either case. -/
def hexDigit? (c : Char) : Option Nat :=
  if c.isDigit then some (c.toNat - 48)
  else if 'a' ≤ c ∧ c ≤ 'f' then some (c.toNat - 87)
  else if 'A' ≤ c ∧ c ≤ 'F' then some (c.toNat - 55)
  else none

/-- The number that a run of hexadecimal digits stands for, if all of its characters are such
digits. -/
def hexadecimal? (digits : Text) : Option Nat :=
  digits.foldlM (fun sofar c => (hexDigit? c).map (16 * sofar + ·)) 0

@[simp] theorem split_where_nil (cut : Char → Bool) : splitWhere cut [] = [[]] := rfl

theorem split_where_cons (cut : Char → Bool) (c : Char) (text : Text) :
    splitWhere cut (c :: text) =
      if cut c then [] :: splitWhere cut text else consFirst c (splitWhere cut text) := rfl

theorem cons_first_ne_nil (c : Char) (pieces : List Text) : consFirst c pieces ≠ [] := by
  cases pieces <;> simp [consFirst]

theorem split_where_ne_nil (cut : Char → Bool) (text : Text) : splitWhere cut text ≠ [] := by
  cases text with
  | nil => simp
  | cons c text =>
    rw [split_where_cons]
    split
    · simp
    · exact cons_first_ne_nil _ _

@[simp] theorem decimal_of_nat (n : Nat) : decimal (ofNat n) = n := Nat.ofDigitChars_ten_toDigits

theorem is_digit_of_mem_of_nat {n : Nat} {c : Char} (h : c ∈ ofNat n) : c.isDigit = true :=
  Nat.isDigit_of_mem_toDigits (by decide) (by decide) h

theorem of_nat_ne_nil (n : Nat) : ofNat n ≠ [] := Nat.toDigits_ne_nil

end Text
end PostfixSheet
