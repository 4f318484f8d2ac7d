import PostfixSheet.Text.Upper

/-!
Columns and their letters. Columns are numbered from zero and named `A`, …, `Z`, `AA`, `AB`, …: the
letters are the digits 1 to 26 of a place system with base 26 that has no zero, so every non-empty
row of letters names exactly one column.
-/

namespace PostfixSheet.Column

def letter (n : Nat) : Char := Char.ofNat (65 + n)

def letters (column : Nat) : Text :=
  if column < 26 then [letter column]
  else letters (column / 26 - 1) ++ [letter (column % 26)]
termination_by column

/-- What one more letter makes of the number that the letters before it stand for. -/
def appendLetter (sofar : Int) (c : Char) : Int := 26 * sofar + ((c.toNat : Int) - 64)

/-- The column that letters name. The text is put in upper case first and then taken as it is, so
characters that are no letters count by their distance from `A`, and the empty text gives -1. -/
def ofLetters (text : Text) : Int := (Text.upper text).foldl appendLetter 0 - 1

structure Negative where
  index : Int

def Negative.message (bad : Negative) : Text :=
  "Column index must be non-negative, got ".toList ++ Text.ofInt bad.index

def lettersOf : Int → Except Negative Text
  | .ofNat column => .ok (letters column)
  | .negSucc n => .error ⟨.negSucc n⟩

example : letters 0 = ['A'] ∧ letters 25 = ['Z'] ∧ letters 26 = ['A', 'A'] := by decide +kernel
example : ofLetters "xfd".toList = 16383 := by decide +kernel

end PostfixSheet.Column
