import PostfixSheet.Text.Basic

/-!
Blank characters, the ones that carry no ink in any script, and the two operations that only know
the difference between blank and not blank: stripping the ends of a text and cutting it into words.
-/

namespace PostfixSheet.Text

/-- The blank characters: the controls that move the carriage or separate records, and every
character that Unicode counts as white space. -/
def isBlank (c : Char) : Bool :=
  let n := c.toNat
  (9 ≤ n && n ≤ 13) || (28 ≤ n && n ≤ 32) || n == 0x85 || n == 0xa0 || n == 0x1680
    || (0x2000 ≤ n && n ≤ 0x200a) || n == 0x2028 || n == 0x2029 || n == 0x202f || n == 0x205f
    || n == 0x3000

/-- The blank characters that separate no records. -/
def isSpace (c : Char) : Bool := isBlank c && !(28 ≤ c.toNat && c.toNat ≤ 31)

/-- A text without the characters at both ends that satisfy a condition. -/
def trim (cut : Char → Bool) (text : Text) : Text :=
  ((text.dropWhile cut).reverse.dropWhile cut).reverse

def strip (text : Text) : Text := trim isBlank text

/-- The longest pieces of a text that hold no blank character. -/
def words (text : Text) : List Text :=
  (splitWhere isBlank text).filter (!·.isEmpty)

theorem ne_nil_of_mem_words {text word : Text} (h : word ∈ words text) : word ≠ [] := by
  simp only [words, List.mem_filter] at h
  intro empty
  simp [empty] at h

end PostfixSheet.Text
