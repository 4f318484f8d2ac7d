import PostfixSheet.Text.Basic

/-!
The characters of YAML text: line breaks, blanks, indicators, and what no text may hold.
-/

namespace PostfixSheet.Yaml

def isBreak (c : Char) : Bool := c == '\n' || c == '\x85' || c == '\u2028' || c == '\u2029'

/-- A line break as it counts in a value: a next-line character is one like any other. -/
def plainBreak (c : Char) : Char := if c = '\x85' then '\n' else c

def isGap (c : Char) : Bool := c == ' ' || c == '\t'

def standsAlone : Text → Bool
  | [] => true
  | c :: _ => isGap c || isBreak c

def isFlowIndicator (c : Char) : Bool :=
  c == ',' || c == '[' || c == ']' || c == '\x7b' || c == '\x7d'

/-- The characters that no plain scalar starts with, blanks and line breaks apart. -/
def indicators : Text :=
  ['-', '?', ':', ',', '[', ']', '\x7b', '\x7d', '#', '&', '*', '!', '|', '>', '\x27', '\x22', '%',
    '@', '\x60']

def isAllowed (c : Char) : Bool :=
  let n := c.toNat
  c == '\t' || c == '\n' || c == '\r' || (32 ≤ n && n < 127) || n == 0x85
    || (0xa0 ≤ n && n < 0xfffe) || 0x10000 ≤ n

def openingMark : Char := '\ufeff'

def startsWithThree (c : Char) : Text → Bool
  | x :: y :: z :: rest => x == c && y == c && z == c && standsAlone rest
  | _ => false

def isDocumentMark (line : Text) : Bool := startsWithThree '-' line || startsWithThree '.' line

/-- What a line break makes of a value, with the breaks of blank lines after it: a single break
becomes a space, and of several the first is dropped. A separator of lines or paragraphs is always
kept. -/
def folded (first : Char) (more : Text) : Text :=
  if plainBreak first = '\n' then (if more.isEmpty then [' '] else more.map plainBreak)
  else first :: more.map plainBreak

end PostfixSheet.Yaml
