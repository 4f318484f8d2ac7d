import PostfixSheet.Token

/-!
The lexemes of infix expressions: unsigned numbers, cell labels, operators and parentheses. At every
place the longest lexeme that starts there is taken; spaces, tabs, form feeds and line ends between
lexemes are skipped. The scan stops at the first character where no lexeme starts.
-/

namespace PostfixSheet.Infix

/-- A place in a text: lines and columns are counted from one, and a line feed ends a line. -/
structure Spot where
  line : Nat
  column : Nat
deriving DecidableEq, Repr

namespace Spot

def start : Spot := ⟨1, 1⟩

def after (spot : Spot) (c : Char) : Spot :=
  if c = '\n' then ⟨spot.line + 1, 1⟩ else ⟨spot.line, spot.column + 1⟩

end Spot

inductive Lexeme
  | number (literal : Text)
  | label (text : Text)
  | operator (op : Operator)
  | opening
  | closing
deriving DecidableEq, Repr

namespace Lexeme

open Numeral (leadingDigits leadingExponent)

def text : Lexeme → Text
  | .number literal => literal
  | .label text => text
  | .operator op => op.text
  | .opening => ['(']
  | .closing => [')']

def className : Lexeme → Text
  | .number _ => "NUMBER".toList
  | .label _ => "CELL_REF".toList
  | .operator .plus => "PLUS".toList
  | .operator .minus => "MINUS".toList
  | .operator .times => "STAR".toList
  | .operator .over => "SLASH".toList
  | .opening => "LPAR".toList
  | .closing => "RPAR".toList

/-- The longest number at the start of a text: digits with at most one point before, among or after
them, and a power of ten. -/
def leadingNumber? (text : Text) : Option Text :=
  let whole := leadingDigits text
  let rest := text.drop whole.length
  match rest with
  | '.' :: afterPoint =>
      let fraction := leadingDigits afterPoint
      if whole.isEmpty && fraction.isEmpty then none
      else some (whole ++ '.' :: fraction ++ leadingExponent (afterPoint.drop fraction.length))
  | _ => if whole.isEmpty then none else some (whole ++ leadingExponent rest)

/-- The longest label at the start of a text: letters and then digits, at least one of each. -/
def leadingLabel? (text : Text) : Option Text :=
  let letters := text.takeWhile Char.isAlpha
  let digits := leadingDigits (text.drop letters.length)
  if letters.isEmpty || digits.isEmpty then none else some (letters ++ digits)

/-- The longest lexeme at the start of a text. No two classes share a first character. -/
def first? (text : Text) : Option Lexeme :=
  match text with
  | '(' :: _ => some .opening
  | ')' :: _ => some .closing
  | [] => none
  | c :: _ =>
      match Operator.ofText? [c] with
      | some op => some (.operator op)
      | none =>
          if c.isAlpha then (leadingLabel? text).map .label else (leadingNumber? text).map .number

end Lexeme

structure Placed where
  lexeme : Lexeme
  spot : Spot
deriving DecidableEq, Repr

/-- The lexemes of a text, and the character where the scan had to stop, if it did not reach the
end. -/
structure Scan where
  lexemes : List Placed
  stop : Option (Char × Spot)
deriving DecidableEq, Repr

def isSpace (c : Char) : Bool := c == ' ' || c == '\t' || c == '\x0c' || c == '\r' || c == '\n'

/-- Scans a text whose first `skip` characters belong to a lexeme already taken. -/
def scanFrom : (skip : Nat) → Spot → Text → Scan
  | _, _, [] => ⟨[], none⟩
  | skip + 1, spot, c :: rest => scanFrom skip (spot.after c) rest
  | 0, spot, c :: rest =>
      if isSpace c then scanFrom 0 (spot.after c) rest
      else match Lexeme.first? (c :: rest) with
        | none => ⟨[], some (c, spot)⟩
        | some lexeme =>
            let scan := scanFrom (lexeme.text.length - 1) (spot.after c) rest
            ⟨⟨lexeme, spot⟩ :: scan.lexemes, scan.stop⟩

def scan (text : Text) : Scan := scanFrom 0 Spot.start text

end PostfixSheet.Infix
