import PostfixSheet.Text.Sign
import PostfixSheet.Yaml.Character
import PostfixSheet.Yaml.Fault

/-!
Quoted scalars. Between single quotes only the quote itself is written in another way, by two of
them; between double quotes a backslash starts an escape, which may also stand for half a character.
In both a line break folds, and the blanks around it are dropped.
-/

namespace PostfixSheet.Yaml

inductive Quote
  | single
  | double
deriving DecidableEq, Repr

namespace Quote

def mark : Quote → Char
  | .single => '\x27'
  | .double => '\x22'

inductive Position
  | inText
  /-- after blanks, the last one first, which count unless a line break follows -/
  | afterGap (gap : Text)
  /-- after line breaks, the last one first; without a first one when that was escaped -/
  | afterBreak (first : Option Char) (more : Text) (atStart : Bool)
  | afterBackslash
  | inEscape (left value : Nat)
  /-- after a mark that ends the scalar, unless a second one follows at once -/
  | afterMark
  | closed

def escaped? (c : Char) : Option Char :=
  [('0', '\x00'), ('a', '\x07'), ('b', '\x08'), ('t', '\t'), ('\t', '\t'), ('n', '\n'),
    ('v', '\x0b'), ('f', '\x0c'), ('r', '\r'), ('e', '\x1b'), (' ', ' '), ('\x22', '\x22'),
    ('/', '/'), ('\\', '\\'), ('N', '\x85'), ('_', '\xa0'), ('L', '\u2028'),
    ('P', '\u2029')].lookup c

def escapeWidth? (c : Char) : Option Nat := [('x', 2), ('u', 4), ('U', 8)].lookup c

/-- The value so far, the last sign first, once a pending run of blanks or breaks is over. -/
def settled (value : Signs) : Position → Signs
  | .afterGap gap => gap.signs ++ value
  | .afterBreak (some first) more _ => Text.signs (folded first more.reverse).reverse ++ value
  | .afterBreak none more _ => Text.signs (more.map plainBreak) ++ value
  | _ => value

def readText (quote : Quote) (value : Signs) (c : Char) : Position × Signs :=
  if c = quote.mark then
    (match quote with
      | .single => .afterMark
      | .double => .closed, value)
  else if quote = .double ∧ c = '\\' then (.afterBackslash, value)
  else if isGap c then (.afterGap [c], value)
  else if isBreak c then (.afterBreak (some c) [] true, value)
  else (.inText, .char c :: value)

def ofCode (code : Nat) : Except Fault Sign :=
  if code < 0x110000 then .ok (Sign.ofCode code) else .error (.noCharacter code)

def step (quote : Quote) (position : Position) (value : Signs) (c : Char) :
    Except Fault (Position × Signs) :=
  match position with
  | .afterGap gap =>
      if isGap c then .ok (.afterGap (c :: gap), value)
      else if isBreak c then .ok (.afterBreak (some c) [] true, value)
      else .ok (quote.readText (settled value position) c)
  | .afterBreak first more _ =>
      if isGap c then .ok (.afterBreak first more false, value)
      else if isBreak c then .ok (.afterBreak first (c :: more) true, value)
      else .ok (quote.readText (settled value position) c)
  | .afterBackslash =>
      if isBreak c then .ok (.afterBreak none [] true, value)
      else match escaped? c, escapeWidth? c with
        | some meant, _ => .ok (.inText, .char meant :: value)
        | none, some width => .ok (.inEscape (width - 1) 0, value)
        | none, none => .error .malformed
  | .inEscape left sofar => match Text.hexDigit? c, left with
      | none, _ => .error .malformed
      | some digit, left + 1 => .ok (.inEscape left (16 * sofar + digit), value)
      | some digit, 0 => (ofCode (16 * sofar + digit)).map fun sign => (.inText, sign :: value)
  | .afterMark => .ok (.inText, .char c :: value)
  | .inText => .ok (quote.readText value c)
  | .closed => .error .malformed

/-- Reads a scalar from a position on: its value, and the text after it. A line that starts or ends
a document cannot stand inside. -/
def readFrom (quote : Quote) : Position → Signs → Text → Except Fault (Signs × Text)
  | .closed, value, rest => .ok (value.reverse, rest)
  | .afterMark, value, [] => .ok (value.reverse, [])
  | _, _, [] => .error .malformed
  | position, value, c :: rest =>
      let ends := match position with
        | .afterMark => c != quote.mark
        | _ => false
      let startsLine := match position with
        | .afterBreak _ _ true => true
        | _ => false
      if ends then .ok (value.reverse, c :: rest)
      else if startsLine && isDocumentMark (c :: rest) then .error .malformed
      else match quote.step position value c with
        | .ok (position, value) => quote.readFrom position value rest
        | .error fault => .error fault

def read (quote : Quote) (text : Text) : Except Fault (Signs × Text) :=
  quote.readFrom .inText [] text

end Quote
end PostfixSheet.Yaml
