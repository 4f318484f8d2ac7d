import PostfixSheet.Yaml.Timestamp

/-!
The kinds of nodes. A node says its kind by a tag, or a plain scalar shows it by its spelling: some
spellings stand for nothing, for a truth value, for a number or for a date, and all else is text.
Integers are written in four bases, in groups of sixty too, and underscores may part their digits. A
double always has a point.
-/

namespace PostfixSheet.Yaml

inductive Tag
  | null
  | bool
  | integer
  | float
  | timestamp
  | text
  /-- the key under which other mappings are merged into a mapping -/
  | merge
  /-- a spelling that is kept for other uses -/
  | value
  | sequence
  | mapping
  | other
deriving DecidableEq, Repr

namespace Tag

def stem : Text := "tag:yaml.org,2002:".toList

def names : List (Text × Tag) :=
  [("null".toList, .null), ("bool".toList, .bool), ("int".toList, .integer),
    ("float".toList, .float), ("timestamp".toList, .timestamp), ("str".toList, .text),
    ("merge".toList, .merge), ("value".toList, .value), ("seq".toList, .sequence),
    ("map".toList, .mapping)]

def ofText (tag : Text) : Tag :=
  if stem.isPrefixOf tag then (names.lookup (tag.drop stem.length)).getD .other else .other

/-- Whether a text is a word: in small letters, with a capital one at its start, or in capitals. -/
def isSpelling (text word : Text) : Bool :=
  text == word || text == word.map Char.toUpper
    || (text.head? == word.head?.map Char.toUpper && text.tail == word.tail)

def truths : List (Text × Bool) :=
  [("yes".toList, true), ("no".toList, false), ("true".toList, true), ("false".toList, false),
    ("on".toList, true), ("off".toList, false)]

def isNull (text : Text) : Bool :=
  text.isEmpty || text == ['~'] || isSpelling text "null".toList

def isTruth (text : Text) : Bool := truths.any fun (word, _) => isSpelling text word

def isRun (isDigit : Char → Bool) (text : Text) : Bool :=
  !text.isEmpty && text.all fun c => isDigit c || c == '_'

def isNumber (text : Text) : Bool := text.head?.any Char.isDigit && isRun Char.isDigit text

def isSixtieth (text : Text) : Bool :=
  match text with
  | [c] => c.isDigit
  | [c, d] => '0' ≤ c && c ≤ '5' && d.isDigit
  | _ => false

def isBinary (c : Char) : Bool := c == '0' || c == '1'

def isOctal (c : Char) : Bool := '0' ≤ c && c ≤ '7'

def isHexadecimal (c : Char) : Bool := (Text.hexDigit? c).isSome

def isSign (c : Char) : Bool := c == '-' || c == '+'

def unsigned : Text → Text
  | c :: rest => if isSign c then rest else c :: rest
  | [] => []

def isNatural (text : Text) : Bool :=
  match text with
  | '0' :: 'b' :: digits => isRun isBinary digits
  | '0' :: 'x' :: digits => isRun isHexadecimal digits
  | '0' :: digits => isRun isOctal ('0' :: digits)
  | text => match Text.splitWhere (· == ':') text with
      | first :: rest => isNumber first && rest.all isSixtieth
      | [] => false

def isInteger (text : Text) : Bool := isNatural (unsigned text)

def isPower : Text → Bool
  | [] => true
  | c :: sign :: digits =>
      (c == 'e' || c == 'E') && isSign sign && !digits.isEmpty && digits.all Char.isDigit
  | _ => false

/-- Whether a text is a double with a point and perhaps a power of ten. Before a point without
digits there is no sign. -/
def isDecimal (text : Text) : Bool :=
  let digits := unsigned text
  let whole := digits.takeWhile (· != '.')
  let fraction := (digits.drop (whole.length + 1)).takeWhile fun c => c.isDigit || c == '_'
  let power := digits.drop (whole.length + 1 + fraction.length)
  digits.contains '.' && isPower power
    && (if whole.isEmpty then isNumber fraction && digits.length == text.length else isNumber whole)

/-- Whether a text is a double in groups of sixty, of which the last has a point. -/
def isSixties (text : Text) : Bool :=
  let digits := unsigned text
  let whole := digits.takeWhile (· != '.')
  let fraction := digits.drop (whole.length + 1)
  match Text.splitWhere (· == ':') whole with
  | first :: rest =>
      digits.contains '.' && !rest.isEmpty && isNumber first && rest.all isSixtieth
        && fraction.all fun c => c.isDigit || c == '_'
  | [] => false

def isEndless (text : Text) : Bool :=
  match unsigned text with
  | '.' :: word => isSpelling word "inf".toList
  | _ => false

def isUndefined (text : Text) : Bool :=
  [".nan".toList, ".NaN".toList, ".NAN".toList].contains text

def isFloat (text : Text) : Bool :=
  isEndless text || isUndefined text || isDecimal text || isSixties text

def ofSpelling (text : Text) : Tag :=
  if isNull text then .null
  else if isTruth text then .bool
  else if isInteger text then .integer
  else if isFloat text then .float
  else if text == "<<".toList then .merge
  else if Timestamp.isForm text then .timestamp
  else if text == ['='] then .value
  else .text

end Tag
end PostfixSheet.Yaml
