import PostfixSheet.Calendar
import PostfixSheet.Yaml.Fault

/-!
Dates and times in YAML. A date stands alone, or a time of day follows it after a letter or blanks;
a time may have a fraction of a second, and a difference from the time of the world.
-/

namespace PostfixSheet.Yaml

/-- A time of day, and the difference from the time of the world in minutes, if it is known. -/
structure Clock where
  hour : Nat
  minute : Nat
  second : Nat
  micros : Nat
  offset : Option Int
deriving DecidableEq, Repr

structure Timestamp where
  day : Day
  clock : Option Clock
deriving DecidableEq, Repr

namespace Timestamp

def number? (least most : Nat) (text : Text) : Option (Nat × Text) :=
  let digits := text.takeWhile Char.isDigit
  if least ≤ digits.length ∧ digits.length ≤ most then
    some (Text.decimal digits, text.drop digits.length)
  else none

def after? (mark : Char) : Text → Option Text
  | c :: rest => if c = mark then some rest else none
  | [] => none

def isBlank (c : Char) : Bool := c == ' ' || c == '\t'

def afterDate? : Text → Option Text
  | 'T' :: rest | 't' :: rest => some rest
  | c :: rest => if isBlank c then some (rest.dropWhile isBlank) else none
  | [] => none

def microsOf (digits : Text) : Nat :=
  Text.decimal (digits.take 6 ++ List.replicate (6 - digits.length) '0')

def fraction : Text → Nat × Text
  | '.' :: rest => (microsOf (rest.takeWhile Char.isDigit), rest.dropWhile Char.isDigit)
  | rest => (0, rest)

def minutes? (text : Text) : Option Nat := do
  let (hours, rest) ← number? 1 2 text
  match rest with
  | [] => some (60 * hours)
  | ':' :: rest => match ← number? 2 2 rest with
      | (minutes, []) => some (60 * hours + minutes)
      | _ => none
  | _ => none

def offset? (text : Text) : Option (Option Int) :=
  match text with
  | [] => some none
  | text => match text.dropWhile isBlank with
      | ['Z'] => some (some 0)
      | '+' :: rest => (minutes? rest).map fun n => some (n : Int)
      | '-' :: rest => (minutes? rest).map fun n => some (-(n : Int))
      | _ => none

def clock? (text : Text) : Option Clock := do
  let (hour, rest) ← number? 1 2 text
  let (minute, rest) ← (after? ':' rest).bind (number? 2 2)
  let (second, rest) ← (after? ':' rest).bind (number? 2 2)
  let (micros, rest) := fraction rest
  let offset ← offset? rest
  some { hour, minute, second, micros, offset }

/-- Reads a whole text by its form alone; the numbers may still be out of range. -/
def ofForm? (text : Text) : Option Timestamp := do
  let (year, rest) ← number? 4 4 text
  let (month, rest) ← (after? '-' rest).bind (number? 1 2)
  let (day, rest) ← (after? '-' rest).bind (number? 1 2)
  if rest.isEmpty then some ⟨⟨year, month, day⟩, none⟩
  else
    let clock ← (afterDate? rest).bind clock?
    some ⟨⟨year, month, day⟩, some clock⟩

/-- Whether a text is a date or a time unless it is said to be something else. A date that stands
alone has two digits for the month and the day. -/
def isForm (text : Text) : Bool :=
  match ofForm? text with
  | some stamp => stamp.clock.isSome || text.length == 10
  | none => false

def dayFault? (day : Day) : Option TimeFault :=
  if day.year = 0 then some .year
  else if day.month = 0 ∨ 12 < day.month then some .month
  else if day.day = 0 ∨ Day.daysOfMonth day.year day.month < day.day then some .day
  else none

def clockFault? (clock : Clock) : Option TimeFault :=
  if 23 < clock.hour then some .hour
  else if 59 < clock.minute then some .minute
  else if 59 < clock.second then some .second
  else none

def offsetFault? (clock : Clock) : Option TimeFault :=
  clock.offset.bind fun minutes =>
    if 24 * 60 ≤ minutes.natAbs then some (.offset minutes) else none

def fault? (stamp : Timestamp) : Option TimeFault :=
  (stamp.clock.bind offsetFault?).or ((dayFault? stamp.day).or (stamp.clock.bind clockFault?))

def ofText (text : Text) : Except Fault Timestamp :=
  match ofForm? text with
  | none => .error .noTime
  | some stamp => match stamp.fault? with
      | some fault => .error (.badTime fault)
      | none => .ok stamp

def offsetText (minutes : Int) : Text :=
  (if minutes < 0 then '-' else '+') :: Text.digits 2 (minutes.natAbs / 60) ++ [':']
    ++ Text.digits 2 (minutes.natAbs % 60)

def clockText (clock : Clock) : Text :=
  Text.digits 2 clock.hour ++ [':'] ++ Text.digits 2 clock.minute ++ [':']
    ++ Text.digits 2 clock.second
    ++ (if clock.micros = 0 then [] else '.' :: Text.digits 6 clock.micros)
    ++ (match clock.offset with
      | some minutes => offsetText minutes
      | none => [])

def text (stamp : Timestamp) : Text :=
  stamp.day.text ++ match stamp.clock with
    | some clock => ' ' :: clockText clock
    | none => []

/-- The moment of a time on a day in millionths of a second, without its difference from the time of
the world where that is known. -/
def micros (day : Day) (clock : Clock) : Int :=
  let minutes : Int := 60 * (24 * day.count + clock.hour) + clock.minute - clock.offset.getD 0
  1000000 * (60 * minutes + clock.second) + clock.micros

end Timestamp
end PostfixSheet.Yaml
