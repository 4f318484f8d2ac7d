import PostfixSheet.Text.Basic

/-!
Why YAML text has no value. A text may be no document at all; or it is one, but a scalar or an
escape in it stands for a value that cannot be formed.
-/

namespace PostfixSheet.Yaml

/-- What is wrong with a date or a time of day: the part that is out of its range. -/
inductive TimeFault
  | year
  | month
  | day
  | hour
  | minute
  | second
  /-- the difference from the time of the world is a day or more; it is given in minutes -/
  | offset (minutes : Int)
deriving DecidableEq, Repr

inductive Fault
  /-- it cannot be read as a document -/
  | malformed
  | noInteger (base : Nat) (text : Text)
  | integerTooLong (digits : Nat)
  | noDouble (text : Text)
  | tooManyGroups
  /-- there is no text where a number has to be -/
  | emptyNumber
  | noTruth (text : Text)
  | noTime
  | badTime (fault : TimeFault)
  | noCharacter (code : Nat)
  /-- it is nested deeper than it can be read -/
  | tooDeep
deriving DecidableEq, Repr

def orMalformed : Option α → Except Fault α
  | some value => .ok value
  | none => .error .malformed

end PostfixSheet.Yaml
