import PostfixSheet.Decimal.Layout
import PostfixSheet.Yaml.Scalar

/-!
The keys of a mapping. Keys are told apart by their values and not by their spellings: a number and
a truth value count by their amount alone, so `true`, `1` and `1.0` are one key, while no text is
ever equal to a number; times are one key if they are the same moment. A mapping keeps the first
spelling of a key and the last value under it. Only when all of it is read are fields named for the
keys, and keys that differ may then share a name.
-/

namespace PostfixSheet.Yaml
namespace Scalar

/-- What a key is known by: keys with the same identity are one key. -/
inductive Identity
  | nothing
  | text (signs : Signs)
  /-- a finite amount, counted in smallest positive doubles -/
  | amount (units : Int)
  | endless (negative : Bool)
  /-- a double that is no number -/
  | undefined
  | day (day : Day)
  /-- a moment in the time of the world, or in a time that is not known -/
  | moment (isKnown : Bool) (micros : Int)
deriving DecidableEq, Repr

def floatIdentity (x : Float) : Identity :=
  match Binary64.signedUnits? x with
  | some units => .amount units
  | none =>
      if Binary64.magnitude x = Binary64.infinity then .endless (Binary64.negative x)
      else .undefined

def timeIdentity (stamp : Timestamp) : Identity :=
  match stamp.clock with
  | none => .day stamp.day
  | some clock => .moment clock.offset.isSome (Timestamp.micros stamp.day clock)

def identity : Scalar → Identity
  | .null => .nothing
  | .bool b => .amount (if b then Binary64.unitsPerOne else 0)
  | .integer n => .amount (n * Binary64.unitsPerOne)
  | .float x => floatIdentity x
  | .text signs => .text signs
  | .time stamp => timeIdentity stamp

def layout : Decimal.Layout := ⟨".0".toList, "inf".toList, "nan".toList⟩

def name : Scalar → Signs
  | .null => "None".toList
  | .bool true => "True".toList
  | .bool false => "False".toList
  | .integer n => Text.ofInt n
  | .float x => layout.text x
  | .text signs => signs
  | .time stamp => stamp.text

end Scalar

abbrev Entries := List (Scalar × Json)

namespace Entries

/-- The entries with another value under a key. A key that is there keeps its spelling and its
place. -/
def put : Entries → Scalar → Json → Entries
  | [], key, value => [(key, value)]
  | (k, v) :: rest, key, value =>
      if k.identity = key.identity then (k, value) :: rest else (k, v) :: put rest key value

def fields (entries : Entries) : Json.Fields :=
  entries.foldl (fun fields (key, value) => fields.put key.name value) []

end Entries
end PostfixSheet.Yaml
