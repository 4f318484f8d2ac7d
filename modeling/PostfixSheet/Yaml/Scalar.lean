import PostfixSheet.Json.Value
import PostfixSheet.Yaml.Number

/-!
The values of scalars. A tag says what kind of value a text stands for; the text then has to have
one.
-/

namespace PostfixSheet.Yaml

inductive Scalar
  | null
  | bool (value : Bool)
  | integer (value : Int)
  | float (value : Float)
  | text (signs : Signs)
  | time (stamp : Timestamp)

namespace Scalar

def truth (text : Text) : Except Fault Bool :=
  let word := text.map Char.toLower
  match Tag.truths.lookup word with
  | some value => .ok value
  | none => .error (.noTruth word)

/-- The value of kind `tag` that a string stands for. Only a text may have halves of characters, and
kinds that have no scalars stand for none. -/
def ofSigns (tag : Tag) (signs : Signs) : Except Fault Scalar :=
  let text := signs.shown
  match tag with
  | .null => .ok .null
  | .bool => (truth text).map .bool
  | .integer => (Number.integer text).map .integer
  | .float => (Number.double text).map .float
  | .timestamp => (Timestamp.ofText text).map .time
  | .text => .ok (.text signs)
  | .merge | .value | .sequence | .mapping | .other => .error .malformed

def json : Scalar → Json
  | .null => .null
  | .bool b => .bool b
  | .integer n => .integer n
  | .float x => .float x
  | .text signs => .string signs
  | .time stamp => .foreign stamp.text false

end Scalar
end PostfixSheet.Yaml
