import PostfixSheet.Json.Token

/-!
Reading JSON. The tokens are read one by one: what has been read so far is a value in the making,
and a token that cannot go on with it is refused. Of several fields with one key the last counts. Two
faults are of their own kind: an integer with more digits than can be turned into one, and a bracket
inside of more others than the call stack lets be read.
-/

namespace PostfixSheet.Json

inductive Fault
  | malformed
  | integerTooLong (digits : Nat)
  | tooDeep
deriving DecidableEq, Repr

/-- How many arrays and objects can be read one inside the other. -/
class Nesting where
  limit : Nat
  enough : 300 ≤ limit

/-- The usual stack of a thousand calls, less those above a reading. -/
instance (priority := low) Nesting.usual : Nesting := ⟨990, by decide⟩

def ofNumber (spelling : Text) : Except Fault Json :=
  let digits := match spelling with
    | '-' :: rest => rest
    | _ => spelling
  if digits.all Char.isDigit then
    if Text.integerLimit < digits.length then .error (.integerTooLong digits.length)
    else
      let n : Int := Text.decimal digits
      .ok (.integer (if digits.length < spelling.length then -n else n))
  else match Numeral.ofText? spelling with
    | some numeral => .ok (.float numeral.toFloat)
    | none => .error .malformed

/-- What a value in the making is part of: an array with some items, the last one first, or an
object with some fields that waits for the value of a key. -/
inductive Outer
  | array (items : List Json)
  | object (fields : Fields) (key : Signs)

/-- What has been read so far, innermost part first, and what may come next. -/
inductive Partial
  | wantsValue (outer : List Outer)
  | wantsKey (outer : List Outer) (fields : Fields)
  | wantsColon (outer : List Outer) (fields : Fields) (key : Signs)
  | complete (outer : List Outer) (value : Json)

namespace Partial

/-- What one more token makes of a value in the making, of which `limit` arrays and objects may be
open. -/
def read (limit : Nat) (p : Partial) (token : Token) : Except Fault Partial :=
  match p, token with
  | .wantsValue outer, .null => .ok (.complete outer .null)
  | .wantsValue outer, .bool b => .ok (.complete outer (.bool b))
  | .wantsValue outer, .notANumber => .ok (.complete outer (.float (0 / 0)))
  | .wantsValue outer, .infinity negative =>
      .ok (.complete outer (.float (Binary64.toFloat negative Binary64.infinity)))
  | .wantsValue outer, .number spelling => (ofNumber spelling).map (.complete outer ·)
  | .wantsValue outer, .string signs => .ok (.complete outer (.string signs))
  | .wantsValue outer, .openArray =>
      if outer.length < limit then .ok (.wantsValue (.array [] :: outer)) else .error .tooDeep
  | .wantsValue (.array [] :: outer), .closeArray => .ok (.complete outer (.array []))
  | .wantsValue outer, .openObject =>
      if outer.length < limit then .ok (.wantsKey outer []) else .error .tooDeep
  | .wantsKey outer [], .closeObject => .ok (.complete outer (.object []))
  | .wantsKey outer fields, .string key => .ok (.wantsColon outer fields key)
  | .wantsColon outer fields key, .colon => .ok (.wantsValue (.object fields key :: outer))
  | .complete (.array items :: outer) value, .comma =>
      .ok (.wantsValue (.array (value :: items) :: outer))
  | .complete (.array items :: outer) value, .closeArray =>
      .ok (.complete outer (.array (value :: items).reverse))
  | .complete (.object fields key :: outer) value, .comma =>
      .ok (.wantsKey outer (fields.put key value))
  | .complete (.object fields key :: outer) value, .closeObject =>
      .ok (.complete outer (.object (fields.put key value)))
  | _, _ => .error .malformed

end Partial

def readFrom (limit : Nat) : Partial → List Token → Except Fault Json
  | .complete [] value, [] => .ok value
  | _, [] => .error .malformed
  | p, token :: tokens => match p.read limit token with
      | .ok p => readFrom limit p tokens
      | .error fault => .error fault

def ofText [Nesting] (text : Text) : Except Fault Json :=
  readFrom Nesting.limit (.wantsValue []) (Token.scan text)

end PostfixSheet.Json
