import PostfixSheet.Decimal.Binary64
import PostfixSheet.Json.Value

/-!
The context of an event, and what of it goes into a journal. A journal takes any values, but not at
any depth, and of doubles only the finite ones: null is recorded in the place of the others.
-/

namespace PostfixSheet.Context

mutual

/-- How many values lie one inside the other at the deepest place of a value, itself included. -/
def depth : Json → Nat
  | .array items => itemsDepth items + 1
  | .object fields => fieldsDepth fields + 1
  | _ => 1

def itemsDepth : List Json → Nat
  | [] => 0
  | item :: items => max (depth item) (itemsDepth items)

def fieldsDepth : List (Signs × Json) → Nat
  | [] => 0
  | (_, value) :: fields => max (depth value) (fieldsDepth fields)

end

mutual

def recorded : Json → Json
  | .float x => if (Binary64.signedUnits? x).isSome then .float x else .null
  | .array items => .array (recordedItems items)
  | .object fields => .object (recordedFields fields)
  | value => value

def recordedItems : List Json → List Json
  | [] => []
  | item :: items => recorded item :: recordedItems items

def recordedFields : List (Signs × Json) → List (Signs × Json)
  | [] => []
  | (key, value) :: fields => (key, recorded value) :: recordedFields fields

end

/-- The greatest depth that the fields of a context may have where it is recorded. -/
def depthLimit : Nat := 255

/-- What of a context is recorded; nothing if it is too deep. -/
def record? (context : Json.Fields) : Option Json.Fields :=
  if depthLimit < fieldsDepth context then none else some (recordedFields context)

end PostfixSheet.Context
