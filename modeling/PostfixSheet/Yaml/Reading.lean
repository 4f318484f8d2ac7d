import PostfixSheet.Yaml.Key
import PostfixSheet.Yaml.Node

/-!
Reading YAML: the value of the only document that a text holds. A text without any content stands
for nothing. Mappings become objects whose fields are named for their keys. Of several scalars
without a value the one that lies least deep counts, and of those the first.
-/

namespace PostfixSheet.Yaml

/-- What is read from a node, or a fault in it and how deep it lies. -/
abbrev Outcome (α : Type) := Except (Nat × Fault) α

def Outcome.both (make : α → β → γ) : Outcome α → Outcome β → Outcome γ
  | .ok a, .ok b => .ok (make a b)
  | .ok _, .error fault | .error fault, .ok _ => .error fault
  | .error fault, .error other => .error (if other.1 < fault.1 then other else fault)

namespace Node

def faultDepth (depth : Nat) (tag : Tag) : Nat :=
  if tag = .sequence ∨ tag = .mapping then depth + 1 else depth

/-- The key that a node at a depth stands for. An equals sign, which is no value, may be one. -/
def keyAt (depth : Nat) : Node → Outcome Scalar
  | .scalar .value signs => .ok (.text signs)
  | .scalar tag signs => (Scalar.ofSigns tag signs).mapError (depth, ·)
  | _ => .error (depth, .malformed)

mutual

def valueAt (depth : Nat) : Node → Outcome Json
  | .scalar tag signs => match Scalar.ofSigns tag signs with
      | .ok read => .ok read.json
      | .error fault => .error (faultDepth depth tag, fault)
  | .sequence tag items =>
      if tag = .sequence then (valuesAt (depth + 1) items).map .array
      else .error (faultDepth depth tag, .malformed)
  | .mapping tag pairs =>
      if tag = .mapping then
        (entriesAt (depth + 1) pairs).map fun entries =>
          .object (Entries.fields (entries.foldl (fun all (key, value) => all.put key value) []))
      else .error (faultDepth depth tag, .malformed)

def valuesAt (depth : Nat) : List Node → Outcome (List Json)
  | [] => .ok []
  | node :: nodes => Outcome.both List.cons (node.valueAt depth) (valuesAt depth nodes)

def entriesAt (depth : Nat) : List (Node × Node) → Outcome (List (Scalar × Json))
  | [] => .ok []
  | (key, node) :: pairs =>
      Outcome.both List.cons (Outcome.both Prod.mk (key.keyAt depth) (node.valueAt depth))
        (entriesAt depth pairs)

end

def value (node : Node) : Except Fault Json := (node.valueAt 0).mapError (·.2)

end Node

def ofText (text : Text) : Except Fault Json := do
  let tokens ← Token.scan text
  let node ← orMalformed (Node.ofTokens tokens)
  node.value

end PostfixSheet.Yaml
