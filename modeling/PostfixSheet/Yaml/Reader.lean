import PostfixSheet.Yaml.Reading

/-!
Readers of YAML. What a document says is up to a reader, of which nothing more is known than that it
gives no two fields of a mapping one name. The usual reader covers most of YAML, but it knows nothing
of binary data, of sets and of mappings in order, reads only ASCII digits where a tag says that a
text is a number, and follows a document to any depth.
-/

namespace PostfixSheet.Yaml

/-- A way to read a text with line ends of one kind. -/
class Reader where
  read : Text → Except Fault Json
  distinct : ∀ {text : Text} {fields : Json.Fields}, read text = .ok (.object fields) →
    (fields.map Prod.fst).Nodup

theorem nodup_fields (entries : Entries) : (entries.fields.map Prod.fst).Nodup := by
  have kept : ∀ fields : Json.Fields, (fields.map Prod.fst).Nodup →
      ((entries.foldl (fun fields entry => fields.put entry.1.name entry.2) fields).map
        Prod.fst).Nodup := by
    induction entries with
    | nil => exact fun _ distinct => distinct
    | cons entry entries induction =>
        exact fun _ distinct => induction _ (Json.nodup_put distinct entry.1.name entry.2)
  exact kept [] List.nodup_nil

theorem nodup_of_value_at {node : Node} {depth : Nat} {fields : Json.Fields}
    (read : node.valueAt depth = .ok (.object fields)) : (fields.map Prod.fst).Nodup := by
  cases node with
  | scalar tag signs =>
      rw [Node.valueAt] at read
      cases found : Scalar.ofSigns tag signs with
      | error fault =>
          rw [found] at read
          cases read
      | ok scalar =>
          rw [found] at read
          cases scalar <;> cases read
  | sequence tag items =>
      rw [Node.valueAt] at read
      split at read
      · cases found : Node.valuesAt (depth + 1) items <;> rw [found] at read <;> cases read
      · cases read
  | mapping tag pairs =>
      rw [Node.valueAt] at read
      split at read
      · cases found : Node.entriesAt (depth + 1) pairs with
        | error fault =>
            rw [found] at read
            cases read
        | ok entries =>
            rw [found] at read
            cases read
            exact nodup_fields _
      · cases read

theorem nodup_of_text {text : Text} {fields : Json.Fields}
    (read : ofText text = .ok (.object fields)) : (fields.map Prod.fst).Nodup := by
  change (Token.scan text >>= fun tokens => orMalformed (Node.ofTokens tokens) >>= Node.value) = _
    at read
  cases scanned : Token.scan text with
  | error fault =>
      rw [scanned] at read
      cases read
  | ok tokens =>
      rw [scanned] at read
      change (orMalformed (Node.ofTokens tokens) >>= Node.value) = _ at read
      cases made : Node.ofTokens tokens with
      | none =>
          rw [made] at read
          cases read
      | some node =>
          rw [made] at read
          change (node.valueAt 0).mapError _ = _ at read
          cases found : node.valueAt 0 with
          | error fault =>
              rw [found] at read
              cases read
          | ok value =>
              rw [found] at read
              cases read
              exact nodup_of_value_at found

instance (priority := low) Reader.usual : Reader := ⟨ofText, nodup_of_text⟩

end PostfixSheet.Yaml
