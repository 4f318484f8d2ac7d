import PostfixSheet.Journal.Context
import PostfixSheet.Proofs.Json.Tokens
import Mathlib.Data.List.Forall2

/-!
# Written JSON reads back

What is read from the text of a value is the value again, down to every number and every string. Only
the fields of objects come back in the order of their keys, and in that order the same keys have the
same values.
-/

namespace PostfixSheet.Json

mutual

/-- A value that has a written form of its own: only texts for strings and keys, no key twice in one
object, no double that is not finite, and no integer that is too long to be read. -/
def WellFormed : Json → Prop
  | .null | .bool _ => True
  | .string signs => ∃ text : Text, signs = text
  | .integer n => (Text.ofNat n.natAbs).length ≤ Text.integerLimit
  | .float x => x.isFinite = true
  | .array items => WellFormedItems items
  | .object fields => (fields.map Prod.fst).Nodup ∧ WellFormedFields fields
  | .foreign _ _ => False

def WellFormedItems : List Json → Prop
  | [] => True
  | item :: items => WellFormed item ∧ WellFormedItems items

def WellFormedFields : List (Signs × Json) → Prop
  | [] => True
  | (key, value) :: fields =>
      (∃ text : Text, key = text) ∧ WellFormed value ∧ WellFormedFields fields

end

mutual

/-- Values that are equal when the order of fields does not count. -/
def Same : Json → Json → Prop
  | .null, .null => True
  | .bool a, .bool b => a = b
  | .integer a, .integer b => a = b
  | .float a, .float b => a = b
  | .string a, .string b => a = b
  | .array items, .array others => SameItems items others
  | .object fields, .object others => fields.length = others.length ∧ SameFields fields others
  | _, _ => False

def SameItems : List Json → List Json → Prop
  | [], [] => True
  | item :: items, other :: others => Same item other ∧ SameItems items others
  | _, _ => False

def SameFields : List (Signs × Json) → List (Signs × Json) → Prop
  | [], _ => True
  | (key, value) :: fields, others =>
      (∃ other, others.lookup key = some other ∧ Same value other) ∧ SameFields fields others

end

/-- Fields with one key and the same value. -/
def SameField (field other : Signs × Json) : Prop := field.1 = other.1 ∧ Same field.2 other.2

theorem same_items_of_each {items others : List Json} (each : List.Forall₂ Same items others) :
    SameItems items others := by
  induction each with
  | nil => trivial
  | cons first _ induction => exact ⟨first, induction⟩

theorem same_fields_of_each {fields others all : List (Signs × Json)}
    (each : List.Forall₂ SameField fields others) (within : others ⊆ all)
    (distinct : (all.map Prod.fst).Nodup) : SameFields fields all := by
  induction each with
  | nil => trivial
  | @cons field other fields others first _ induction =>
      obtain ⟨key, value⟩ := field
      obtain ⟨_, same⟩ := other
      obtain ⟨rfl, equal⟩ := first
      have found : all.lookup key = some same := get_of_mem distinct (within (by simp))
      exact ⟨⟨same, found, equal⟩, induction fun entry member => within (by simp [member])⟩

theorem keys_of_each {fields others : List (Signs × Json)}
    (each : List.Forall₂ SameField fields others) :
    others.map Prod.fst = fields.map Prod.fst := by
  induction each with
  | nil => rfl
  | cons first _ induction => rw [List.map_cons, List.map_cons, induction, first.1]

theorem Spells.deepen {deep deeper : Nat} (least : deep ≤ deeper) {parts : List (List Token)}
    {values : List Json} (each : List.Forall₂ (Spells deep) parts values) :
    List.Forall₂ (Spells deeper) parts values :=
  each.imp fun _ _ spells => spells.deeper least

theorem SpellsField.deepen {deep deeper : Nat} (least : deep ≤ deeper)
    {members : List (Signs × List Token)} {fields : Fields}
    (each : List.Forall₂ (SpellsField deep) members fields) :
    List.Forall₂ (SpellsField deeper) members fields :=
  each.imp fun _ _ ⟨key, named, called, spells⟩ => ⟨key, named, called, spells.deeper least⟩

mutual

/-- The tokens of a value spell it. -/
theorem spells_tokens (value : Json) (formed : WellFormed value) :
    ∃ read, Same value read ∧ Spells (Context.depth value) (tokens value) read := by
  cases value with
  | null => exact ⟨.null, trivial, spells_fixed (by decide) fun _ _ => rfl⟩
  | bool b =>
      refine ⟨.bool b, rfl, ?_⟩
      cases b with
      | true => exact spells_fixed (by decide) fun _ _ => rfl
      | false => exact spells_fixed (by decide) fun _ _ => rfl
  | integer n =>
      exact ⟨.integer n, rfl, spells_number (spelled_integer n) (of_number_integer formed)⟩
  | float x =>
      have finite := Binary64.magnitude_lt_of_is_finite formed
      have number : Token.ofFloat x = .number (layout.text x) := by
        rw [Token.ofFloat]
        simp only [if_neg (Nat.not_lt.mpr finite.le), if_neg finite.ne]
      rw [tokens, number]
      exact ⟨.float x, rfl, spells_number (spelled_float formed) (of_number_float formed)⟩
  | string signs =>
      obtain ⟨text, rfl⟩ := formed
      exact ⟨.string text, rfl, spells_string text⟩
  | array items =>
      obtain ⟨others, same, spells⟩ := spells_items items formed
      exact ⟨.array others, same_items_of_each same, spells_array spells⟩
  | object fields =>
      obtain ⟨distinct, each⟩ := formed
      obtain ⟨others, same, spells⟩ := spells_fields fields each
      -- the fields that are read stand in the order in which they are written
      obtain ⟨sorted, spelled, perm⟩ := List.perm_comp_forall₂ (List.mergeSort_perm _ _) spells
      have keys := keys_of_each same
      have apart : (sorted.map Prod.fst).Nodup := by
        rw [(perm.map Prod.fst).nodup_iff, keys]
        exact distinct
      refine ⟨.object sorted, ⟨?_, ?_⟩, spells_object spelled apart⟩
      · rw [perm.length_eq]
        exact same.length_eq
      · exact same_fields_of_each same (fun field member => perm.mem_iff.mpr member) apart
  | foreign => exact absurd formed id

theorem spells_items (items : List Json) (formed : WellFormedItems items) :
    ∃ read, List.Forall₂ Same items read ∧
      List.Forall₂ (Spells (Context.itemsDepth items)) (itemTokens items) read := by
  cases items with
  | nil => exact ⟨[], .nil, .nil⟩
  | cons item items =>
      obtain ⟨first, same, spells⟩ := spells_tokens item formed.1
      obtain ⟨others, sameOthers, spellsOthers⟩ := spells_items items formed.2
      exact ⟨first :: others, .cons same sameOthers,
        .cons (spells.deeper (le_max_left _ _)) (Spells.deepen (le_max_right _ _) spellsOthers)⟩

theorem spells_fields (fields : List (Signs × Json)) (formed : WellFormedFields fields) :
    ∃ read, List.Forall₂ SameField fields read ∧
      List.Forall₂ (SpellsField (Context.fieldsDepth fields)) (fieldTokens fields) read := by
  cases fields with
  | nil => exact ⟨[], .nil, .nil⟩
  | cons field fields =>
      obtain ⟨_, value⟩ := field
      obtain ⟨⟨key, rfl⟩, formedValue, formedFields⟩ := formed
      obtain ⟨first, same, spells⟩ := spells_tokens value formedValue
      obtain ⟨others, sameOthers, spellsOthers⟩ := spells_fields fields formedFields
      exact ⟨(key.signs, first) :: others, .cons ⟨rfl, same⟩ sameOthers,
        .cons ⟨key, rfl, rfl, spells.deeper (le_max_left _ _)⟩
          (SpellsField.deepen (le_max_right _ _) spellsOthers)⟩

end

/-- What is written is read as the same value, as deep as values can be read. -/
theorem of_text_write [Nesting] {value : Json} (formed : WellFormed value)
    (shallow : Context.depth value ≤ Nesting.limit) :
    ∃ read, Same value read ∧ ofText (write value) = .ok read := by
  obtain ⟨read, same, spells⟩ := spells_tokens value formed
  have made := spells.reads Nesting.limit [] [] (by simpa using shallow)
  rw [List.append_nil] at made
  refine ⟨read, same, ?_⟩
  rw [ofText, Token.scan, write, spells.scan_eq, made]
  rfl

theorem plain_write {value : Json} (formed : WellFormed value) :
    ∀ c ∈ write value, IsPlain c := by
  obtain ⟨_, _, spells⟩ := spells_tokens value formed
  exact spells.prints

/-- An object is written between braces. -/
theorem write_object (fields : Fields) :
    ∃ inner, write (.object fields) = '\x7b' :: inner ++ ['\x7d'] := by
  rw [write, tokens, List.flatMap_append, List.flatMap_cons]
  exact ⟨_, rfl⟩

end PostfixSheet.Json

namespace PostfixSheet.Context

open Json (WellFormed WellFormedItems WellFormedFields)

mutual

/-- Of a value that has a written form nothing is lost. -/
theorem recorded_of_well_formed (value : Json) (formed : WellFormed value) :
    recorded value = value := by
  cases value with
  | float x =>
      have finite := Binary64.magnitude_lt_of_is_finite formed
      have known : (Binary64.signedUnits? x).isSome = true := by
        rw [Binary64.signedUnits?, if_pos finite]
        rfl
      rw [recorded, if_pos known]
  | array items => rw [recorded, recorded_items_of_well_formed items formed]
  | object fields => rw [recorded, recorded_fields_of_well_formed fields formed.2]
  | _ => rfl

theorem recorded_items_of_well_formed (items : List Json) (formed : WellFormedItems items) :
    recordedItems items = items := by
  cases items with
  | nil => rfl
  | cons item items =>
      rw [recordedItems, recorded_of_well_formed item formed.1,
        recorded_items_of_well_formed items formed.2]

theorem recorded_fields_of_well_formed (fields : List (Signs × Json))
    (formed : WellFormedFields fields) : recordedFields fields = fields := by
  cases fields with
  | nil => rfl
  | cons field fields =>
      obtain ⟨key, value⟩ := field
      obtain ⟨_, formedValue, formedFields⟩ := formed
      rw [recordedFields, recorded_of_well_formed value formedValue,
        recorded_fields_of_well_formed fields formedFields]

end

mutual

/-- Nothing gets deeper or shallower by being recorded. -/
theorem depth_recorded (value : Json) : depth (recorded value) = depth value := by
  cases value with
  | float x =>
      rw [recorded]
      split
      · rfl
      · rfl
  | array items => rw [recorded, depth, depth, items_depth_recorded items]
  | object fields => rw [recorded, depth, depth, fields_depth_recorded fields]
  | _ => rfl

theorem items_depth_recorded (items : List Json) :
    itemsDepth (recordedItems items) = itemsDepth items := by
  cases items with
  | nil => rfl
  | cons item items =>
      rw [recordedItems, itemsDepth, itemsDepth, depth_recorded item, items_depth_recorded items]

theorem fields_depth_recorded (fields : List (Signs × Json)) :
    fieldsDepth (recordedFields fields) = fieldsDepth fields := by
  cases fields with
  | nil => rfl
  | cons field fields =>
      obtain ⟨key, value⟩ := field
      rw [recordedFields, fieldsDepth, fieldsDepth, depth_recorded value,
        fields_depth_recorded fields]

end

end PostfixSheet.Context
