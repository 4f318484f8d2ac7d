import PostfixSheet.Text.Sign

/-!
JSON values. A number written without a point and without a power of ten is an integer of any size,
every other number a double. The strings of a value are made of signs and need not be texts. The
fields of an object keep the order in which they were first put. A value from elsewhere that is of no
such kind, like a date, counts by its text.
-/

namespace PostfixSheet

inductive Json
  | null
  | bool (value : Bool)
  | integer (value : Int)
  | float (value : Float)
  | string (signs : Signs)
  | array (items : List Json)
  | object (fields : List (Signs × Json))
  /-- a value that JSON has no form for, which is written as this text and may be empty -/
  | foreign (text : Text) (isEmpty : Bool)

namespace Json

abbrev Fields := List (Signs × Json)

def Fields.get? (fields : Fields) (key : Signs) : Option Json := fields.lookup key

/-- The fields with another value under a key. A new key goes to the end. -/
def Fields.put : Fields → Signs → Json → Fields
  | [], key, value => [(key, value)]
  | (k, v) :: rest, key, value =>
      if k = key then (k, value) :: rest else (k, v) :: Fields.put rest key value

/-- The fields with those of a second object put over them, one after the other. -/
def Fields.merge (fields others : Fields) : Fields :=
  others.foldl (fun fields (key, value) => fields.put key value) fields

/-- The kinds of JSON values. A foreign value is of the kind that it is written as. -/
inductive Kind
  | null
  | bool
  | integer
  | float
  | string
  | array
  | object
deriving DecidableEq, Repr

def kind : Json → Kind
  | .null => .null
  | .bool _ => .bool
  | .integer _ => .integer
  | .float _ => .float
  | .string _ => .string
  | .array _ => .array
  | .object _ => .object
  | .foreign _ _ => .string

/-- Whether a value counts as something: null, false, zero and everything empty do not. -/
def isSomething : Json → Bool
  | .null => false
  | .bool b => b
  | .integer n => n != 0
  | .float x => !(x == 0)
  | .string signs => !signs.isEmpty
  | .array items => !items.isEmpty
  | .object fields => !fields.isEmpty
  | .foreign _ isEmpty => !isEmpty

theorem Fields.get_put_self (fields : Fields) (key : Signs) (value : Json) :
    (fields.put key value).get? key = some value := by
  induction fields with
  | nil => simp [Fields.put, Fields.get?]
  | cons field fields induction =>
    obtain ⟨k, v⟩ := field
    by_cases same : k = key
    · simp [Fields.put, Fields.get?, same]
    · have other : (key == k) = false := by simpa using fun h => same h.symm
      simpa [Fields.put, Fields.get?, same, List.lookup_cons, other] using induction

theorem Fields.get_put_of_ne {fields : Fields} {key other : Signs} {value : Json}
    (differs : other ≠ key) : (fields.put key value).get? other = fields.get? other := by
  induction fields with
  | nil =>
    have miss : (other == key) = false := by simpa using differs
    simp [Fields.put, Fields.get?, List.lookup_cons, miss]
  | cons field fields induction =>
    obtain ⟨k, v⟩ := field
    by_cases same : k = key
    · have miss : (other == k) = false := by simpa [same] using differs
      have missKey : (other == key) = false := by simpa using differs
      simp [Fields.put, Fields.get?, same, List.lookup_cons, missKey]
    · simp only [Fields.put, same, if_false, Fields.get?, List.lookup_cons] at induction ⊢
      split <;> simp_all

theorem put_new {fields : Fields} {key : Signs} {value : Json}
    (new : key ∉ fields.map Prod.fst) : fields.put key value = fields ++ [(key, value)] := by
  induction fields with
  | nil => rfl
  | cons field fields induction =>
      obtain ⟨k, v⟩ := field
      have differs : k ≠ key := by
        rintro rfl
        exact new (by simp)
      have further : key ∉ fields.map Prod.fst := fun member => new (by simp [member])
      rw [Fields.put, if_neg differs, induction further, List.cons_append]

theorem names_put_old {fields : Fields} {key : Signs} {value : Json}
    (old : key ∈ fields.map Prod.fst) :
    (fields.put key value).map Prod.fst = fields.map Prod.fst := by
  induction fields with
  | nil => cases old
  | cons field fields induction =>
      obtain ⟨k, v⟩ := field
      rw [Fields.put]
      split
      · rfl
      · next differs =>
        have further : key ∈ fields.map Prod.fst := by
          rcases List.mem_cons.mp old with same | further
          · exact absurd same.symm differs
          · exact further
        rw [List.map_cons, List.map_cons, induction further]

theorem nodup_put {fields : Fields} (distinct : (fields.map Prod.fst).Nodup) (key : Signs)
    (value : Json) :
    ((fields.put key value).map Prod.fst).Nodup := by
  by_cases old : key ∈ fields.map Prod.fst
  · rwa [names_put_old old]
  · rw [put_new old, List.map_append, List.map_singleton]
    refine List.nodup_append.mpr ⟨distinct, by simp, ?_⟩
    rintro name member _ last rfl
    rw [List.mem_singleton.mp last] at member
    exact old member

end Json
end PostfixSheet
