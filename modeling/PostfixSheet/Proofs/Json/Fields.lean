import PostfixSheet.Json.Value
import Mathlib.Data.List.Nodup

/-!
# Fields that are put over others

Putting a field changes the value under one name and leaves the names distinct. So when fields are
put over others one after the other, each of them has its value in the end, and the names that are
not among them keep the values that they had.
-/

namespace PostfixSheet.Json

variable {fields others : Fields} {key name : Signs} {value : Json}

theorem nodup_merge (distinct : (fields.map Prod.fst).Nodup) (others : Fields) :
    ((fields.merge others).map Prod.fst).Nodup := by
  induction others generalizing fields with
  | nil => exact distinct
  | cons other others induction => exact induction (nodup_put distinct other.1 other.2)

theorem get_eq_none (absent : name ∉ fields.map Prod.fst) : fields.get? name = none := by
  rw [Fields.get?, List.lookup_eq_none_iff]
  intro field member
  rw [bne_iff_ne]
  rintro rfl
  exact absent (List.mem_map_of_mem member)

theorem get_of_mem (distinct : (fields.map Prod.fst).Nodup) (member : (name, value) ∈ fields) :
    fields.get? name = some value := by
  obtain ⟨before, after, rfl⟩ := List.append_of_mem member
  rw [List.map_append, List.map_cons, List.nodup_append] at distinct
  have first : name ∉ before.map Prod.fst :=
    fun earlier => distinct.2.2 name earlier name (List.mem_cons_self ..) rfl
  have absent : before.lookup name = none := get_eq_none first
  rw [Fields.get?, List.lookup_append, absent, Option.none_or, List.lookup_cons_self]

/-- Of fields that are put over others the ones put later count. -/
theorem get_merge (distinct : (others.map Prod.fst).Nodup) :
    (fields.merge others).get? name = (others.get? name).or (fields.get? name) := by
  induction others generalizing fields with
  | nil => rfl
  | cons other others induction =>
      obtain ⟨key, value⟩ := other
      obtain ⟨new, further⟩ := List.nodup_cons.mp distinct
      have merged : fields.merge ((key, value) :: others) = (fields.put key value).merge others :=
        rfl
      rw [merged, induction further]
      by_cases same : name = key
      · subst same
        have first : Fields.get? ((name, value) :: others) name = some value :=
          List.lookup_cons_self
        rw [get_eq_none new, first, Fields.get_put_self]
        rfl
      · have later : Fields.get? ((key, value) :: others) name = Fields.get? others name := by
          rw [Fields.get?, List.lookup_cons, beq_eq_false_iff_ne.mpr same, Fields.get?]
        rw [later, Fields.get_put_of_ne same]

end PostfixSheet.Json
