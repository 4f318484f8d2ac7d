import PostfixSheet.Text.Basic

/-!
Cutting a line into fields at a separator of any length, and joining fields again. The separator is
found from the left and its occurrences do not overlap: with the separator `aa`, the text `aaa` has
the fields `""` and `a`.
-/

namespace PostfixSheet

/-- What stands between two fields of a line: any text but the empty one. -/
structure Separator where
  text : Text
  ne_nil : text ≠ []

namespace Separator

def ofText? (text : Text) : Option Separator :=
  if h : text ≠ [] then some ⟨text, h⟩ else none

def comma : Separator := ⟨[','], by decide⟩

instance : DecidableEq Separator := fun a b =>
  decidable_of_iff (a.text = b.text) (by cases a; cases b; simp)

end Separator

namespace Text

/-- The fields of a text after its first `skip` characters, which belong to a separator already
found. -/
def fieldsAfter (separator : Text) : (skip : Nat) → Text → List Text
  | _, [] => [[]]
  | skip + 1, _ :: rest => fieldsAfter separator skip rest
  | 0, c :: rest =>
      if separator.isPrefixOf (c :: rest) then
        [] :: fieldsAfter separator (separator.length - 1) rest
      else consFirst c (fieldsAfter separator 0 rest)

/-- The fields of a line. There is always at least one. -/
def fields (separator : Separator) (line : Text) : List Text :=
  fieldsAfter separator.text 0 line

def joinFields (separator : Separator) (parts : List Text) : Text :=
  separator.text.intercalate parts

def joinLines (parts : List Text) : Text := ['\n'].intercalate parts

theorem fields_after_drop (separator : Text) (skip : Nat) (text : Text) :
    fieldsAfter separator skip text = fieldsAfter separator 0 (text.drop skip) := by
  induction skip generalizing text with
  | zero => simp
  | succ skip induction =>
    cases text with
    | nil => simp [fieldsAfter]
    | cons c rest => simpa [fieldsAfter] using induction rest

theorem fields_after_ne_nil (separator : Text) (skip : Nat) (text : Text) :
    fieldsAfter separator skip text ≠ [] := by
  induction text generalizing skip with
  | nil => cases skip <;> simp [fieldsAfter]
  | cons c rest induction =>
    cases skip with
    | succ skip => simpa [fieldsAfter] using induction skip
    | zero =>
      simp only [fieldsAfter]
      split
      · simp
      · exact cons_first_ne_nil _ _

end Text
end PostfixSheet
