import PostfixSheet.Text.Basic

/-!
Signs, of which the strings of data from elsewhere are made. Beside characters there are halves: two
of them in the right order are how a character with more than sixteen bits is spelled, but one by
itself is no character and can be written neither to a file nor to a console. A string without halves
is a text.
-/

namespace PostfixSheet

inductive Sign
  | char (c : Char)
  /-- a half of a pair, counted from the first one on -/
  | half (n : Fin 0x800)
deriving DecidableEq, Repr

namespace Sign

def firstHalf : Nat := 0xd800

/-- The number of a sign. Those of the halves lie in a gap that the characters leave. -/
def code : Sign → Nat
  | .char c => c.toNat
  | .half n => firstHalf + n

def ofCode (code : Nat) : Sign :=
  if h : firstHalf ≤ code ∧ code - firstHalf < 0x800 then .half ⟨code - firstHalf, h.2⟩
  else .char (Char.ofNat code)

def char? : Sign → Option Char
  | .char c => some c
  | .half _ => none

end Sign

abbrev Signs := List Sign

/-- A text as a string of signs. -/
@[coe] def Text.signs (text : Text) : Signs := text.map .char

instance : Coe Text Signs := ⟨Text.signs⟩

namespace Signs

/-- The text that a string is, if it holds no half. -/
def text? : Signs → Option Text
  | [] => some []
  | .char c :: signs => (text? signs).map (c :: ·)
  | .half _ :: _ => none

/-- A string as a console shows it at best: with the replacement character for each half. -/
def shown (signs : Signs) : Text := signs.map fun sign => sign.char?.getD '\ufffd'

/-- Whether a string comes before another or is the same, in the order of the numbers of their
signs. -/
def isUpTo : Signs → Signs → Bool
  | [], _ => true
  | _ :: _, [] => false
  | s :: signs, t :: others => s.code < t.code || (s == t && isUpTo signs others)

theorem text_eq_some_iff {signs : Signs} {text : Text} :
    text? signs = some text ↔ signs = text.signs := by
  induction signs generalizing text with
  | nil => cases text <;> simp [text?, Text.signs]
  | cons sign signs induction =>
      cases sign with
      | half n => cases text <;> simp [text?, Text.signs]
      | char c =>
          rw [text?, Option.map_eq_some_iff]
          constructor
          · rintro ⟨rest, found, rfl⟩
            rw [induction.mp found]
            rfl
          · intro same
            cases text with
            | nil => cases same
            | cons d rest =>
                obtain ⟨first, further⟩ := List.cons.inj same
                exact ⟨rest, induction.mpr further, by rw [Sign.char.inj first]⟩

@[simp] theorem shown_signs (text : Text) : shown text.signs = text := by
  simp [shown, Text.signs, Sign.char?, Function.comp_def]

theorem signs_inj {text other : Text} : text.signs = other.signs ↔ text = other :=
  ⟨fun same => by rw [← shown_signs text, same, shown_signs], congrArg Text.signs⟩

@[simp] theorem signs_eq_nil {text : Text} : text.signs = [] ↔ text = [] := List.map_eq_nil_iff

end Signs
end PostfixSheet
