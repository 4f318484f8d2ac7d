import PostfixSheet.Text.Basic

/-!
Control sequences: an escape character and an opening bracket, parameters, intermediate characters,
and one final character. They move a cursor or colour what follows, and carry no text.
-/

namespace PostfixSheet.Text

def isParameter (c : Char) : Bool := '0' ≤ c && c ≤ '?'

def isIntermediate (c : Char) : Bool := ' ' ≤ c && c ≤ '/'

def isFinal (c : Char) : Bool := '@' ≤ c && c ≤ '~'

/-- The number of characters of the control sequence that a text starts with; zero if it starts with
none. -/
def controlLength : Text → Nat
  | '\x1b' :: '[' :: rest =>
      let parameters := rest.takeWhile isParameter
      let further := rest.drop parameters.length
      let intermediates := further.takeWhile isIntermediate
      match further.drop intermediates.length with
      | c :: _ => if isFinal c then 3 + parameters.length + intermediates.length else 0
      | [] => 0
  | _ => 0

/-- A text without its control sequences, after `left` more characters are passed. -/
def withoutControlsFrom : (left : Nat) → Text → Text
  | _, [] => []
  | left + 1, _ :: rest => withoutControlsFrom left rest
  | 0, c :: rest => match controlLength (c :: rest) with
      | 0 => c :: withoutControlsFrom 0 rest
      | length + 1 => withoutControlsFrom length rest

/-- A text without its control sequences. What comes together when one is left out makes no new one.
-/
def withoutControls (text : Text) : Text := withoutControlsFrom 0 text

theorem control_length_of_ne {c : Char} (differs : c ≠ '\x1b') (rest : Text) :
    controlLength (c :: rest) = 0 := by
  unfold controlLength
  split
  · next same => exact absurd (List.cons.inj same).1 differs
  · rfl

/-- What holds no escape character is left as it is, whatever comes behind it. -/
theorem without_controls_append {front : Text} (plain : '\x1b' ∉ front) (rest : Text) :
    withoutControls (front ++ rest) = front ++ withoutControls rest := by
  unfold withoutControls
  induction front with
  | nil => rfl
  | cons c front induction =>
      have differs : c ≠ '\x1b' := by
        rintro rfl
        exact plain List.mem_cons_self
      have further := induction fun member => plain (List.mem_cons_of_mem _ member)
      rw [List.cons_append, withoutControlsFrom, control_length_of_ne differs]
      exact congrArg (c :: ·) further

theorem without_controls_of_plain {text : Text} (plain : '\x1b' ∉ text) :
    withoutControls text = text := by
  simpa [withoutControls, withoutControlsFrom] using without_controls_append plain []

end PostfixSheet.Text
