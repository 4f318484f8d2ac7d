import PostfixSheet.Text.Basic

/-!
Breaking a line that is wider than its column. Words are kept whole where that is possible: a word
goes on with the line if it fits, and is broken only if it is too wide for a line of its own. A line
with hardly any room left is closed.
-/

namespace PostfixSheet.Table

/-- A line with no more room than this is closed. -/
def leastRoom : Nat := 2

def joined (line word : Text) : Text := if line.isEmpty then word else line ++ ' ' :: word

/-- Lines that are complete, the last one first, and the line that is being filled. -/
abbrev Filling := List Text × Text

def closeIfFull (width : Nat) (complete : List Text) (line : Text) : Filling :=
  if width - leastRoom < line.length then (line :: complete, []) else (complete, line)

def addWord (width : Nat) (complete : List Text) (line word : Text) : Filling :=
  let room := width - (joined line []).length
  if (joined line word).length ≤ width then closeIfFull width complete (joined line word)
  else if !line.isEmpty ∧ room ≤ leastRoom then addWord width (line :: complete) [] word
  else if width < word.length then
    addWord width ((joined line (word.take room)) :: complete) [] (word.drop (max 1 room))
  else closeIfFull width (line :: complete) word
termination_by (word.length, line.length)
decreasing_by
  · rename_i narrow
    refine Prod.Lex.right _ ?_
    cases line with
    | nil => simp at narrow
    | cons _ _ => simp
  · rename_i long
    refine Prod.Lex.left _ _ ?_
    rw [List.length_drop]
    omega

def broken (width : Nat) (line : Text) : List Text :=
  let (complete, last) := (Text.splitWhere (· == ' ') line).foldl
    (fun (complete, line) word => addWord width complete line word) ([], [])
  ((if last.isEmpty then [] else [last]) ++ complete).reverse

def fitted (width : Nat) (line : Text) : List Text :=
  if line.length ≤ width then [line] else broken width line

end PostfixSheet.Table
