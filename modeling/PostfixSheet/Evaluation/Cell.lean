import PostfixSheet.Evaluation.Machine
import PostfixSheet.Grid

/-!
The value of a cell: its text is run as an expression, and a reference in it asks for the value of
another cell in the same way. The cells that are being evaluated form a path. A cell that is met
again on the path closes a cycle, and the path has at most as many cells as the ceiling allows. Each
of them also takes some of the call stack. Where that has run out, a cell is entered whose text can
not be read, and the evaluation is given up. What it takes to read a text is counted alike for all
texts that refer to cells, and alike for all others. The grid is only read, and nothing is kept from
one evaluation to the next.
-/

namespace PostfixSheet

/-- The largest number of cells on a path: at least one. -/
structure Ceiling where
  cells : Nat
  pos : 0 < cells

namespace Ceiling

structure NotPositive where
  cells : Int

def NotPositive.message (bad : NotPositive) : Text :=
  "max_depth must be positive, got ".toList ++ Text.ofInt bad.cells

def ofInt (cells : Int) : Except NotPositive Ceiling :=
  if h : 0 < cells then .ok ⟨cells.toNat, by omega⟩ else .error ⟨cells⟩

def standard : Ceiling := ⟨255, by decide⟩

end Ceiling

/-- Whether a token asks for the value of a cell. -/
def Token.asks : Token → Bool
  | .reference _ (some _) => true
  | _ => false

/-- How many cells a path may have whose texts are to be read. At its end a text that refers to no
cell may do where one that does can not be read any more. -/
structure Room where
  cells : Nat
  leaves : Nat
  le : cells ≤ leaves

namespace Room

def bound (room : Room) (tokens : List Token) : Nat :=
  if tokens.any Token.asks then room.cells else room.leaves

/-- There is room for whatever there is room for in the first. -/
def Within (room wider : Room) : Prop := room.cells ≤ wider.cells ∧ room.leaves ≤ wider.leaves

variable {room wider : Room} {tokens : List Token}

theorem cells_le_bound (room : Room) (tokens : List Token) : room.cells ≤ room.bound tokens := by
  unfold bound
  split
  · exact Nat.le_refl _
  · exact room.le

theorem bound_of_reference {label : Text} {a : Address}
    (member : .reference label (some a) ∈ tokens) : room.bound tokens = room.cells := by
  have asks : tokens.any Token.asks = true := List.any_eq_true.mpr ⟨_, member, rfl⟩
  exact if_pos asks

theorem Within.bound_le (within : room.Within wider) (tokens : List Token) :
    room.bound tokens ≤ wider.bound tokens := by
  unfold bound
  split
  · exact within.1
  · exact within.2

end Room

/-- How far calls may nest below whoever asks for a value. Reading a text is what takes the most, so
that is where the stack runs out. -/
class CallStack where
  calls : Nat
  enough : 5 ≤ calls
  /-- how many calls less it takes to read a text that refers to no cell -/
  saved : Nat
  /-- whether two addresses can still be compared where a text could not be read -/
  compares : Bool

namespace CallStack

/-- The usual stack of a thousand calls, less those of the program above an evaluation and those that
read a text. -/
instance (priority := low) usual : CallStack := ⟨988, by decide, 1, true⟩

variable [CallStack]

/-- The room after so many calls: each cell takes three. -/
def roomAfter (used : Nat) : Room where
  cells := (calls - used) / 3
  leaves := (calls - used + saved) / 3
  le := Nat.div_le_div_right (Nat.le_add_right _ _)

def room : Room := roomAfter 0

/-- A text that stands in no cell takes two calls itself. -/
def roomInText : Room := roomAfter 2

/-- The call stack as it is one call before. -/
@[reducible] def before : CallStack where
  calls := calls + 1
  enough := Nat.le_succ_of_le enough
  saved := saved
  compares := compares

theorem cells_in_text_pos : 0 < roomInText.cells := by
  have enough := CallStack.enough
  simp only [roomInText, roomAfter]
  omega

theorem room_in_text_within : roomInText.Within room := by
  have fewer : calls - 2 ≤ calls - 0 := Nat.sub_le_sub_left (Nat.zero_le 2) calls
  exact ⟨Nat.div_le_div_right fewer, Nat.div_le_div_right (Nat.add_le_add_right fewer saved)⟩

theorem room_within_before : room.Within (@room before) := by
  have more : calls - 0 ≤ calls + 1 - 0 := Nat.le_succ calls
  exact ⟨Nat.div_le_div_right more, Nat.div_le_div_right (Nat.add_le_add_right more saved)⟩

theorem bound_pos (tokens : List Token) : 0 < room.bound tokens := by
  have some : 0 < room.cells := Nat.lt_of_lt_of_le cells_in_text_pos room_in_text_within.1
  exact Nat.lt_of_lt_of_le some (room.cells_le_bound tokens)

end CallStack

namespace Evaluation

/-- The value of a cell whose evaluation was asked for by the cells on `path`, the first one first,
when `remaining` more cells may be entered. -/
def cellOnPath (grid : Grid) (room : Room) (remaining : Nat) (path : List Address) (a : Address) :
    Except EvalError Float :=
  if a ∈ path then .error (.cycle (path.dropWhile (· != a) ++ [a]))
  else match remaining with
    | 0 => .error (.tooDeep path.length)
    | remaining + 1 => match grid.get? a with
        | none => .error (.missingCell a.label)
        | some text =>
            if path.length < room.bound (Token.scan text) then
              Machine.run
                (fun label address => match address with
                  | none => .error (.missingCell label)
                  | some next => cellOnPath grid room remaining (path ++ [a]) next)
                (Token.scan text)
            else .error (.exhausted (path.length + 1))

/-- What references stand for at the end of a path. -/
def answerOnPath (grid : Grid) (room : Room) (remaining : Nat) (path : List Address) :
    Machine.Answer :=
  fun label address => match address with
    | none => .error (.missingCell label)
    | some next => cellOnPath grid room remaining path next

section Path

variable {grid : Grid} {room : Room} {remaining : Nat} {path : List Address} {label : Text}
  {a : Address}

theorem answer_on_path_some :
    answerOnPath grid room remaining path label (some a) =
      cellOnPath grid room remaining path a := rfl

theorem answer_on_path_none :
    answerOnPath grid room remaining path label none = .error (.missingCell label) := rfl

theorem cell_on_path_of_mem (again : a ∈ path) :
    cellOnPath grid room remaining path a = .error (.cycle (path.dropWhile (· != a) ++ [a])) := by
  unfold cellOnPath
  simp [again]

theorem cell_on_path_zero (first : a ∉ path) :
    cellOnPath grid room 0 path a = .error (.tooDeep path.length) := by
  unfold cellOnPath
  simp [first]

theorem cell_on_path_succ (first : a ∉ path) :
    cellOnPath grid room (remaining + 1) path a =
      match grid.get? a with
      | none => .error (.missingCell a.label)
      | some text =>
          if path.length < room.bound (Token.scan text) then
            Machine.run (answerOnPath grid room remaining (path ++ [a])) (Token.scan text)
          else .error (.exhausted (path.length + 1)) := by
  rw [cellOnPath]
  simp only [first, if_false]
  rfl

end Path

variable [CallStack]

def cell (grid : Grid) (ceiling : Ceiling) (a : Address) : Except EvalError Float :=
  cellOnPath grid CallStack.room ceiling.cells [] a

/-- What the references of a text stand for that stands in no cell. -/
def cellAnswer (grid : Grid) (ceiling : Ceiling) : Machine.Answer :=
  answerOnPath grid CallStack.roomInText ceiling.cells []

/-- The value of an expression that stands in no cell. -/
def expression (grid : Grid) (ceiling : Ceiling) (text : Text) : Except EvalError Float :=
  Machine.run (cellAnswer grid ceiling) (Token.scan text)

end Evaluation
end PostfixSheet
