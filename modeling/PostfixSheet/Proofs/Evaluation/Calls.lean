import PostfixSheet.Evaluation.Cell
import Mathlib.Data.Finset.Basic
import Mathlib.Logic.Relation

/-!
# An evaluator that is used again

An evaluator keeps the cells in progress in two places, a set and a stack, and changes them as calls
go in and out. Here it goes step by step: it is called for a cell, runs the text of a cell, or a call
has ended with a value or an error. An error is passed on to the caller, and on the way the cell of
every text is left. Where the call stack has run out, all texts are given up in the same way, and the
outermost call answers with the largest number of cells that were in progress. A call that is taken
up when set and stack agree ends as the evaluation on the path says, however deep it goes and however
it ends. It leaves both as they were, unless it is given up where two addresses can not be compared.
-/

namespace PostfixSheet.Evaluation

open Relation (ReflTransGen)

/-- The cells in progress, as a set and as a stack, the cell entered last at its end. -/
structure Progress where
  cells : Finset Address
  stack : List Address
  /-- the largest number of cells that there have been on the stack -/
  deepest : Nat

namespace Progress

def none : Progress := ⟨∅, [], 0⟩

def enter (p : Progress) (a : Address) : Progress :=
  ⟨insert a p.cells, p.stack ++ [a], max p.deepest (p.stack.length + 1)⟩

def discard (p : Progress) (a : Address) : Progress := { p with cells := p.cells.erase a }

/-- The stack gives up its last cell only if this is the one that is left. -/
def leave (p : Progress) (a : Address) : Progress :=
  { p.discard a with
    stack := if p.stack.getLast? = some a then p.stack.dropLast else p.stack }

/-- Set and stack hold the same cells. -/
def Agrees (p : Progress) : Prop := ∀ a, a ∈ p.cells ↔ a ∈ p.stack

/-- The same cells are in progress, however many there have been before. -/
structure Same (p q : Progress) : Prop where
  cells : q.cells = p.cells
  stack : q.stack = p.stack

variable {p q : Progress} {a : Address}

theorem none_agrees : none.Agrees := by
  simp [Agrees, none]

theorem Agrees.enter (agrees : p.Agrees) (a : Address) : (p.enter a).Agrees := by
  intro b
  simp only [Progress.enter, Finset.mem_insert, List.mem_append, List.mem_singleton, agrees b]
  exact or_comm

theorem Same.agrees (same : p.Same q) (agrees : p.Agrees) : q.Agrees := by
  intro a
  rw [same.cells, same.stack]
  exact agrees a

theorem Same.refl (p : Progress) : p.Same p := ⟨rfl, rfl⟩

theorem Same.trans {r : Progress} (same : p.Same q) (further : q.Same r) : p.Same r :=
  ⟨further.cells.trans same.cells, further.stack.trans same.stack⟩

theorem Same.leave (same : p.Same q) (a : Address) : (p.leave a).Same (q.leave a) := by
  constructor
  · simp only [Progress.leave, discard, same.cells]
  · simp only [Progress.leave, same.stack]

theorem leave_enter (first : a ∉ p.cells) : p.Same ((p.enter a).leave a) := by
  constructor
  · simp [enter, leave, discard, Finset.erase_insert first]
  · simp [enter, leave, discard]

end Progress

/-- A text on its way: the cell that it stands in, the values on the stack and the tokens to come.
-/
structure Frame where
  cell : Address
  values : List Float
  rest : List Token

inductive Control
  | call (a : Address)
  | run (frame : Frame)
  | ended (result : Except EvalError Float)
  /-- the call stack has run out -/
  | givenUp

structure Evaluator where
  progress : Progress
  /-- the texts that wait for a reference, the innermost first -/
  callers : List Frame
  control : Control

namespace Evaluator

/-- The answer to a reference that names no cell. -/
def noCell : Machine.Answer := fun label _ => .error (.missingCell label)

/-- A cell is entered before its text is read. -/
def callStep (grid : Grid) (room : Room) (ceiling : Ceiling) (p : Progress) (callers : List Frame)
    (a : Address) : Evaluator :=
  if a ∈ p.cells then ⟨p, callers, .ended (.error (.cycle (p.stack.dropWhile (· != a) ++ [a])))⟩
  else if ceiling.cells ≤ p.stack.length then
    ⟨p, callers, .ended (.error (.tooDeep p.stack.length))⟩
  else match grid.get? a with
    | none => ⟨p, callers, .ended (.error (.missingCell a.label))⟩
    | some text =>
        let frame : Frame := ⟨a, [], Token.scan text⟩
        if p.stack.length < room.bound frame.rest then ⟨p.enter a, callers, .run frame⟩
        else ⟨p.enter a, frame :: callers, .givenUp⟩

def runStep (p : Progress) (callers : List Frame) (frame : Frame) : Evaluator :=
  match frame.rest with
  | [] => ⟨p.leave frame.cell, callers, .ended (Machine.result frame.values)⟩
  | .reference _ (some a) :: rest => ⟨p, { frame with rest } :: callers, .call a⟩
  | token :: rest => match Machine.step noCell frame.values token with
      | .ok values => ⟨p, callers, .run { frame with values, rest }⟩
      | .error error => ⟨p.leave frame.cell, callers, .ended (.error error)⟩

/-- The value of a text when some values are on the stack already. -/
def resultFrom (answer : Machine.Answer) (values : List Float) (tokens : List Token) :
    Except EvalError Float :=
  match Machine.runFrom answer values tokens with
  | .ok stack => Machine.result stack
  | .error error => .error error

section Reading

variable {answer : Machine.Answer} {token : Token} {values : List Float} {rest : List Token}

theorem result_from_reference {label : Text} {a : Address} :
    resultFrom answer values (.reference label (some a) :: rest) =
      match answer label (some a) with
      | .ok value => resultFrom answer (value :: values) rest
      | .error error => .error error := by
  rw [resultFrom, Machine.runFrom, Machine.step]
  cases answer label (some a) <;> rfl

theorem step_own (own : ∀ label a, token ≠ .reference label (some a))
    (refuses : ∀ label, answer label none = .error (.missingCell label)) :
    Machine.step answer values token = Machine.step noCell values token := by
  cases token with
  | number text value => rfl
  | operator op => rfl
  | unrecognized text => rfl
  | reference label address =>
      cases address with
      | none =>
          rw [Machine.step, Machine.step, refuses]
          rfl
      | some a => exact absurd rfl (own label a)

theorem result_from_own (own : ∀ label a, token ≠ .reference label (some a))
    (refuses : ∀ label, answer label none = .error (.missingCell label)) :
    resultFrom answer values (token :: rest) =
      match Machine.step noCell values token with
      | .ok next => resultFrom answer next rest
      | .error error => .error error := by
  rw [resultFrom, Machine.runFrom, step_own own refuses]
  cases Machine.step noCell values token <;> rfl

theorem run_step_own (own : ∀ label b, token ≠ .reference label (some b)) (p : Progress)
    (callers : List Frame) (a : Address) (values : List Float) (rest : List Token) :
    runStep p callers ⟨a, values, token :: rest⟩ =
      match Machine.step noCell values token with
      | .ok values => ⟨p, callers, .run ⟨a, values, rest⟩⟩
      | .error error => ⟨p.leave a, callers, .ended (.error error)⟩ := by
  cases token with
  | number text value => rfl
  | operator op => rfl
  | unrecognized text => rfl
  | reference label address =>
      cases address with
      | none => rfl
      | some b => exact absurd rfl (own label b)

end Reading

variable [CallStack] (grid : Grid) (room : Room) (ceiling : Ceiling)

/-- A cell whose text was given up is left. Only in the one whose text could not even be read, the
last cell of the stack may not be compared with it any more. -/
def giveUpStep (p : Progress) (frame : Frame) (callers : List Frame) : Evaluator :=
  if callers.length < room.cells ∨ CallStack.compares then ⟨p.leave frame.cell, callers, .givenUp⟩
  else ⟨p.discard frame.cell, callers, .givenUp⟩

def step : Evaluator → Option Evaluator
  | ⟨p, callers, .call a⟩ => some (callStep grid room ceiling p callers a)
  | ⟨p, callers, .run frame⟩ => some (runStep p callers frame)
  | ⟨p, frame :: callers, .ended (.ok value)⟩ =>
      some ⟨p, callers, .run { frame with values := value :: frame.values }⟩
  | ⟨p, frame :: callers, .ended (.error error)⟩ =>
      some ⟨p.leave frame.cell, callers, .ended (.error error)⟩
  | ⟨p, frame :: callers, .givenUp⟩ => some (giveUpStep room p frame callers)
  | ⟨_, [], .ended _⟩ | ⟨_, [], .givenUp⟩ => none

abbrev Leads : Evaluator → Evaluator → Prop :=
  ReflTransGen fun before after => before.step grid room ceiling = some after

variable {grid room ceiling}

/-- An evaluator at the end of a call, or of the text of a cell, that comes to a result; `left` is
what is then in progress. A call that was given up has kept the set right. -/
inductive Comes (room : Room) (left : Progress) (callers : List Frame) :
    Except EvalError Float → Evaluator → Prop
  | ended {p : Progress} {result : Except EvalError Float} (same : left.Same p)
      (shallow : p.deepest ≤ room.cells + 1) :
      Comes room left callers result ⟨p, callers, .ended result⟩
  | givenUp {p : Progress} (same : p.cells = left.cells) (deep : p.deepest = room.cells + 1) :
      Comes room left callers (.error (.exhausted (room.cells + 1))) ⟨p, callers, .givenUp⟩

omit [CallStack] in
theorem Comes.of_same {room : Room} {p left : Progress} {callers : List Frame}
    {result : Except EvalError Float} {e : Evaluator} (comes : Comes room p callers result e)
    (same : left.Same p) : Comes room left callers result e := by
  cases comes with
  | ended further shallow => exact .ended (same.trans further) shallow
  | givenUp cells deep => exact .givenUp (cells.trans same.cells) deep

theorem step_give_up {p left : Progress} (frame : Frame) {callers : List Frame}
    (cells : (p.discard frame.cell).cells = left.cells) (deep : p.deepest = room.cells + 1) :
    ∃ e, step grid room ceiling ⟨p, frame :: callers, .givenUp⟩ = some e ∧
      Comes room left callers (.error (.exhausted (room.cells + 1))) e := by
  refine ⟨_, rfl, ?_⟩
  unfold giveUpStep
  split
  · exact .givenUp cells deep
  · exact .givenUp cells deep

/-- A text of a cell runs to its end, if the calls it makes do. -/
theorem run_leads {p q : Progress} {remaining : Nat} {a : Address} {callers : List Frame}
    {tokens : List Token}
    (calls : ∀ label b, .reference label (some b) ∈ tokens → ∀ q, p.Same q →
      q.deepest ≤ room.cells + 1 → ∀ frame,
      ∃ e, Leads grid room ceiling ⟨q, frame :: callers, .call b⟩ e ∧
        Comes room p (frame :: callers) (cellOnPath grid room remaining p.stack b) e)
    (same : p.Same q) (shallow : q.deepest ≤ room.cells + 1) (values : List Float) :
    ∃ e, Leads grid room ceiling ⟨q, callers, .run ⟨a, values, tokens⟩⟩ e ∧
      Comes room (p.leave a) callers
        (resultFrom (answerOnPath grid room remaining p.stack) values tokens) e := by
  induction tokens generalizing q values with
  | nil => exact ⟨_, .single rfl, .ended (same.leave a) shallow⟩
  | cons token rest induction =>
      have induction {q} := @induction q fun label b member =>
        calls label b (List.mem_cons_of_mem token member)
      by_cases called : ∃ label b, token = .reference label (some b)
      -- only a reference to a cell leaves the text, which then waits among the callers
      · obtain ⟨label, b, rfl⟩ := called
        rw [result_from_reference, answer_on_path_some]
        obtain ⟨e, led, comes⟩ :=
          calls label b List.mem_cons_self q same shallow ⟨a, values, rest⟩
        have asked : Leads grid room ceiling
            ⟨q, callers, .run ⟨a, values, .reference label (some b) :: rest⟩⟩ e := .head rfl led
        generalize cellOnPath grid room remaining p.stack b = result at comes
        cases comes with
        | ended same shallow =>
            cases result with
            | ok value =>
                obtain ⟨e, further, comes⟩ := induction same shallow (value :: values)
                exact ⟨e, asked.trans (.head rfl further), comes⟩
            | error error => exact ⟨_, asked.tail rfl, .ended (same.leave a) shallow⟩
        | @givenUp r cells deep =>
            have left : (r.discard a).cells = (p.leave a).cells := congrArg (·.erase a) cells
            obtain ⟨e, stepped, comes⟩ := step_give_up ⟨a, values, rest⟩ left deep
            exact ⟨e, asked.tail stepped, comes⟩
      · have own : ∀ label b, token ≠ .reference label (some b) := by
          intro label b same
          exact called ⟨label, b, same⟩
        have stepped : step grid room ceiling ⟨q, callers, .run ⟨a, values, token :: rest⟩⟩ = _ :=
          congrArg some (run_step_own own q callers a values rest)
        rw [result_from_own own fun _ => rfl]
        cases outcome : Machine.step noCell values token with
        | ok next =>
            rw [outcome] at stepped
            obtain ⟨e, further, comes⟩ := induction same shallow next
            exact ⟨e, .head stepped further, comes⟩
        | error error =>
            rw [outcome] at stepped
            exact ⟨_, .single stepped, .ended (same.leave a) shallow⟩

/-- The call of a cell that is in progress changes nothing. -/
theorem call_again_leads {p : Progress} (agrees : p.Agrees) (shallow : p.deepest ≤ room.cells + 1)
    (remaining : Nat) (callers : List Frame) {a : Address} (again : a ∈ p.stack) :
    ∃ e, Leads grid room ceiling ⟨p, callers, .call a⟩ e ∧
      Comes room p callers (cellOnPath grid room remaining p.stack a) e := by
  refine ⟨_, .single rfl, ?_⟩
  rw [cell_on_path_of_mem again, callStep, if_pos ((agrees a).mpr again)]
  exact .ended (.refl p) shallow

/-- A cell whose text cannot be read any more is entered and given up. -/
theorem unread_leads {p : Progress} {a : Address} (first : a ∉ p.cells)
    (shallow : p.deepest ≤ room.cells + 1) (full : p.stack.length = room.cells)
    (callers : List Frame) (tokens : List Token) :
    ∃ e, Leads grid room ceiling ⟨p.enter a, ⟨a, [], tokens⟩ :: callers, .givenUp⟩ e ∧
      Comes room p callers (.error (.exhausted (room.cells + 1))) e := by
  have deep : (p.enter a).deepest = room.cells + 1 := by
    simp only [Progress.enter]
    omega
  have left : ((p.enter a).discard a).cells = p.cells := (Progress.leave_enter first).cells
  obtain ⟨e, stepped, comes⟩ := step_give_up ⟨a, [], tokens⟩ left deep
  exact ⟨e, .single stepped, comes⟩

/-- A call ends as the evaluation on the path, and set and stack are then what they were, as long as
it is not given up. -/
theorem call_leads {p : Progress} (agrees : p.Agrees) {remaining : Nat}
    (allowed : p.stack.length + remaining = ceiling.cells) (shallow : p.deepest ≤ room.cells + 1)
    (fits : p.stack.length ≤ room.cells) (callers : List Frame) (a : Address) :
    ∃ e, Leads grid room ceiling ⟨p, callers, .call a⟩ e ∧
      Comes room p callers (cellOnPath grid room remaining p.stack a) e := by
  induction remaining generalizing p callers a with
  | zero =>
      by_cases again : a ∈ p.stack
      · exact call_again_leads agrees shallow 0 callers again
      have full : ceiling.cells ≤ p.stack.length := by omega
      refine ⟨_, .single rfl, ?_⟩
      rw [cell_on_path_zero again, callStep, if_neg (mt (agrees a).mp again), if_pos full]
      exact .ended (.refl p) shallow
  | succ remaining induction =>
      by_cases again : a ∈ p.stack
      · exact call_again_leads agrees shallow (remaining + 1) callers again
      have first : a ∉ p.cells := mt (agrees a).mp again
      have space : ¬ceiling.cells ≤ p.stack.length := by omega
      have stepped : step grid room ceiling ⟨p, callers, .call a⟩ =
          some (callStep grid room ceiling p callers a) := rfl
      rw [callStep, if_neg first, if_neg space] at stepped
      rw [cell_on_path_succ again]
      cases found : grid.get? a with
      | none =>
          rw [found] at stepped
          exact ⟨_, .single stepped, .ended (.refl p) shallow⟩
      | some text =>
          rw [found] at stepped
          by_cases readable : p.stack.length < room.bound (Token.scan text)
          · simp only [readable, if_true] at stepped ⊢
            have inside : (p.enter a).stack.length + remaining = ceiling.cells := by
              simp only [Progress.enter, List.length_append, List.length_singleton]
              omega
            have depth : (p.enter a).deepest ≤ room.cells + 1 :=
              max_le shallow (Nat.succ_le_succ fits)
            -- with one cell more in progress, the calls of the text have one cell less of room
            have calls : ∀ label b, .reference label (some b) ∈ Token.scan text →
                ∀ q, (p.enter a).Same q → q.deepest ≤ room.cells + 1 → ∀ frame,
                ∃ e, Leads grid room ceiling ⟨q, frame :: callers, .call b⟩ e ∧
                  Comes room (p.enter a) (frame :: callers)
                    (cellOnPath grid room remaining (p.enter a).stack b) e := by
              intro label b member q same shallow frame
              rw [Room.bound_of_reference member] at readable
              have fits : (p.enter a).stack.length ≤ room.cells := by
                simp only [Progress.enter, List.length_append, List.length_singleton]
                omega
              rw [← same.stack] at inside fits ⊢
              obtain ⟨e, led, comes⟩ :=
                induction (same.agrees (agrees.enter a)) inside shallow fits (frame :: callers) b
              exact ⟨e, led, comes.of_same same⟩
            obtain ⟨e, ran, comes⟩ := run_leads calls (.refl _) depth []
            exact ⟨e, .head stepped ran, comes.of_same (Progress.leave_enter first)⟩
          · simp only [readable, if_false] at stepped ⊢
            have bound := room.cells_le_bound (Token.scan text)
            have full : p.stack.length = room.cells := by omega
            obtain ⟨e, led, comes⟩ := unread_leads first shallow full callers (Token.scan text)
            rw [full]
            exact ⟨e, .head stepped led, comes⟩

/-- What the outermost call answers: its result, or as many cells as have been in progress. -/
def answer? : Evaluator → Option (Except EvalError Float)
  | ⟨_, [], .ended result⟩ => some result
  | ⟨p, [], .givenUp⟩ => some (.error (.exhausted p.deepest))
  | _ => none

theorem not_step_of_answer {e next : Evaluator} {result : Except EvalError Float}
    (answers : e.answer? = some result) : step grid room ceiling e ≠ some next := by
  obtain ⟨p, _ | ⟨frame, callers⟩, control⟩ := e
  · cases control with
    | call _ | run _ => cases answers
    | ended _ | givenUp => simp [step]
  · cases control <;> cases answers

omit [CallStack] in
theorem Comes.answer {room : Room} {left : Progress} {result : Except EvalError Float}
    {e : Evaluator} (comes : Comes room left [] result e) : e.answer? = some result := by
  cases comes with
  | ended _ _ => rfl
  | givenUp _ deep => rw [answer?, deep]

/-- A way that comes to an answer is the only one. -/
theorem eq_of_leads_answer {before first second : Evaluator} {one other : Except EvalError Float}
    (led : Leads grid room ceiling before first) (answers : first.answer? = some one)
    (ledToo : Leads grid room ceiling before second) (answersToo : second.answer? = some other) :
    first = second := by
  have unique : Relator.RightUnique fun before after : Evaluator =>
      before.step grid room ceiling = some after := by
    intro before after other stepped otherwise
    exact Option.some.inj (stepped.symm.trans otherwise)
  rcases ReflTransGen.total_of_right_unique unique led ledToo with led | led
  · rcases led.cases_head with same | ⟨_, stepped, _⟩
    · exact same
    · exact absurd stepped (not_step_of_answer answers)
  · rcases led.cases_head with same | ⟨_, stepped, _⟩
    · exact same.symm
    · exact absurd stepped (not_step_of_answer answersToo)

end Evaluator

variable [CallStack]

/-- A call with no cell in progress answers as the evaluation says. -/
theorem leads_answer (grid : Grid) (room : Room) (ceiling : Ceiling) {p : Progress}
    (idle : Progress.none.Same p) (shallow : p.deepest ≤ room.cells + 1) (a : Address) :
    ∃ e, Evaluator.Leads grid room ceiling ⟨p, [], .call a⟩ e ∧
      Evaluator.Comes room .none [] (cellOnPath grid room ceiling.cells [] a) e := by
  have agrees : p.Agrees := idle.agrees Progress.none_agrees
  have empty : p.stack = [] := idle.stack
  have allowed : p.stack.length + ceiling.cells = ceiling.cells := by simp [empty]
  have fits : p.stack.length ≤ room.cells := by simp [empty]
  obtain ⟨e, led, comes⟩ := Evaluator.call_leads agrees allowed shallow fits [] a
  rw [empty] at comes
  exact ⟨e, led, comes.of_same idle⟩

variable {grid : Grid} {ceiling : Ceiling} {a : Address}

/-- An evaluator is asked for a cell, whatever it holds: that is cleared before and after. -/
inductive Asks (grid : Grid) (ceiling : Ceiling) (a : Address) :
    Progress → Except EvalError Float → Progress → Prop
  | asked {before : Progress} {e : Evaluator} {result : Except EvalError Float}
      (led : Evaluator.Leads grid CallStack.room ceiling ⟨.none, [], .call a⟩ e)
      (answers : e.answer? = some result) : Asks grid ceiling a before result .none

/-- An evaluator that has been used gives the answer of a new one. -/
theorem asks_iff {before after : Progress} {result : Except EvalError Float} :
    Asks grid ceiling a before result after ↔ result = cell grid ceiling a ∧ after = .none := by
  obtain ⟨e, led, comes⟩ :=
    leads_answer grid CallStack.room ceiling (.refl .none) (Nat.zero_le _) a
  constructor
  · rintro ⟨ledToo, answers⟩
    obtain rfl := Evaluator.eq_of_leads_answer led comes.answer ledToo answers
    exact ⟨Option.some.inj (answers.symm.trans comes.answer), rfl⟩
  · rintro ⟨rfl, rfl⟩
    exact .asked led comes.answer

end PostfixSheet.Evaluation
