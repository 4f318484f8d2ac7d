import PostfixSheet.Proofs.Evaluation.Chain
import PostfixSheet.Proofs.Evaluation.Cycle
import PostfixSheet.Proofs.Evaluation.Descent
import PostfixSheet.Proofs.Evaluation.Requests

/-!
# The cells in progress

An evaluator is asked for a cell, or for a text that stands in no cell, and goes from state to state
until it has an answer. The texts on their way decide what is in progress: the set holds the cells
that these texts stand in, and the stack holds them in order, the outermost first. So a call that has
ended, with a value or with an error, has left both as it found them, and the stack is never longer
than the grid has cells, however high the ceiling is. Entering a cell is one step, and so is leaving
it: nothing is evaluated between the change of the set and that of the stack.

All this holds until the call stack runs out. Cells may be spilled onto the stack then, while the set
is emptied call by call. Both are cleared before the evaluator answers.
-/

namespace PostfixSheet.Evaluation

open Relation (ReflTransGen)

variable {grid : Grid} {ceiling : Ceiling}

/-- What an evaluator is asked for. -/
inductive Question
  | cell (a : Address)
  | text (expression : Text)

/-- A text that stands in no cell and waits for a reference: its values and the tokens to come. -/
abbrev Waiting := List Float × List Token

/-- An evaluator on the way to an answer. -/
inductive Inquiry
  /-- a text that stands in no cell is read -/
  | own (progress : Progress) (values : List Float) (rest : List Token)
  /-- a cell has been called, by a text that stands in no cell if one is waiting -/
  | inside (waiting : Option Waiting) (evaluator : Evaluator)
  /-- the way has ended, and what is in progress has not been cleared yet -/
  | done (progress : Progress) (result : Except EvalError Float)
  | cleared (result : Except EvalError Float)

/-- The way to an answer begins with no cell in progress. -/
def Question.start : Question → Inquiry
  | .cell a => .inside none ⟨.none, [], .call a⟩
  | .text expression => .own .none [] (Token.scan expression)

section Asking

variable [CallStack]

def Question.answer (grid : Grid) (ceiling : Ceiling) : Question → Except EvalError Float
  | .cell a => Evaluation.cell grid ceiling a
  | .text expression => Evaluation.expression grid ceiling expression

/-- The room for a call, below a text if one is waiting. -/
def roomBelow : Option Waiting → Room
  | none => CallStack.room
  | some _ => CallStack.roomInText

namespace Inquiry

omit [CallStack] in
def progress : Inquiry → Progress
  | .own progress _ _ | .done progress _ => progress
  | .inside _ e => e.progress
  | .cleared _ => .none

omit [CallStack] in
/-- The texts of cells that are on their way, the innermost first. -/
def frames : Inquiry → List Frame
  | .own _ _ _ | .done _ _ | .cleared _ => []
  | .inside _ e => e.frames

omit [CallStack] in
/-- The first call has ended: the text that waits for it goes on, or stops at the error. -/
def resume (p : Progress) : Option Waiting → Except EvalError Float → Inquiry
  | some (values, rest), .ok value => .own p (value :: values) rest
  | _, result => .done p result

def step (grid : Grid) (ceiling : Ceiling) : Inquiry → Option Inquiry
  | .own p values [] => some (.done p (Machine.result values))
  | .own p values (.reference _ (some a) :: rest) =>
      some (.inside (some (values, rest)) ⟨p, [], .call a⟩)
  | .own p values (token :: rest) => some (match Machine.step Evaluator.noCell values token with
      | .ok values => .own p values rest
      | .error error => .done p (.error error))
  | .inside waiting e => match e.answer? with
      | some result => some (resume e.progress waiting result)
      | none => (e.step grid (roomBelow waiting) ceiling).map (.inside waiting)
  | .done _ result => some (.cleared result)
  | .cleared _ => none

abbrev Leads (grid : Grid) (ceiling : Ceiling) : Inquiry → Inquiry → Prop :=
  ReflTransGen fun before after => before.step grid ceiling = some after

theorem leads_inside {e next : Evaluator} (waiting : Option Waiting)
    (led : Evaluator.Leads grid (roomBelow waiting) ceiling e next) :
    Leads grid ceiling (.inside waiting e) (.inside waiting next) := by
  refine led.lift (Inquiry.inside waiting) ?_
  intro before after stepped
  have under : before.answer? = none := by
    cases answers : before.answer? with
    | none => rfl
    | some result => exact absurd stepped (Evaluator.not_step_of_answer answers)
  change step grid ceiling (.inside waiting before) = some (.inside waiting after)
  simp only [step, under, stepped, Option.map_some]

theorem leads_resume {e next : Evaluator} {result : Except EvalError Float}
    (waiting : Option Waiting) (led : Evaluator.Leads grid (roomBelow waiting) ceiling e next)
    (answers : next.answer? = some result) :
    Leads grid ceiling (.inside waiting e) (resume next.progress waiting result) := by
  refine (leads_inside waiting led).tail ?_
  simp only [step, answers]

theorem step_own_token (grid : Grid) (ceiling : Ceiling) {token : Token}
    (own : ∀ label a, token ≠ .reference label (some a))
    (p : Progress) (values : List Float) (rest : List Token) :
    step grid ceiling (.own p values (token :: rest)) =
      some (match Machine.step Evaluator.noCell values token with
        | .ok values => .own p values rest
        | .error error => .done p (.error error)) := by
  cases token with
  | number text value => rfl
  | operator op => rfl
  | unrecognized text => rfl
  | reference label address =>
      cases address with
      | none => rfl
      | some a => exact absurd rfl (own label a)

theorem leads_own (grid : Grid) (ceiling : Ceiling) {p : Progress} (idle : Progress.none.Same p)
    (shallow : p.deepest ≤ CallStack.roomInText.cells + 1) (values : List Float)
    (tokens : List Token) :
    ∃ left, Leads grid ceiling (.own p values tokens)
      (.done left (Evaluator.resultFrom (cellAnswer grid ceiling) values tokens)) := by
  induction tokens generalizing p values with
  | nil => exact ⟨p, .single rfl⟩
  | cons token rest induction =>
      by_cases called : ∃ label a, token = .reference label (some a)
      · obtain ⟨label, a, rfl⟩ := called
        obtain ⟨e, led, comes⟩ := leads_answer grid _ ceiling idle shallow a
        have answered := leads_resume (some (values, rest)) led comes.answer
        rw [Evaluator.result_from_reference, cellAnswer, answer_on_path_some]
        generalize cellOnPath grid CallStack.roomInText ceiling.cells [] a = answer
          at comes answered
        cases answer with
        | error error => exact ⟨_, .head rfl answered⟩
        | ok value =>
            cases comes with
            | ended same shallow =>
                obtain ⟨left, further⟩ := induction same shallow (value :: values)
                exact ⟨left, .head rfl (answered.trans further)⟩
      · have own : ∀ label a, token ≠ .reference label (some a) := by
          intro label a same
          exact called ⟨label, a, same⟩
        have stepped := step_own_token grid ceiling own p values rest
        rw [Evaluator.result_from_own own fun _ => rfl]
        cases outcome : Machine.step Evaluator.noCell values token with
        | ok next =>
            rw [outcome] at stepped
            obtain ⟨left, further⟩ := induction idle shallow next
            exact ⟨left, .head stepped further⟩
        | error error =>
            rw [outcome] at stepped
            exact ⟨p, .single stepped⟩

theorem leads_answer (question : Question) :
    Leads grid ceiling question.start (.cleared (question.answer grid ceiling)) := by
  cases question with
  | text expression =>
      obtain ⟨left, led⟩ :=
        leads_own grid ceiling (.refl .none) (Nat.zero_le _) [] (Token.scan expression)
      exact led.tail rfl
  | cell a =>
      obtain ⟨e, led, comes⟩ := Evaluation.leads_answer grid CallStack.room ceiling
        (.refl .none) (Nat.zero_le _) a
      exact (leads_resume none led comes.answer).tail rfl

/-- A way that comes to an end is the only one. -/
theorem not_endless {s : Inquiry} {result : Except EvalError Float}
    (ends : Leads grid ceiling s (.cleared result)) {run : Nat → Inquiry} (starts : run 0 = s) :
    ¬∀ n, (run n).step grid ceiling = some (run (n + 1)) := by
  induction ends using ReflTransGen.head_induction_on generalizing run with
  | refl =>
      intro goesOn
      have stepped := goesOn 0
      rw [starts] at stepped
      cases stepped
  | head stepped _ induction =>
      intro goesOn
      have first := goesOn 0
      rw [starts, stepped] at first
      have starts : run 1 = _ := (Option.some.inj first).symm
      exact @induction (fun n => run (n + 1)) starts fun n => goesOn (n + 1)

/-- The call stack has run out, and cells that have been left are still on the stack. -/
def Spilled : Inquiry → Prop
  | .inside _ e => e.Spilled
  | .done p result => CallStack.compares = false ∧ p.stack ≠ [] ∧
      ∃ depth, result = .error (.exhausted depth)
  | .own _ _ _ | .cleared _ => False

/-- The same order outside of all calls: nothing is in progress there, unless it has been spilled. -/
def InOrder (grid : Grid) (ceiling : Ceiling) : Inquiry → Prop
  | .own p _ _ => Progress.none.Same p ∧ p.deepest ≤ CallStack.roomInText.cells + 1
  | .inside waiting e => e.InOrder grid (roomBelow waiting) ceiling
  | .done p result => p.cells = ∅ ∧ IsDescent grid ceiling p.stack ∧
      (p.stack = [] ∨ Spilled (.done p result))
  | .cleared _ => True

theorem in_order_start (question : Question) : question.start.InOrder grid ceiling := by
  cases question with
  | cell a => exact Evaluator.in_order_start CallStack.room (.refl .none) (Nat.zero_le _) a
  | text expression => exact ⟨.refl .none, Nat.zero_le _⟩

theorem in_order_done {p : Progress} (idle : Progress.none.Same p)
    (result : Except EvalError Float) : InOrder grid ceiling (.done p result) := by
  refine ⟨idle.cells, ?_, .inl idle.stack⟩
  rw [idle.stack]
  exact .nil

theorem InOrder.resumed {waiting : Option Waiting} {e : Evaluator}
    {result : Except EvalError Float} (inOrder : InOrder grid ceiling (.inside waiting e))
    (answers : e.answer? = some result) :
    InOrder grid ceiling (resume e.progress waiting result) := by
  have inOrder : e.InOrder grid (roomBelow waiting) ceiling := inOrder
  obtain ⟨p, _ | ⟨frame, callers⟩, control⟩ := e
  · cases control with
    | call _ | run _ => cases answers
    | ended ending =>
        obtain rfl := Option.some.inj answers
        have idle : Progress.none.Same p := Progress.none_holds.same (inOrder.holds nofun)
        have shallow : p.deepest ≤ (roomBelow waiting).cells + 1 := inOrder.shallow nofun
        rw [resume.eq_def]
        split
        · exact ⟨idle, shallow⟩
        · exact in_order_done idle ending
    | givenUp =>
        obtain rfl := Option.some.inj answers
        have done : InOrder grid ceiling (.done p (.error (.exhausted p.deepest))) := by
          refine ⟨inOrder.cells, inOrder.descent, inOrder.stack.imp id ?_⟩
          rintro ⟨_, apart, kept, some, stack⟩
          have same : p.stack = kept := stack
          exact ⟨apart, same ▸ some, _, rfl⟩
        rcases waiting with _ | ⟨values, rest⟩
        · exact done
        · exact done
  · cases control <;> cases answers

theorem InOrder.step {s next : Inquiry} (inOrder : s.InOrder grid ceiling)
    (stepped : s.step grid ceiling = some next) : next.InOrder grid ceiling := by
  unfold Inquiry.step at stepped
  split at stepped
  · obtain rfl := Option.some.inj stepped
    exact in_order_done inOrder.1 _
  · next p values label a rest =>
    obtain rfl := Option.some.inj stepped
    exact Evaluator.in_order_start CallStack.roomInText inOrder.1 inOrder.2 a
  · obtain rfl := Option.some.inj stepped
    split
    · exact inOrder
    · exact in_order_done inOrder.1 _
  · split at stepped
    · next answers =>
      obtain rfl := Option.some.inj stepped
      exact inOrder.resumed answers
    · obtain ⟨inner, moved, rfl⟩ := Option.map_eq_some_iff.mp stepped
      exact Evaluator.InOrder.step inOrder moved
  · obtain rfl := Option.some.inj stepped
    trivial
  · cases stepped

theorem InOrder.of_leads {s next : Inquiry} (inOrder : s.InOrder grid ceiling)
    (led : Leads grid ceiling s next) : next.InOrder grid ceiling := by
  induction led with
  | refl => exact inOrder
  | tail _ stepped induction => exact induction.step stepped

theorem InOrder.cells {s : Inquiry} (inOrder : s.InOrder grid ceiling) :
    s.progress.cells = (cellsOf s.frames).toFinset := by
  cases s with
  | own p values rest => exact inOrder.1.cells
  | inside waiting e => exact Evaluator.InOrder.cells inOrder
  | done p result => exact inOrder.1
  | cleared result => rfl

theorem InOrder.stack {s : Inquiry} (inOrder : s.InOrder grid ceiling) :
    s.progress.stack = cellsOf s.frames ∨ s.Spilled := by
  cases s with
  | own p values rest => exact .inl inOrder.1.stack
  | inside waiting e => exact Evaluator.InOrder.stack inOrder
  | done p result => exact inOrder.2.2
  | cleared result => exact .inl rfl

theorem InOrder.descent {s : Inquiry} (inOrder : s.InOrder grid ceiling) :
    IsDescent grid ceiling s.progress.stack := by
  cases s with
  | own p values rest =>
      change IsDescent grid ceiling p.stack
      rw [inOrder.1.stack]
      exact .nil
  | inside waiting e => exact Evaluator.InOrder.descent inOrder
  | done p result => exact inOrder.2.1
  | cleared result => exact .nil

/-- Set and stack in a state in which no cell has been spilled: the cells of the texts on their way,
and leaving the innermost text takes its cell away and no other. -/
structure GoTogether (s : Inquiry) : Prop where
  cells : s.progress.cells = s.progress.stack.toFinset
  texts : s.progress.stack = cellsOf s.frames
  innermost : ∀ frame outer, s.frames = frame :: outer →
    s.progress.stack.getLast? = some frame.cell ∧
    (s.progress.leave frame.cell).Holds (cellsOf outer)

/-- What is in progress in a state, and what the calls do to it. -/
structure Kept (grid : Grid) (ceiling : Ceiling) (s : Inquiry) : Prop where
  descent : IsDescent grid ceiling s.progress.stack
  bounded : s.progress.stack.length ≤ min ceiling.cells grid.addresses.length
  together : s.GoTogether ∨ s.Spilled
  texts : s.progress.cells = (cellsOf s.frames).toFinset
  /-- A call comes to an end. Whenever it has ended, set and stack are what they were; whenever it
  has been given up, the set is, and the stack is or has been spilled. -/
  returns : ∀ waiting p callers a, s = .inside waiting ⟨p, callers, .call a⟩ →
    ((∃ q result, Leads grid ceiling s (.inside waiting ⟨q, callers, .ended result⟩)) ∨
      ∃ q, Leads grid ceiling s (.inside waiting ⟨q, callers, .givenUp⟩)) ∧
    (∀ q result, Leads grid ceiling s (.inside waiting ⟨q, callers, .ended result⟩) → p.Same q) ∧
    ∀ q, Leads grid ceiling s (.inside waiting ⟨q, callers, .givenUp⟩) →
      q.cells = p.cells ∧ (q.stack = p.stack ∨ Spilled (.inside waiting ⟨q, callers, .givenUp⟩))

theorem InOrder.kept {s : Inquiry} (inOrder : s.InOrder grid ceiling) : s.Kept grid ceiling := by
  have cells := inOrder.cells
  refine ⟨inOrder.descent, inOrder.descent.length_le, ?_, cells, ?_⟩
  · rcases inOrder.stack with stack | spilled
    · refine .inl ⟨?_, stack, ?_⟩
      · rw [cells, stack]
      · intro frame outer innermost
        have descent := inOrder.descent
        rw [stack, innermost, cells_of_cons] at descent
        rw [innermost] at cells stack
        refine ⟨by rw [stack]; exact get_last_cells_of (frame :: outer), ?_⟩
        rw [cells_of_cons] at cells stack
        exact Progress.Holds.leave ⟨cells, stack⟩ descent.last_unseen
    · exact .inr spilled
  · rintro waiting p callers a rfl
    have here : Evaluator.InOrder grid (roomBelow waiting) ceiling ⟨p, callers, .call a⟩ := inOrder
    have holds := here.holds nofun
    refine ⟨?_, ?_, ?_⟩
    · obtain ⟨e, led, comes⟩ := here.call_ends
      generalize cellOnPath grid (roomBelow waiting) _ p.stack a = result at comes
      cases comes with
      | ended _ _ => exact .inl ⟨_, _, leads_inside waiting led⟩
      | givenUp _ _ => exact .inr ⟨_, leads_inside waiting led⟩
    · intro q result led
      have there : Evaluator.InOrder grid (roomBelow waiting) ceiling
          ⟨q, callers, .ended result⟩ := inOrder.of_leads led
      exact holds.same (there.holds nofun)
    · intro q led
      have there : Evaluator.InOrder grid (roomBelow waiting) ceiling
          ⟨q, callers, .givenUp⟩ := inOrder.of_leads led
      refine ⟨there.cells.trans holds.cells.symm, ?_⟩
      exact there.stack.imp_left fun stack => stack.trans holds.stack.symm

end Inquiry

/-- Whatever an evaluator is asked for, set and stack go together in every state on the way, and a
call leaves both as it found them; only where the call stack has run out, cells may be spilled. The
way comes to an end however high the ceiling is, and nothing is in progress then. -/
theorem progress_is_kept (grid : Grid) (ceiling : Ceiling) (question : Question) :
    (∀ s, Inquiry.Leads grid ceiling question.start s → s.Kept grid ceiling) ∧
    Inquiry.Leads grid ceiling question.start (.cleared (question.answer grid ceiling)) ∧
    ¬∃ run : Nat → Inquiry, run 0 = question.start ∧
      ∀ n, (run n).step grid ceiling = some (run (n + 1)) := by
  refine ⟨?_, Inquiry.leads_answer question, ?_⟩
  · intro s led
    exact ((Inquiry.in_order_start question).of_leads led).kept
  · rintro ⟨run, starts, goesOn⟩
    exact Inquiry.not_endless (Inquiry.leads_answer question) starts goesOn

end Asking

/-- Three cells are in progress when the second one is called again. A stack of a million cells would
be allowed. -/
theorem closing_call_is_kept :
    let leads := Inquiry.Leads roundSheet ⟨1000000, by decide⟩
    ∃ p callers, leads (Question.cell ⟨0, 0⟩).start (.inside none ⟨p, callers, .call ⟨1, 0⟩⟩) ∧
      p.stack = [⟨0, 0⟩, ⟨1, 0⟩, ⟨2, 0⟩] ∧
      p.stack.length ≤ min 1000000 roundSheet.addresses.length ∧
      ∀ q result, leads (.inside none ⟨p, callers, .call ⟨1, 0⟩⟩)
        (.inside none ⟨q, callers, .ended result⟩) → p.Same q := by
  intro leads
  have down : ∃ p callers,
      leads (Question.cell ⟨0, 0⟩).start (.inside none ⟨p, callers, .call ⟨1, 0⟩⟩) ∧
        p.stack = [⟨0, 0⟩, ⟨1, 0⟩, ⟨2, 0⟩] :=
    ⟨_, _, .head rfl (.head rfl (.head rfl (.head rfl (.head rfl (.single rfl))))), rfl⟩
  obtain ⟨p, callers, led, stack⟩ := down
  have kept := (progress_is_kept roundSheet ⟨1000000, by decide⟩ (.cell ⟨0, 0⟩)).1 _ led
  exact ⟨p, callers, led, stack, kept.bounded, (kept.returns none p callers _ rfl).2.1⟩

theorem call_link {p : Progress} {a b : Address} (link : grid.get? a = some b.label)
    (nameable : b.Nameable) (unseen : a ∉ p.cells) (space : ¬ceiling.cells ≤ p.stack.length)
    (room : Room) (callers : List Frame) :
    Evaluator.callStep grid room ceiling p callers a =
      if p.stack.length < room.cells then
        ⟨p.enter a, callers, .run ⟨a, [], [.reference b.label (some b)]⟩⟩
      else ⟨p.enter a, ⟨a, [], [.reference b.label (some b)]⟩ :: callers, .givenUp⟩ := by
  have bound := bound_label room nameable
  rw [Token.scan_label nameable] at bound
  simp only [Evaluator.callStep, unseen, space, link, Token.scan_label nameable, bound, if_false]

/-- Down a chain the cells are called one after the other, as far as there is room. -/
theorem chain_called [CallStack] {room : Room} {links count : Nat} (few : links < 9999)
    (inside : count ≤ links) (fits : count ≤ room.cells) (allowed : count ≤ ceiling.cells) :
    ∃ p callers, Evaluator.Leads (chainSheet links) room ceiling ⟨.none, [], .call ⟨0, 0⟩⟩
        ⟨p, callers, .call ⟨0, count⟩⟩ ∧
      p.Holds (column 0 count) ∧ callers.length = count := by
  induction count with
  | zero => exact ⟨_, _, .refl, Progress.none_holds, rfl⟩
  | succ count induction =>
      obtain ⟨p, callers, led, holds, length⟩ := induction (by omega) (by omega) (by omega)
      have nameable : Address.Nameable ⟨0, count + 1⟩ :=
        Address.nameable_of_row_lt (Nat.lt_of_le_of_lt inside few)
      have unseen : ⟨0, count⟩ ∉ p.cells := by
        rw [holds.mem_iff, mem_column]
        omega
      have depth : p.stack.length = count := by rw [holds.stack, length_column]
      have entered := call_link (chain_links 0 count (Nat.zero_le _) inside) nameable unseen
        (by omega : ¬ceiling.cells ≤ p.stack.length) room callers
      rw [if_pos (by omega : p.stack.length < room.cells)] at entered
      refine ⟨p.enter ⟨0, count⟩, ⟨⟨0, count⟩, [], []⟩ :: callers, ?_, ?_, ?_⟩
      · exact (led.tail (congrArg some entered)).tail rfl
      · rw [column_concat]
        exact holds.enter _
      · rw [List.length_cons, length]

/-- The last cell that there is no room for is entered and given up at once. Where it can not be
compared, it is taken from the set and stays on the stack. -/
theorem long_chain_is_spilled :
    let stack : CallStack := ⟨988, by decide, 1, false⟩
    ∃ s, @Inquiry.Leads stack (chainSheet 399) ⟨1000, by decide⟩ (Question.cell ⟨0, 0⟩).start s ∧
      s.progress.stack = column 0 330 ∧ s.progress.cells ≠ s.progress.stack.toFinset := by
  intro stack
  let thousand : Ceiling := ⟨1000, by decide⟩
  obtain ⟨p, callers, led, holds, length⟩ :=
    @chain_called thousand stack stack.room 399 329 (by decide) (by decide) (by decide) (by decide)
  have unseen : ⟨0, 329⟩ ∉ p.cells := by
    rw [holds.mem_iff, mem_column]
    omega
  have depth : p.stack.length = 329 := by rw [holds.stack, length_column]
  have entered := call_link (chain_links 0 329 (Nat.zero_le _) (by decide : 329 < 399)) (by decide)
    unseen (by rw [depth]; decide : ¬thousand.cells ≤ p.stack.length) stack.room callers
  rw [if_neg (by rw [depth]; decide : ¬p.stack.length < stack.room.cells)] at entered
  have left : ∀ frame : Frame,
      @Evaluator.giveUpStep stack stack.room (p.enter ⟨0, 329⟩) frame callers =
        ⟨(p.enter ⟨0, 329⟩).discard frame.cell, callers, .givenUp⟩ := by
    intro frame
    rw [Evaluator.giveUpStep, length]
    exact if_neg (by decide)
  have spilled := (led.tail (congrArg some entered)).tail (congrArg some (left _))
  refine ⟨_, @Inquiry.leads_inside _ _ stack _ _ none spilled, ?_, ?_⟩
  · rw [column_concat]
    exact (holds.enter _).stack
  · intro same
    have there : ⟨0, 329⟩ ∈ (p.enter ⟨0, 329⟩).stack.toFinset := by simp [Progress.enter]
    have gone : ⟨0, 329⟩ ∉ ((p.enter ⟨0, 329⟩).discard ⟨0, 329⟩).cells := by
      simp [Progress.discard]
    exact gone (same ▸ there)

end PostfixSheet.Evaluation
