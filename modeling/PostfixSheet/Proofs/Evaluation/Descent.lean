import PostfixSheet.Proofs.Evaluation.Calls
import PostfixSheet.Proofs.Evaluation.Trail

/-!
# The way down into a grid

The texts of cells that are on their way lead down through the grid: each but the innermost waits for
a cell that it refers to. What is in progress are the cells that they stand in, so no cell is there
twice, and there are no more of them than the ceiling or the grid has. Every step of an evaluator
keeps this order, whether it calls a cell, reads on, passes a value or an error on, or gives a text
up because the call stack has run out. If then two addresses can not even be compared where the first
cell is left, that cell stays on the stack, and so do all others below it.
-/

namespace PostfixSheet.Evaluation

open Relation (ReflTransGen)

variable {grid : Grid} {ceiling : Ceiling} {room : Room}

/-- A way down through the grid: cells of it, each of which refers to the next. None is met twice,
and there are no more of them than the ceiling allows. -/
structure IsDescent (grid : Grid) (ceiling : Ceiling) (path : List Address) : Prop where
  distinct : path.Nodup
  inside : ∀ a ∈ path, a ∈ grid.addresses
  linked : path.IsChain (References grid)
  allowed : path.length ≤ ceiling.cells

namespace IsDescent

variable {path : List Address} {a : Address}

theorem nil : IsDescent grid ceiling [] := ⟨.nil, by simp, .nil, Nat.zero_le _⟩

/-- The second bound does not depend on the ceiling. -/
theorem length_le (descent : IsDescent grid ceiling path) :
    path.length ≤ min ceiling.cells grid.addresses.length := by
  have bounded : path.length ≤ grid.addresses.length :=
    descent.distinct.length_le_of_subset descent.inside
  exact le_min descent.allowed bounded

theorem concat (descent : IsDescent grid ceiling path) (unseen : a ∉ path)
    (space : path.length < ceiling.cells) (there : a ∈ grid.addresses)
    (referred : ∀ last, path.getLast? = some last → References grid last a) :
    IsDescent grid ceiling (path ++ [a]) where
  distinct := List.nodup_append_comm.mp (List.nodup_cons.mpr ⟨unseen, descent.distinct⟩)
  inside := by
    intro b member
    rcases List.mem_append.mp member with member | member
    · exact descent.inside b member
    · rwa [List.mem_singleton.mp member]
  linked := by
    apply List.isChain_append.mpr
    refine ⟨descent.linked, .singleton a, ?_⟩
    intro last ends next first
    cases first
    exact referred last ends
  allowed := by
    rw [List.length_append, List.length_singleton]
    exact space

theorem front (descent : IsDescent grid ceiling (path ++ [a])) : IsDescent grid ceiling path where
  distinct := (List.nodup_append.mp descent.distinct).1
  inside b member := descent.inside b (List.mem_append_left [a] member)
  linked := (List.isChain_append.mp descent.linked).1
  allowed := by
    have longer := descent.allowed
    rw [List.length_append] at longer
    omega

theorem last_unseen (descent : IsDescent grid ceiling (path ++ [a])) : a ∉ path := by
  have apart := List.nodup_append_comm.mp descent.distinct
  exact (List.nodup_cons.mp apart).1

end IsDescent

/-- The tokens to come are the end of the text that stands in the cell. -/
def Frame.Reads (grid : Grid) (frame : Frame) : Prop :=
  ∃ text, grid.get? frame.cell = some text ∧ frame.rest <:+ Token.scan text

/-- The cells that texts on their way stand in, from the last text to the first. -/
def cellsOf (frames : List Frame) : List Address := (frames.map Frame.cell).reverse

theorem cells_of_cons (frame : Frame) (frames : List Frame) :
    cellsOf (frame :: frames) = cellsOf frames ++ [frame.cell] := by
  rw [cellsOf, List.map_cons, List.reverse_cons, cellsOf]

theorem get_last_cells_of (frames : List Frame) :
    (cellsOf frames).getLast? = frames.head?.map Frame.cell := by
  rw [cellsOf, List.getLast?_reverse, List.head?_map]

theorem length_cells_of (frames : List Frame) : (cellsOf frames).length = frames.length := by
  rw [cellsOf, List.length_reverse, List.length_map]

/-- There was room for each text below those further out. -/
def Readable (grid : Grid) (room : Room) : List Frame → Prop
  | [] => True
  | frame :: outer => ¬Unread grid room outer.length frame.cell ∧ Readable grid room outer

theorem Readable.length_le {frame : Frame} {outer : List Frame} {a : Address}
    (readable : Readable grid room (frame :: outer)) (refers : References grid frame.cell a) :
    (frame :: outer).length ≤ room.cells := by
  refine Nat.lt_of_not_le fun full => readable.1 ?_
  obtain ⟨text, found⟩ := Grid.mem_addresses_iff.mp refers.inside
  rw [← refers.bound found] at full
  exact ⟨text, found, full⟩

/-- In progress are the cells of a path, and nothing else. -/
structure Progress.Holds (p : Progress) (path : List Address) : Prop where
  cells : p.cells = path.toFinset
  stack : p.stack = path

namespace Progress.Holds

variable {p : Progress} {path : List Address} {a : Address}

theorem mem_iff (holds : p.Holds path) : a ∈ p.cells ↔ a ∈ path := by
  rw [holds.cells, List.mem_toFinset]

theorem agrees (holds : p.Holds path) : p.Agrees := by
  intro a
  rw [holds.mem_iff, holds.stack]

theorem same {q : Progress} (holds : p.Holds path) (too : q.Holds path) : p.Same q :=
  ⟨too.cells.trans holds.cells.symm, too.stack.trans holds.stack.symm⟩

theorem enter (holds : p.Holds path) (a : Address) : (p.enter a).Holds (path ++ [a]) := by
  constructor
  · ext b
    simp only [Progress.enter, holds.cells, Finset.mem_insert, List.mem_toFinset, List.mem_append,
      List.mem_singleton, or_comm]
  · rw [Progress.enter, holds.stack]

end Progress.Holds

theorem Progress.none_holds : Progress.none.Holds [] := ⟨rfl, rfl⟩

/-- A cell that is left after those above it goes from the set. -/
theorem Progress.discard_cells {p : Progress} {path : List Address} {a : Address}
    (cells : p.cells = (path ++ [a]).toFinset) (unseen : a ∉ path) :
    (p.discard a).cells = path.toFinset := by
  ext b
  simp only [Progress.discard, cells, Finset.mem_erase, List.mem_toFinset, List.mem_append,
    List.mem_singleton]
  constructor
  · rintro ⟨other, member⟩
    exact member.resolve_right other
  · intro member
    exact ⟨fun same => unseen (same ▸ member), .inl member⟩

/-- The guard of the stack lets the last cell go, since it is that of the text that is left. -/
theorem Progress.Holds.leave {p : Progress} {path : List Address} {a : Address}
    (holds : p.Holds (path ++ [a])) (unseen : a ∉ path) : (p.leave a).Holds path where
  cells := Progress.discard_cells holds.cells unseen
  stack := by
    rw [Progress.leave, holds.stack]
    simp

/-- The guard holds the stack fast where the last cell is another one. -/
theorem Progress.leave_stack {p : Progress} {front back : List Address} {a : Address}
    (stack : p.stack = front ++ a :: back) (distinct : p.stack.Nodup) (more : back ≠ []) :
    (p.leave a).stack = p.stack := by
  have last : p.stack.getLast? ≠ some a := by
    intro ends
    rw [stack] at ends distinct
    rw [List.getLast?_append_cons, List.getLast?_cons_of_ne_nil more] at ends
    have apart := (List.nodup_append.mp distinct).2.1
    exact (List.nodup_cons.mp apart).1 (List.mem_of_getLast? ends)
  rw [Progress.leave]
  exact if_neg last

namespace Evaluator

/-- The texts on their way, the innermost first. -/
def frames (e : Evaluator) : List Frame :=
  match e.control with
  | .run frame => frame :: e.callers
  | .call _ | .ended _ | .givenUp => e.callers

/-- The call stack has run out, and cells that have been left are still on the stack. -/
structure Spilled [CallStack] (e : Evaluator) : Prop where
  gaveUp : e.control = .givenUp
  apart : CallStack.compares = false
  stack : ∃ kept, kept ≠ [] ∧ e.progress.stack = cellsOf e.frames ++ kept

/-- The texts on their way lead down through the grid, and what is in progress are their cells. -/
structure InOrder [CallStack] (grid : Grid) (room : Room) (ceiling : Ceiling) (e : Evaluator) :
    Prop where
  cells : e.progress.cells = (cellsOf e.frames).toFinset
  stack : e.progress.stack = cellsOf e.frames ∨ e.Spilled
  descent : IsDescent grid ceiling e.progress.stack
  reads : ∀ frame ∈ e.frames, frame.Reads grid
  referred : ∀ a caller, e.control = .call a → e.callers.head? = some caller →
    References grid caller.cell a
  readable : e.control ≠ .givenUp → Readable grid room e.frames
  shallow : e.control ≠ .givenUp → e.progress.deepest ≤ room.cells + 1

variable [CallStack] {e next : Evaluator} {p : Progress} {callers : List Frame} {frame : Frame}
  {a : Address} {result : Except EvalError Float}

/-- As long as no text is given up, set and stack hold the same. -/
theorem InOrder.holds (inOrder : InOrder grid room ceiling e) (goesOn : e.control ≠ .givenUp) :
    e.progress.Holds (cellsOf e.frames) :=
  ⟨inOrder.cells, inOrder.stack.resolve_right fun spilled => goesOn spilled.gaveUp⟩

theorem InOrder.descent_of_holds (inOrder : InOrder grid room ceiling e)
    (goesOn : e.control ≠ .givenUp) : IsDescent grid ceiling (cellsOf e.frames) := by
  rw [← (inOrder.holds goesOn).stack]
  exact inOrder.descent

theorem in_order_start (room : Room) {p : Progress} (idle : Progress.none.Same p)
    (shallow : p.deepest ≤ room.cells + 1) (a : Address) :
    InOrder grid room ceiling ⟨p, [], .call a⟩ where
  cells := idle.cells
  stack := .inl idle.stack
  descent := by
    change IsDescent grid ceiling p.stack
    rw [idle.stack]
    exact .nil
  reads := by simp [frames]
  referred := nofun
  readable := fun _ => trivial
  shallow := fun _ => shallow

/-- A call that is refused changes nothing that is in progress. -/
theorem InOrder.refused (inOrder : InOrder grid room ceiling ⟨p, callers, .call a⟩) :
    InOrder grid room ceiling ⟨p, callers, .ended result⟩ where
  cells := inOrder.cells
  stack := .inl (inOrder.holds nofun).stack
  descent := inOrder.descent
  reads := inOrder.reads
  referred := nofun
  readable := fun _ => inOrder.readable nofun
  shallow := fun _ => inOrder.shallow nofun

/-- A cell is called from a text that refers to it and that there was room for. -/
theorem InOrder.called_within (inOrder : InOrder grid room ceiling ⟨p, callers, .call a⟩) :
    p.stack.length ≤ room.cells := by
  have readable : Readable grid room callers := inOrder.readable nofun
  rw [(inOrder.holds nofun).stack, frames, length_cells_of]
  cases callers with
  | nil => exact Nat.zero_le _
  | cons caller outer => exact readable.length_le (inOrder.referred a caller rfl rfl)

/-- A cell is entered, whether its text can be read or not. -/
theorem InOrder.entered (inOrder : InOrder grid room ceiling ⟨p, callers, .call a⟩)
    (unseen : a ∉ p.cells) (space : ¬ceiling.cells ≤ p.stack.length) {text : Text}
    (found : grid.get? a = some text) {control : Control} {others : List Frame}
    (same : frames ⟨p.enter a, others, control⟩ = ⟨a, [], Token.scan text⟩ :: callers)
    (called : ∀ b, control ≠ .call b)
    (fits : control ≠ .givenUp → p.stack.length < room.bound (Token.scan text)) :
    InOrder grid room ceiling ⟨p.enter a, others, control⟩ := by
  have holds : p.Holds (cellsOf callers) := inOrder.holds nofun
  have entered : (p.enter a).Holds (cellsOf callers ++ [a]) := holds.enter a
  have descent : IsDescent grid ceiling (cellsOf callers) := inOrder.descent_of_holds nofun
  refine ⟨?_, .inl ?_, ?_, ?_, fun b _ isCall => absurd isCall (called b), ?_, fun _ => ?_⟩
  · rw [same, cells_of_cons]
    exact entered.cells
  · rw [same, cells_of_cons]
    exact entered.stack
  · change IsDescent grid ceiling (p.enter a).stack
    rw [holds.stack] at space
    rw [entered.stack]
    apply descent.concat
    · exact mt holds.mem_iff.mpr unseen
    · exact Nat.lt_of_not_le space
    · exact Grid.mem_addresses_iff.mpr ⟨text, found⟩
    · intro last ends
      rw [get_last_cells_of, Option.map_eq_some_iff] at ends
      obtain ⟨caller, innermost, rfl⟩ := ends
      exact inOrder.referred a caller rfl innermost
  · rw [same]
    intro frame member
    rcases List.mem_cons.mp member with rfl | member
    · exact ⟨text, found, List.suffix_refl _⟩
    · exact inOrder.reads frame member
  · intro goesOn
    have space := fits goesOn
    rw [holds.stack, length_cells_of] at space
    rw [same]
    refine ⟨?_, inOrder.readable nofun⟩
    rintro ⟨other, foundAgain, full⟩
    obtain rfl : text = other := Option.some.inj (found.symm.trans foundAgain)
    exact absurd space (Nat.not_lt.mpr full)
  · exact max_le (inOrder.shallow nofun) (Nat.succ_le_succ inOrder.called_within)

theorem InOrder.call_step (inOrder : InOrder grid room ceiling ⟨p, callers, .call a⟩) :
    InOrder grid room ceiling (callStep grid room ceiling p callers a) := by
  rw [callStep]
  split
  · exact inOrder.refused
  · next unseen =>
    split
    · exact inOrder.refused
    · next space =>
      cases found : grid.get? a with
      | none => exact inOrder.refused
      | some text =>
          by_cases readable : p.stack.length < room.bound (Token.scan text)
          · simp only [readable, if_true]
            apply inOrder.entered unseen space found rfl
            · intro b called
              cases called
            · intro _
              exact readable
          · simp only [readable, if_false]
            apply inOrder.entered unseen space found rfl
            · intro b called
              cases called
            · intro goesOn
              exact absurd rfl goesOn

theorem InOrder.left (inOrder : InOrder grid room ceiling e) (goesOn : e.control ≠ .givenUp)
    (innermost : e.frames = frame :: callers) :
    InOrder grid room ceiling ⟨e.progress.leave frame.cell, callers, .ended result⟩ := by
  have holds := inOrder.holds goesOn
  have descent := inOrder.descent_of_holds goesOn
  have readable := inOrder.readable goesOn
  rw [innermost, cells_of_cons] at holds descent
  rw [innermost] at readable
  have left : (e.progress.leave frame.cell).Holds (cellsOf callers) :=
    holds.leave descent.last_unseen
  refine ⟨left.cells, .inl left.stack, ?_, ?_, nofun, fun _ => readable.2,
    fun _ => inOrder.shallow goesOn⟩
  · change IsDescent grid ceiling (e.progress.leave frame.cell).stack
    rw [left.stack]
    exact descent.front
  · intro other member
    exact inOrder.reads other (by rw [innermost]; exact List.mem_cons_of_mem frame member)

/-- Reading on in the innermost text, or waiting in it, changes nothing that is in progress. -/
theorem InOrder.goes_on (inOrder : InOrder grid room ceiling e) (goesOn : e.control ≠ .givenUp)
    (innermost : e.frames = frame :: callers) {rest : List Token} (further : rest <:+ frame.rest)
    (values : List Float) :
    InOrder grid room ceiling ⟨e.progress, callers, .run ⟨frame.cell, values, rest⟩⟩ := by
  have holds := inOrder.holds goesOn
  have readable := inOrder.readable goesOn
  rw [innermost] at holds readable
  refine ⟨holds.cells, .inl holds.stack, inOrder.descent, ?_, nofun, fun _ => readable,
    fun _ => inOrder.shallow goesOn⟩
  intro other member
  rcases List.mem_cons.mp member with rfl | member
  · obtain ⟨text, found, scanned⟩ := inOrder.reads frame (by simp [innermost])
    exact ⟨text, found, further.trans scanned⟩
  · exact inOrder.reads other (by simp [innermost, member])

theorem InOrder.waits (inOrder : InOrder grid room ceiling ⟨p, callers, .run frame⟩)
    (refers : References grid frame.cell a) :
    InOrder grid room ceiling ⟨p, frame :: callers, .call a⟩ where
  cells := inOrder.cells
  stack := .inl (inOrder.holds nofun).stack
  descent := inOrder.descent
  reads := inOrder.reads
  referred := by
    intro b caller called innermost
    cases called
    cases innermost
    exact refers
  readable := fun _ => inOrder.readable nofun
  shallow := fun _ => inOrder.shallow nofun

theorem InOrder.run_step (inOrder : InOrder grid room ceiling ⟨p, callers, .run frame⟩) :
    InOrder grid room ceiling (runStep p callers frame) := by
  obtain ⟨cell, values, tokens⟩ := frame
  rw [runStep]
  split
  · exact inOrder.left nofun rfl
  · next label b rest same =>
    have same : tokens = .reference label (some b) :: rest := same
    obtain ⟨text, found, scanned⟩ := inOrder.reads _ (List.mem_cons_self ..)
    have refers : References grid cell b := by
      refine ⟨text, label, found, scanned.subset ?_⟩
      rw [same]
      exact List.mem_cons_self ..
    have further : InOrder grid room ceiling ⟨p, callers, .run ⟨cell, values, rest⟩⟩ :=
      inOrder.goes_on nofun rfl (same ▸ List.suffix_cons _ rest) values
    exact further.waits refers
  · next token rest _ same =>
    cases Machine.step noCell values token with
    | ok next => exact inOrder.goes_on nofun rfl (same ▸ List.suffix_cons token rest) next
    | error error => exact inOrder.left nofun rfl

theorem in_order_given_up (cells : p.cells = (cellsOf callers).toFinset)
    (stack : p.stack = cellsOf callers ∨ Spilled ⟨p, callers, .givenUp⟩)
    (descent : IsDescent grid ceiling p.stack) (reads : ∀ frame ∈ callers, frame.Reads grid) :
    InOrder grid room ceiling ⟨p, callers, .givenUp⟩ where
  cells := cells
  stack := stack
  descent := descent
  reads := reads
  referred := by
    intro b caller called
    cases called
  readable := fun goesOn => absurd rfl goesOn
  shallow := fun goesOn => absurd rfl goesOn

/-- On the stack, the cell of a text that is given up has only spilled ones above it. -/
theorem InOrder.held (inOrder : InOrder grid room ceiling ⟨p, frame :: callers, .givenUp⟩) :
    ∃ kept, p.stack = cellsOf callers ++ frame.cell :: kept ∧
      (kept ≠ [] → CallStack.compares = false) := by
  rcases inOrder.stack with stack | ⟨_, apart, kept, _, stack⟩
  · refine ⟨[], ?_, fun more => absurd rfl more⟩
    rw [← cells_of_cons]
    exact stack
  · refine ⟨kept, ?_, fun _ => apart⟩
    rw [List.append_cons, ← cells_of_cons]
    exact stack

/-- A text that is given up takes its cell from the set. The stack gives its last cell up too, or
keeps all that it holds. -/
theorem InOrder.give_up_step (inOrder : InOrder grid room ceiling ⟨p, frame :: callers, .givenUp⟩) :
    InOrder grid room ceiling (giveUpStep room p frame callers) := by
  have reads : ∀ other ∈ callers, other.Reads grid :=
    fun other member => inOrder.reads other (List.mem_cons_of_mem frame member)
  have cells : p.cells = (cellsOf callers ++ [frame.cell]).toFinset := by
    rw [← cells_of_cons]
    exact inOrder.cells
  have descent : IsDescent grid ceiling p.stack := inOrder.descent
  obtain ⟨kept, stack, apart⟩ := inOrder.held
  have unseen : frame.cell ∉ cellsOf callers := by
    have distinct := descent.distinct
    rw [stack, List.nodup_append] at distinct
    intro seen
    exact distinct.2.2 _ seen _ List.mem_cons_self rfl
  have spilled : ∀ {q : Progress}, CallStack.compares = false → q.stack = p.stack →
      Spilled ⟨q, callers, .givenUp⟩ := by
    intro q apart same
    exact ⟨rfl, apart, frame.cell :: kept, by simp, same.trans stack⟩
  have left : (p.discard frame.cell).cells = (cellsOf callers).toFinset :=
    Progress.discard_cells cells unseen
  unfold giveUpStep
  split
  · by_cases more : kept = []
    · subst more
      have holds : p.Holds (cellsOf callers ++ [frame.cell]) := ⟨cells, stack⟩
      have idle := holds.leave unseen
      apply in_order_given_up idle.cells (.inl idle.stack) ?_ reads
      rw [stack] at descent
      rw [idle.stack]
      exact descent.front
    · have same := Progress.leave_stack stack descent.distinct more
      have stays : (p.leave frame.cell).cells = (cellsOf callers).toFinset := left
      apply in_order_given_up stays (.inr (spilled (apart more) same)) ?_ reads
      rw [same]
      exact descent
  · next short =>
    have apart : CallStack.compares = false := by
      cases compares : CallStack.compares with
      | false => rfl
      | true => exact absurd (.inr compares) short
    exact in_order_given_up left (.inr (spilled apart rfl)) descent reads

/-- One step keeps the order, whatever is called, read, passed on or given up. -/
theorem InOrder.step (inOrder : InOrder grid room ceiling e)
    (stepped : e.step grid room ceiling = some next) : InOrder grid room ceiling next := by
  obtain ⟨p, callers, control⟩ := e
  cases control with
  | call a =>
      obtain rfl := Option.some.inj stepped
      exact inOrder.call_step
  | run frame =>
      obtain rfl := Option.some.inj stepped
      exact inOrder.run_step
  | ended result =>
      cases callers with
      | nil => exact absurd stepped (not_step_of_answer rfl)
      | cons frame callers =>
          cases result with
          | ok value =>
              obtain rfl := Option.some.inj stepped
              exact inOrder.goes_on nofun rfl (List.suffix_refl _) (value :: frame.values)
          | error error =>
              obtain rfl := Option.some.inj stepped
              exact inOrder.left nofun rfl
  | givenUp =>
      cases callers with
      | nil => exact absurd stepped (not_step_of_answer rfl)
      | cons frame callers =>
          obtain rfl := Option.some.inj stepped
          exact inOrder.give_up_step

/-- A call comes to an end, if only because it is given up. -/
theorem InOrder.call_ends (inOrder : InOrder grid room ceiling ⟨p, callers, .call a⟩) :
    ∃ e, Leads grid room ceiling ⟨p, callers, .call a⟩ e ∧
      Comes room p callers
        (cellOnPath grid room (ceiling.cells - p.stack.length) p.stack a) e := by
  have holds : p.Holds (cellsOf callers) := inOrder.holds nofun
  have allowed : p.stack.length ≤ ceiling.cells := inOrder.descent.allowed
  exact call_leads holds.agrees (Nat.add_sub_cancel' allowed) (inOrder.shallow nofun)
    inOrder.called_within callers a

end Evaluator

end PostfixSheet.Evaluation
