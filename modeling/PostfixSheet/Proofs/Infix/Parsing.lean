import PostfixSheet.Infix.Reading
import PostfixSheet.Proofs.Infix.Grammar
import PostfixSheet.Proofs.Infix.Lexing
import Mathlib.Logic.Basic

/-!
# Reading follows the grammar

Reading lexeme by lexeme, with a stack of what waits for an operand, accepts exactly the rows of
lexemes that have a derivation, and ends with the tree of operations of that derivation. One way, a
derivation is read off the stack, piece by piece as the stack grows. The other way, a derivation is
read in from any stack on which nothing binds tighter than it does.
-/

namespace PostfixSheet.Infix

open Category (part)

namespace Partial

def readAll (p : Partial) (lexemes : List Lexeme) : Option Partial := lexemes.foldlM read p

theorem read_all_cons (p : Partial) (lexeme : Lexeme) (lexemes : List Lexeme) :
    p.readAll (lexeme :: lexemes) = (p.read lexeme).bind (·.readAll lexemes) := by
  simp [readAll, Option.bind_eq_bind]

theorem read_all_append (p : Partial) (front back : List Lexeme) :
    p.readAll (front ++ back) = (p.readAll front).bind (·.readAll back) := by
  simp [readAll, Option.bind_eq_bind]

theorem binds_before_eq (next : Operator) : bindsBefore next = next.binding.takes := by
  funext op
  cases next <;> cases op <;> rfl

theorem finish_taken {tight : Operator → Bool} {op : Operator} (taken : tight op = true)
    (left : Expression) (waiting : List Waiting) (e : Expression) :
    finish tight (.binary op left :: waiting) e = finish tight waiting (.binary op left e) := by
  rw [finish, if_pos taken]

theorem finish_left {tight : Operator → Bool} {op : Operator} (untaken : tight op = false)
    (left : Expression) (waiting : List Waiting) (e : Expression) :
    finish tight (.binary op left :: waiting) e = (.binary op left :: waiting, e) := by
  rw [finish, if_neg (by simp [untaken])]

theorem settle_of_no_minus {waiting : List Waiting} (noMinus : waiting.head? ≠ some .negation)
    (e : Expression) : settle waiting e = ⟨waiting, some e⟩ := by
  cases waiting with
  | nil => rfl
  | cons top waiting =>
      cases top with
      | group => rfl
      | negation => exact absurd rfl noMinus
      | binary op left => rfl

theorem read_operator (waiting : List Waiting) (e : Expression) (op : Operator) :
    read ⟨waiting, some e⟩ (.operator op) =
      some ⟨.binary op (finish op.binding.takes waiting e).2 ::
        (finish op.binding.takes waiting e).1, none⟩ := by
  rw [← binds_before_eq]
  rfl

end Partial

/-- Reading placed lexemes ends with an expression if the scan got to the end and every lexeme could
be read. -/
theorem read_from_ok_iff {p : Partial} {last : Spot} {stop : Option (Char × Spot)}
    {placed : List Placed} {e : Expression} :
    readFrom p last stop placed = .ok e ↔
      stop = none ∧ ∃ q, p.readAll (placed.map Placed.lexeme) = some q ∧ q.result? = some e := by
  induction placed generalizing p last with
  | nil =>
      cases stop with
      | some found => simp [readFrom]
      | none =>
          cases ended : p.result? <;> simp [readFrom, Partial.readAll, ended]
  | cons first placed induction =>
      rw [readFrom, List.map_cons, Partial.read_all_cons]
      cases p.read first.lexeme with
      | none => simp
      | some q => simpa using induction

/-- The lexemes have a derivation with the given tree of operations. -/
def Derives (category : Category) (lexemes : List Lexeme) (e : Expression) : Prop :=
  ∃ tree : Derivation category, tree.lexemes = lexemes ∧ tree.expression = e

/-! From the stack to a derivation -/

/-- The lexemes that a stack stands for, and the category that it waits for. -/
inductive Awaits : List Waiting → List Lexeme → Category → Prop
  | start : Awaits [] [] .expr
  | group {waiting : List Waiting} {front : List Lexeme} {category : Category}
      (before : Awaits waiting front category) :
      Awaits (.group :: waiting) (front ++ [.opening]) .expr
  | negation {waiting : List Waiting} {front : List Lexeme} {category : Category}
      (before : Awaits waiting front category) :
      Awaits (.negation :: waiting) (front ++ [.operator .minus]) .unary
  | sum {waiting : List Waiting} {front : List Lexeme} {op : Operator}
      (before : Awaits waiting front .expr) (left : Derivation .expr)
      (bound : op.binding = .loose) :
      Awaits (.binary op left.expression :: waiting) (front ++ left.lexemes ++ [.operator op]) .term
  | product {waiting : List Waiting} {front : List Lexeme} {op : Operator} {binding : Binding}
      (before : Awaits waiting front (.chain binding)) (left : Derivation .term)
      (bound : op.binding = .tight) :
      Awaits (.binary op left.expression :: waiting) (front ++ left.lexemes ++ [.operator op])
        .unary

/-- What has been read makes an expression in the making. -/
inductive Holds : Partial → List Lexeme → Prop
  | waiting {waiting : List Waiting} {front : List Lexeme} {category : Category}
      (before : Awaits waiting front category) : Holds ⟨waiting, none⟩ front
  | operand {waiting : List Waiting} {front : List Lexeme} {category : Category}
      (before : Awaits waiting front category) (noMinus : waiting.head? ≠ some .negation)
      (last : Derivation .unary) : Holds ⟨waiting, some last.expression⟩ (front ++ last.lexemes)

theorem settle_holds {waiting : List Waiting} {front : List Lexeme} {category : Category}
    (before : Awaits waiting front category) (last : Derivation .unary) :
    Holds (Partial.settle waiting last.expression) (front ++ last.lexemes) := by
  induction before generalizing last with
  | start => exact .operand .start (by simp) last
  | group before _ => exact .operand (.group before) (by simp) last
  | negation before induction =>
      -- a minus sign on top takes the operand, and the signs below it are used up in the same way
      have negated := induction (.negate last)
      rw [List.append_assoc]
      exact negated
  | sum before left bound _ => exact .operand (.sum before left bound) (by simp) last
  | product before left bound _ => exact .operand (.product before left bound) (by simp) last

theorem finish_chain {waiting : List Waiting} {front : List Lexeme} {binding : Binding}
    (before : Awaits waiting front (.chain binding)) (e : Expression) :
    Partial.finish Binding.tight.takes waiting e = (waiting, e) := by
  cases before with
  | start => rfl
  | group before => rfl
  | sum before left bound => exact Partial.finish_left (Binding.not_tight_takes bound) _ _ _

theorem finish_expr {waiting : List Waiting} {front : List Lexeme}
    (before : Awaits waiting front .expr) (tight : Operator → Bool) (e : Expression) :
    Partial.finish tight waiting e = (waiting, e) := by
  cases before with
  | start => rfl
  | group before => rfl

theorem finish_loose_after_tight (waiting : List Waiting) (e : Expression) :
    Partial.finish Binding.loose.takes waiting e =
      Partial.finish Binding.loose.takes (Partial.finish Binding.tight.takes waiting e).1
        (Partial.finish Binding.tight.takes waiting e).2 := by
  induction waiting generalizing e with
  | nil => rfl
  | cons top waiting induction =>
      cases top with
      | group => rfl
      | negation => rfl
      | binary op left =>
          cases taken : Binding.tight.takes op with
          | true =>
              rw [Partial.finish_taken rfl, Partial.finish_taken taken]
              exact induction _
          | false => rw [Partial.finish_left taken]

section Operand

variable {waiting : List Waiting} {front : List Lexeme} {category : Category}
  (before : Awaits waiting front category) (noMinus : waiting.head? ≠ some .negation)
  (last : Derivation .unary)

include before noMinus

/-- The operators before an operand that bind tightly make a term of it. -/
theorem finish_tight :
    ∃ rest others binding, ∃ term : Derivation .term,
      Partial.finish Binding.tight.takes waiting last.expression = (rest, term.expression) ∧
        Awaits rest others (.chain binding) ∧
        others ++ term.lexemes = front ++ last.lexemes := by
  cases before with
  | start => exact ⟨[], [], .loose, .single last, rfl, .start, rfl⟩
  | group before => exact ⟨_, _, .loose, .single last, rfl, .group before, rfl⟩
  | negation before => exact absurd rfl noMinus
  | sum before left bound =>
      refine ⟨_, _, .tight, .single last, ?_, .sum before left bound, rfl⟩
      exact Partial.finish_left (Binding.not_tight_takes bound) _ _ _
  | product before left bound =>
      -- what waits below a product waits for a whole term, so nothing more is taken
      refine ⟨_, _, _, .link left _ bound last, ?_, before, ?_⟩
      · rw [Partial.finish_taken (Binding.takes_of_binding bound)]
        exact finish_chain before _
      · exact Derivation.append_lexemes_link _ left _ bound last

/-- All operators before an operand, up to the last open parenthesis, make an expression of it. -/
theorem finish_loose :
    ∃ rest others, ∃ whole : Derivation .expr,
      Partial.finish Binding.loose.takes waiting last.expression = (rest, whole.expression) ∧
        Awaits rest others .expr ∧ others ++ whole.lexemes = front ++ last.lexemes := by
  obtain ⟨rest, others, binding, term, finished, before, same⟩ := finish_tight before noMinus last
  rw [finish_loose_after_tight, finished]
  cases before with
  | start => exact ⟨[], [], .single term, rfl, .start, same⟩
  | group before => exact ⟨_, _, .single term, rfl, .group before, same⟩
  | sum before left bound =>
      refine ⟨_, _, .link left _ bound term, ?_, before, ?_⟩
      · rw [Partial.finish_taken rfl]
        exact finish_expr before _ _
      · rw [← same]
        exact Derivation.append_lexemes_link _ left _ bound term

/-- An operator after an operand waits with all that it binds less tightly than. -/
theorem read_operator_holds {q : Partial} {op : Operator}
    (read : Partial.read ⟨waiting, some last.expression⟩ (.operator op) = some q) :
    Holds q (front ++ last.lexemes ++ [.operator op]) := by
  rw [Partial.read_operator] at read
  cases bound : op.binding with
  | loose =>
      obtain ⟨rest, others, whole, finished, before, same⟩ := finish_loose before noMinus last
      rw [bound, finished] at read
      cases read
      rw [← same]
      exact .waiting (.sum before whole bound)
  | tight =>
      obtain ⟨rest, others, binding, term, finished, before, same⟩ :=
        finish_tight before noMinus last
      rw [bound, finished] at read
      cases read
      rw [← same]
      exact .waiting (.product before term bound)

/-- A closing parenthesis makes an operand of all that was read since the one that it closes. -/
theorem read_closing_holds {q : Partial}
    (read : Partial.read ⟨waiting, some last.expression⟩ .closing = some q) :
    Holds q (front ++ last.lexemes ++ [.closing]) := by
  obtain ⟨rest, others, whole, finished, before, same⟩ := finish_loose before noMinus last
  have finishedAll : Partial.finish (fun _ => true) waiting last.expression =
      (rest, whole.expression) := finished
  simp only [Partial.read, finishedAll] at read
  rw [← same]
  cases before with
  | start => cases read
  | group before =>
      cases read
      have grouped := settle_holds before (.atom (.group whole))
      simpa [Derivation.lexemes, Derivation.expression] using grouped

theorem read_after_operand_holds {q : Partial} {lexeme : Lexeme}
    (read : Partial.read ⟨waiting, some last.expression⟩ lexeme = some q) :
    Holds q (front ++ last.lexemes ++ [lexeme]) := by
  cases lexeme with
  | number literal => cases read
  | label text => cases read
  | opening => cases read
  | operator op => exact read_operator_holds before noMinus last read
  | closing => exact read_closing_holds before noMinus last read

end Operand

theorem read_waiting_holds {waiting : List Waiting} {front : List Lexeme} {category : Category}
    (before : Awaits waiting front category) {q : Partial} {lexeme : Lexeme}
    (read : Partial.read ⟨waiting, none⟩ lexeme = some q) : Holds q (front ++ [lexeme]) := by
  cases lexeme with
  | number literal =>
      cases read
      exact settle_holds before (.atom (.number literal))
  | label text =>
      cases read
      exact settle_holds before (.atom (.label text))
  | operator op =>
      cases op with
      | minus =>
          cases read
          exact .waiting (.negation before)
      | _ => cases read
  | opening =>
      cases read
      exact .waiting (.group before)
  | closing => cases read

theorem read_holds {p q : Partial} {front : List Lexeme} {lexeme : Lexeme} (holds : Holds p front)
    (read : p.read lexeme = some q) : Holds q (front ++ [lexeme]) := by
  cases holds with
  | waiting before => exact read_waiting_holds before read
  | operand before noMinus last => exact read_after_operand_holds before noMinus last read

theorem read_all_holds {p q : Partial} {front lexemes : List Lexeme} (holds : Holds p front)
    (read : p.readAll lexemes = some q) : Holds q (front ++ lexemes) := by
  induction lexemes generalizing p front with
  | nil =>
      cases read
      rwa [List.append_nil]
  | cons lexeme lexemes induction =>
      rw [Partial.read_all_cons] at read
      obtain ⟨next, first, further⟩ := Option.bind_eq_some_iff.mp read
      have reached := induction (read_holds holds first) further
      rwa [List.append_assoc] at reached

theorem derives_of_result {p : Partial} {front : List Lexeme} {e : Expression}
    (holds : Holds p front) (ended : p.result? = some e) : Derives .expr front e := by
  cases holds with
  | waiting before => cases ended
  | @operand waiting front category before noMinus last =>
      obtain ⟨rest, others, whole, finished, before, same⟩ := finish_loose before noMinus last
      have finishedAll : Partial.finish (fun _ => true) waiting last.expression =
          (rest, whole.expression) := finished
      simp only [Partial.result?, finishedAll] at ended
      cases before with
      | start =>
          cases ended
          exact ⟨whole, by simpa using same, rfl⟩
      | group before => cases ended

/-! From a derivation to the stack -/

/-- On the stack nothing waits that would take an operand of the binding. -/
def Idle (binding : Binding) (waiting : List Waiting) : Prop :=
  waiting.head? ≠ some .negation ∧
    ∀ op left, waiting.head? = some (.binary op left) → binding.takes op = false

theorem Idle.finish {binding : Binding} {waiting : List Waiting} (idle : Idle binding waiting)
    (e : Expression) : Partial.finish binding.takes waiting e = (waiting, e) := by
  cases waiting with
  | nil => rfl
  | cons top waiting =>
      cases top with
      | group => rfl
      | negation => rfl
      | binary op left => exact Partial.finish_left (idle.2 op left rfl) left waiting e

/-- From a stack on which nothing takes a part of the chain, the part is read to an operand that all
operators of the chain's binding, and of any looser one, treat as they treat the whole part. -/
def ReadsIn (binding : Binding) (waiting : List Waiting) (lexemes : List Lexeme)
    (e : Expression) : Prop :=
  ∃ rest operand, Partial.readAll ⟨waiting, none⟩ lexemes = some ⟨rest, some operand⟩ ∧
    ∀ looser : Binding, (∀ op, binding.takes op = true → looser.takes op = true) →
      Partial.finish looser.takes rest operand = Partial.finish looser.takes waiting e

/-- What the induction over a derivation carries. -/
def Read : {category : Category} → Derivation category → Prop
  | .chain binding, tree =>
      ∀ waiting, Idle binding waiting → ReadsIn binding waiting tree.lexemes tree.expression
  | .unary, tree => ∀ waiting, Partial.readAll ⟨waiting, none⟩ tree.lexemes =
      some (Partial.settle waiting tree.expression)
  | .atom, tree => ∀ waiting, Partial.readAll ⟨waiting, none⟩ tree.lexemes =
      some (Partial.settle waiting tree.expression)

theorem Read.reads_in_part {binding : Binding} {tree : Derivation (part binding)} (read : Read tree)
    {waiting : List Waiting} (noMinus : waiting.head? ≠ some .negation)
    (free : ∀ op left, waiting.head? = some (.binary op left) → binding = .loose →
      op.binding = .loose) :
    ReadsIn binding waiting tree.lexemes tree.expression := by
  cases binding with
  | tight =>
      refine ⟨waiting, tree.expression, ?_, fun _ _ => rfl⟩
      rw [← Partial.settle_of_no_minus noMinus]
      exact read waiting
  | loose =>
      have idle : Idle .tight waiting := by
        refine ⟨noMinus, ?_⟩
        intro op left top
        exact Binding.not_tight_takes (free op left top rfl)
      obtain ⟨rest, operand, reads, treats⟩ := read waiting idle
      refine ⟨rest, operand, reads, ?_⟩
      intro looser wider
      exact treats looser fun op _ => wider op rfl

theorem read_link {binding : Binding} {front : Derivation (.chain binding)} {op : Operator}
    {bound : op.binding = binding} {last : Derivation (part binding)} (readFront : Read front)
    (readLast : Read last) : Read (.link front op bound last) := by
  intro waiting idle
  obtain ⟨rest, operand, reads, treats⟩ := readFront waiting idle
  have taken : binding.takes op = true := Binding.takes_of_binding bound
  have settled : Partial.finish op.binding.takes rest operand = (waiting, front.expression) := by
    rw [bound, treats binding fun _ same => same]
    exact idle.finish _
  -- the operator that now waits is of this chain, so it leaves the parts of the next part alone
  have loose : ∀ other left, (Waiting.binary op front.expression :: waiting).head? =
      some (.binary other left) → binding = .loose → other.binding = .loose := by
    rintro other left top rfl
    cases top
    exact bound
  have noMinus : (Waiting.binary op front.expression :: waiting).head? ≠ some .negation := by simp
  obtain ⟨rest', operand', reads', treats'⟩ := readLast.reads_in_part noMinus loose
  refine ⟨rest', operand', ?_, ?_⟩
  · have joined : (Derivation.link front op bound last).lexemes =
        front.lexemes ++ .operator op :: last.lexemes := rfl
    rw [joined, Partial.read_all_append, reads, Option.bind_some, Partial.read_all_cons,
      Partial.read_operator, settled, Option.bind_some]
    exact reads'
  · intro looser wider
    rw [treats' looser wider, Partial.finish_taken (wider op taken)]
    rfl

theorem read_group {inner : Derivation .expr} (read : Read inner) : Read (.group inner) := by
  intro waiting
  have idle : Idle .loose (.group :: waiting) := by
    refine ⟨by simp, ?_⟩
    intro op left top
    cases top
  obtain ⟨rest, operand, reads, treats⟩ := read (.group :: waiting) idle
  have settled : Partial.finish (fun _ => true) rest operand =
      (.group :: waiting, inner.expression) := treats .loose fun _ same => same
  have closed : Partial.read ⟨rest, some operand⟩ .closing =
      some (Partial.settle waiting inner.expression) := by
    simp only [Partial.read, settled]
  have opened : Partial.read ⟨waiting, none⟩ .opening = some ⟨.group :: waiting, none⟩ := rfl
  change Partial.readAll ⟨waiting, none⟩ (.opening :: (inner.lexemes ++ [.closing])) = _
  rw [Partial.read_all_cons, opened, Option.bind_some, Partial.read_all_append, reads,
    Option.bind_some, Partial.read_all_cons, closed]
  rfl

theorem read_negate {operand : Derivation .unary} (read : Read operand) :
    Read (.negate operand) := by
  intro waiting
  have opened : Partial.read ⟨waiting, none⟩ (.operator .minus) =
      some ⟨.negation :: waiting, none⟩ := rfl
  change Partial.readAll ⟨waiting, none⟩ (.operator .minus :: operand.lexemes) = _
  rw [Partial.read_all_cons, opened, Option.bind_some, read (.negation :: waiting)]
  rfl

theorem read_tree {category : Category} (tree : Derivation category) : Read tree := by
  induction tree with
  | single only induction =>
      intro waiting idle
      apply induction.reads_in_part idle.1
      rintro op left top rfl
      cases idle.2 op left top
  | link front op bound last readFront readLast => exact read_link readFront readLast
  | atom only induction => exact induction
  | negate operand induction => exact read_negate induction
  | number literal => exact fun waiting => rfl
  | label text => exact fun waiting => rfl
  | group inner induction => exact read_group induction

theorem result_of_derives {lexemes : List Lexeme} {e : Expression}
    (derives : Derives .expr lexemes e) :
    ∃ p, Partial.start.readAll lexemes = some p ∧ p.result? = some e := by
  obtain ⟨tree, rfl, rfl⟩ := derives
  have idle : Idle .loose [] := ⟨by simp, by simp⟩
  obtain ⟨rest, operand, reads, treats⟩ := read_tree tree [] idle
  have settled : Partial.finish (fun _ => true) rest operand = ([], tree.expression) :=
    treats .loose fun _ same => same
  refine ⟨_, reads, ?_⟩
  simp only [Partial.result?, settled]

/-- Lexemes are read to an expression exactly if they derive it. -/
theorem reads_iff_derives {lexemes : List Lexeme} {e : Expression} :
    (∃ p, Partial.start.readAll lexemes = some p ∧ p.result? = some e) ↔
      Derives .expr lexemes e := by
  constructor
  · rintro ⟨p, reads, ended⟩
    have holds : Holds p ([] ++ lexemes) := read_all_holds (.waiting .start) reads
    exact derives_of_result holds ended
  · exact result_of_derives

theorem of_text_ok_iff {text : Text} {e : Expression} :
    Expression.ofText text = .ok e ↔
      ∃ lexemes, Splits text lexemes ∧ Derives .expr lexemes e := by
  simp only [Expression.ofText, read_from_ok_iff, reads_iff_derives, splits_iff_scan]
  constructor
  · rintro ⟨through, derives⟩
    exact ⟨_, ⟨through, rfl⟩, derives⟩
  · rintro ⟨_, ⟨through, rfl⟩, derives⟩
    exact ⟨through, derives⟩

end PostfixSheet.Infix
