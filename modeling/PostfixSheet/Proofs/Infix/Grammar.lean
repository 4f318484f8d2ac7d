import PostfixSheet.Infix.Expression
import PostfixSheet.Infix.Lexeme
import Mathlib.Data.List.Basic

/-!
# The grammar of infix expressions

    expr   expr + term,  expr - term,  term
    term   term * unary,  term / unary,  unary
    unary  - unary,  atom
    atom   a number,  a label,  ( expr )

The trees of the grammar are a family of types, one for each category, so a tree is a derivation by
its construction. A row of lexemes has at most one derivation: two derivations that start alike have
the same first part, and then the same links, one after the other.
-/

namespace PostfixSheet

/-- How strongly operators bind: addition and subtraction loosely, multiplication and division
tightly. -/
inductive Binding
  | loose
  | tight
deriving DecidableEq

def Operator.binding : Operator → Binding
  | .plus | .minus => .loose
  | .times | .over => .tight

namespace Binding

/-- Whether an operator binds at least as tightly. -/
def takes : Binding → Operator → Bool
  | .loose, _ => true
  | .tight, op => op.binding == .tight

theorem takes_of_binding {binding : Binding} {op : Operator} (bound : op.binding = binding) :
    binding.takes op = true := by
  subst bound
  cases op <;> rfl

theorem not_tight_takes {op : Operator} (bound : op.binding = .loose) :
    Binding.tight.takes op = false := by
  simp [takes, bound]

end Binding

namespace Infix

/-- The categories of the grammar. A chain is a row of parts with operators of one binding between
them. -/
inductive Category
  | chain (binding : Binding)
  | unary
  | atom

namespace Category

abbrev expr : Category := .chain .loose

abbrev term : Category := .chain .tight

/-- What the operators of a chain stand between. -/
def part : Binding → Category
  | .loose => term
  | .tight => unary

end Category

open Category (part)

inductive Derivation : Category → Type
  | single {binding : Binding} (only : Derivation (part binding)) : Derivation (.chain binding)
  | link {binding : Binding} (front : Derivation (.chain binding)) (op : Operator)
      (bound : op.binding = binding) (last : Derivation (part binding)) :
      Derivation (.chain binding)
  | atom (only : Derivation .atom) : Derivation .unary
  | negate (operand : Derivation .unary) : Derivation .unary
  | number (literal : Text) : Derivation .atom
  | label (text : Text) : Derivation .atom
  | group (inner : Derivation .expr) : Derivation .atom

namespace Derivation

def lexemes {category : Category} : Derivation category → List Lexeme
  | single only => only.lexemes
  | link front op _ last => front.lexemes ++ .operator op :: last.lexemes
  | atom only => only.lexemes
  | negate operand => .operator .minus :: operand.lexemes
  | number literal => [.number literal]
  | label text => [.label text]
  | group inner => .opening :: (inner.lexemes ++ [.closing])

/-- The tree of operations, in which parentheses leave no trace. -/
def expression {category : Category} : Derivation category → Expression
  | single only => only.expression
  | link front op _ last => .binary op front.expression last.expression
  | atom only => only.expression
  | negate operand => .negate operand.expression
  | number literal => .number literal
  | label text => .cell text
  | group inner => inner.expression

variable {binding : Binding}

theorem append_lexemes_link (before : List Lexeme) (front : Derivation (.chain binding))
    (op : Operator) (bound : op.binding = binding) (last : Derivation (part binding)) :
    before ++ (link front op bound last).lexemes =
      before ++ front.lexemes ++ [.operator op] ++ last.lexemes := by
  simp [lexemes]

/-- One more operator of a chain and the part after it. -/
structure Link (binding : Binding) where
  op : Operator
  bound : op.binding = binding
  last : Derivation (part binding)

def Link.lexemes (next : Link binding) : List Lexeme := .operator next.op :: next.last.lexemes

def extend (front : Derivation (.chain binding)) (links : List (Link binding)) :
    Derivation (.chain binding) :=
  links.foldl (fun front next => .link front next.op next.bound next.last) front

theorem lexemes_extend (front : Derivation (.chain binding)) (links : List (Link binding)) :
    (front.extend links).lexemes = front.lexemes ++ links.flatMap Link.lexemes := by
  induction links generalizing front with
  | nil => simp [extend]
  | cons next links induction =>
      have further := induction (.link front next.op next.bound next.last)
      change ((Derivation.link front next.op next.bound next.last).extend links).lexemes = _
      rw [further]
      simp [lexemes, Link.lexemes]

theorem extend_concat (front : Derivation (.chain binding)) (links : List (Link binding))
    (next : Link binding) :
    front.extend (links ++ [next]) = .link (front.extend links) next.op next.bound next.last := by
  rw [extend, List.foldl_append]
  rfl

/-- Every chain is its first part and the links after it. -/
theorem exists_extend : (chain : Derivation (.chain binding)) →
    ∃ first links, chain = (single first).extend links
  | single only => ⟨only, [], rfl⟩
  | link front op bound last => by
      obtain ⟨first, links, same⟩ := exists_extend front
      refine ⟨first, links ++ [⟨op, bound, last⟩], ?_⟩
      rw [extend_concat, ← same]

/-- Lexemes with which a derivation of the category cannot go on. -/
def Stops : Category → List Lexeme → Prop
  | .chain binding, rest => ∀ op, rest.head? = some (.operator op) → binding.takes op = false
  | .unary, _ | .atom, _ => True

/-- The start of a row of lexemes settles a derivation. -/
def Determined {category : Category} (tree : Derivation category) : Prop :=
  ∀ (other : Derivation category) (rest otherRest : List Lexeme), Stops category rest →
    Stops category otherRest → tree.lexemes ++ rest = other.lexemes ++ otherRest →
      tree = other ∧ rest = otherRest

/-- Of two chains at the start of a row of lexemes, one goes on where the other ends. -/
def Compared (chain : Derivation (.chain binding)) : Prop :=
  ∀ (other : Derivation (.chain binding)) (rest otherRest : List Lexeme),
    Stops (part binding) rest → Stops (part binding) otherRest →
      chain.lexemes ++ rest = other.lexemes ++ otherRest →
        (∃ links, other = chain.extend links ∧ rest = links.flatMap Link.lexemes ++ otherRest) ∨
          ∃ links, chain = other.extend links ∧ otherRest = links.flatMap Link.lexemes ++ rest

theorem stops_part_of_stops {rest : List Lexeme} (stops : Stops (.chain binding) rest) :
    Stops (part binding) rest := by
  cases binding with
  | tight => trivial
  | loose =>
      intro op first
      cases stops op first

theorem stops_part_links {links : List (Link binding)} {rest : List Lexeme}
    (stops : Stops (part binding) rest) :
    Stops (part binding) (links.flatMap Link.lexemes ++ rest) := by
  cases links with
  | nil => exact stops
  | cons next links =>
      cases binding with
      | tight => trivial
      | loose =>
          intro op first
          have same : next.op = op := by simpa [Link.lexemes] using first
          rw [← same]
          exact Binding.not_tight_takes next.bound

theorem links_eq_nil {links : List (Link binding)} {rest : List Lexeme}
    (stops : Stops (.chain binding) (links.flatMap Link.lexemes ++ rest)) : links = [] := by
  cases links with
  | nil => rfl
  | cons next links =>
      have free := stops next.op rfl
      rw [Binding.takes_of_binding next.bound] at free
      cases free

theorem Compared.determined {chain : Derivation (.chain binding)} (compared : Compared chain) :
    Determined chain := by
  intro other rest otherRest stops otherStops same
  rcases compared other rest otherRest (stops_part_of_stops stops)
    (stops_part_of_stops otherStops) same with ⟨links, rfl, rfl⟩ | ⟨links, rfl, rfl⟩
  · obtain rfl := links_eq_nil stops
    exact ⟨rfl, rfl⟩
  · obtain rfl := links_eq_nil otherStops
    exact ⟨rfl, rfl⟩

theorem compared_single {only : Derivation (part binding)} (determined : Determined only) :
    Compared (single only) := by
  intro other rest otherRest stops otherStops same
  obtain ⟨first, links, rfl⟩ := exists_extend other
  rw [lexemes_extend, List.append_assoc] at same
  obtain ⟨rfl, rfl⟩ := determined first rest _ stops (stops_part_links otherStops) same
  exact .inl ⟨links, rfl, rfl⟩

theorem compared_link {front : Derivation (.chain binding)} {op : Operator}
    {bound : op.binding = binding} {last : Derivation (part binding)} (compared : Compared front)
    (determined : Determined last) : Compared (link front op bound last) := by
  intro other rest otherRest stops otherStops same
  have regroup : (link front op bound last).lexemes ++ rest =
      front.lexemes ++ ([⟨op, bound, last⟩].flatMap Link.lexemes ++ rest) := by
    simp [lexemes, Link.lexemes]
  rw [regroup] at same
  rcases compared other _ otherRest (stops_part_links stops) otherStops same with
    ⟨links, rfl, more⟩ | ⟨links, rfl, more⟩
  -- the other chain goes on behind `front`, so its next link, if it has one, is the last one here
  · cases links with
    | nil => exact .inr ⟨[⟨op, bound, last⟩], rfl, more.symm⟩
    | cons second links =>
        obtain ⟨otherOp, otherBound, otherLast⟩ := second
        have heads : op = otherOp ∧ last.lexemes ++ rest =
            otherLast.lexemes ++ (links.flatMap Link.lexemes ++ otherRest) := by
          simpa [Link.lexemes] using more
        obtain ⟨rfl, lasts⟩ := heads
        obtain ⟨rfl, tails⟩ := determined otherLast rest _ stops (stops_part_links otherStops) lasts
        exact .inl ⟨links, rfl, tails⟩
  · refine .inr ⟨links ++ [⟨op, bound, last⟩], (extend_concat other links ⟨op, bound, last⟩).symm, ?_⟩
    rw [more, List.flatMap_append, List.append_assoc]

/-- What the induction over a derivation carries: chains are compared, everything else is
determined. -/
def Settled : {category : Category} → Derivation category → Prop
  | .chain _, tree => Compared tree
  | .unary, tree => Determined tree
  | .atom, tree => Determined tree

theorem Settled.determined {category : Category} {tree : Derivation category}
    (settled : Settled tree) : Determined tree := by
  cases category with
  | chain binding => exact Compared.determined settled
  | unary => exact settled
  | atom => exact settled

theorem atom_ne_minus (tree : Derivation .atom) (rest others : List Lexeme) :
    tree.lexemes ++ rest ≠ .operator .minus :: others := by
  intro same
  cases tree with
  | number literal => cases (List.cons.inj same).1
  | label text => cases (List.cons.inj same).1
  | group inner => cases (List.cons.inj same).1

theorem determined_number (literal : Text) : Determined (number literal) := by
  intro other rest otherRest _ _ same
  cases other with
  | number otherLiteral =>
      obtain ⟨first, tails⟩ := List.cons.inj same
      obtain rfl := Lexeme.number.inj first
      exact ⟨rfl, tails⟩
  | label text => cases (List.cons.inj same).1
  | group inner => cases (List.cons.inj same).1

theorem determined_label (text : Text) : Determined (label text) := by
  intro other rest otherRest _ _ same
  cases other with
  | number literal => cases (List.cons.inj same).1
  | label otherText =>
      obtain ⟨first, tails⟩ := List.cons.inj same
      obtain rfl := Lexeme.label.inj first
      exact ⟨rfl, tails⟩
  | group inner => cases (List.cons.inj same).1

theorem determined_group {inner : Derivation .expr} (determined : Determined inner) :
    Determined (group inner) := by
  intro other rest otherRest _ _ same
  cases other with
  | number literal => simp [lexemes] at same
  | label text => simp [lexemes] at same
  | group otherInner =>
      have closed : inner.lexemes ++ (.closing :: rest) =
          otherInner.lexemes ++ (.closing :: otherRest) := by
        simpa [lexemes] using same
      have stops : ∀ further : List Lexeme, Stops .expr (.closing :: further) := by
        intro further op first
        cases first
      obtain ⟨rfl, tails⟩ := determined otherInner _ _ (stops rest) (stops otherRest) closed
      exact ⟨rfl, (List.cons.inj tails).2⟩

theorem determined_atom {only : Derivation .atom} (determined : Determined only) :
    Determined (atom only) := by
  intro other rest otherRest _ _ same
  cases other with
  | atom otherOnly =>
      obtain ⟨rfl, tails⟩ := determined otherOnly rest otherRest trivial trivial same
      exact ⟨rfl, tails⟩
  | negate operand => exact absurd same (atom_ne_minus only _ _)

theorem determined_negate {operand : Derivation .unary} (determined : Determined operand) :
    Determined (negate operand) := by
  intro other rest otherRest _ _ same
  cases other with
  | atom only => exact absurd same.symm (atom_ne_minus only _ _)
  | negate otherOperand =>
      obtain ⟨rfl, tails⟩ := determined otherOperand rest otherRest trivial trivial
        (List.cons.inj same).2
      exact ⟨rfl, tails⟩

theorem settled {category : Category} (tree : Derivation category) : Settled tree := by
  induction tree with
  | single only induction => exact compared_single induction.determined
  | link front op bound last frontInduction lastInduction =>
      exact compared_link frontInduction lastInduction.determined
  | atom only induction => exact determined_atom induction
  | negate operand induction => exact determined_negate induction
  | number literal => exact determined_number literal
  | label text => exact determined_label text
  | group inner induction => exact determined_group (Settled.determined induction)

/-- A row of lexemes has at most one derivation. -/
theorem lexemes_injective {category : Category} {tree other : Derivation category}
    (same : tree.lexemes = other.lexemes) : tree = other := by
  have free : Stops category [] := by
    cases category with
    | chain binding =>
        intro op first
        cases first
    | unary => trivial
    | atom => trivial
  exact ((settled tree).determined other [] [] free free (by rw [same])).1

end Derivation
end Infix
end PostfixSheet
