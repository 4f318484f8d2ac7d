import PostfixSheet.Proofs.Infix.Parsing

/-!
# The postfix order of a derivation

An infix text is converted if and only if it splits into lexemes that have a derivation from the
grammar, and both the split and the derivation are then unique. The result is the derivation's tree
in postfix order, its texts with single spaces between them. The converter decides by the texts of
an operand alone whether a minus sign may be put in front of it; on trees that come from a text this
is a decision about the operand: no label starts with a digit, and no minus sign is put before a
literal twice.
-/

namespace PostfixSheet.Infix

/-- A label stays one in upper case, and putting it in upper case again changes nothing. -/
theorem IsLabel.upper {label : Text} (wellFormed : IsLabel label) :
    IsLabel (Text.upper label) ∧ Text.upper (Text.upper label) = Text.upper label := by
  cases wellFormed with
  | @label letters digits named counted allLetters allDigits =>
      obtain ⟨length, all, twice⟩ := Text.upper_of_letters allLetters
      have some : Text.upper letters ≠ [] := by
        intro none
        rw [none] at length
        exact named (List.length_eq_zero_iff.mp length.symm)
      rw [Text.upper_append, Text.upper_of_digits allDigits, Text.upper_append, twice,
        Text.upper_of_digits allDigits]
      exact ⟨.label some counted all allDigits, rfl⟩

namespace Expression

/-- The literal that a minus sign may be put in front of: the expression is nothing but a literal,
and it starts with a digit. -/
def signable? : Expression → Option Text
  | .number literal => if startsWithDigit literal then some literal else none
  | .cell _ | .negate _ | .binary _ _ _ => none

/-- Operands from left to right, then the operator. A negation is the literal with its sign, or a
subtraction from zero. -/
def postorder : Expression → List Text
  | .number literal => [literal]
  | .cell label => [Text.upper label]
  | .negate operand => match operand.signable? with
      | some literal => ['-' :: literal]
      | none => ['0'] :: (operand.postorder ++ [['-']])
  | .binary op left right => left.postorder ++ right.postorder ++ [op.text]

/-- The literals and labels of an expression are of their classes. -/
def WellFormed : Expression → Prop
  | .number literal => IsNumber literal
  | .cell label => IsLabel label
  | .negate operand => operand.WellFormed
  | .binary _ left right => left.WellFormed ∧ right.WellFormed

theorem in_postfix_ne_nil (e : Expression) : e.inPostfix ≠ [] := by
  cases e with
  | number literal => simp [inPostfix]
  | cell label => simp [inPostfix]
  | negate operand =>
      rw [inPostfix]
      unfold negated
      split
      · split <;> simp
      · simp
  | binary op left right => simp [inPostfix]

theorem negated_of_single {literal : Text} (digit : startsWithDigit literal = true) :
    negated [literal] = ['-' :: literal] := by
  simp [negated, digit]

theorem negated_of_other {texts : List Text}
    (other : ∀ literal, texts = [literal] → startsWithDigit literal = false) :
    negated texts = ['0'] :: (texts ++ [['-']]) := by
  unfold negated
  split
  · next literal =>
    rw [other literal rfl]
    rfl
  · rfl

/-- A lone text that starts with a digit is a literal. -/
theorem eq_number_of_in_postfix {e : Expression} (wellFormed : e.WellFormed) {literal : Text}
    (single : e.inPostfix = [literal]) (digit : startsWithDigit literal = true) :
    e = .number literal := by
  cases e with
  | number own =>
      obtain rfl := List.singleton_inj.mp single
      rfl
  | cell label =>
      obtain rfl := List.singleton_inj.mp single
      obtain ⟨c, rest, same, letter⟩ := Lexeme.label_head wellFormed.upper.1
      rw [same] at digit
      exact absurd letter (Address.not_is_alpha_of_is_digit digit)
  | negate operand =>
      -- a lone text of a negation starts with its sign
      rw [inPostfix] at single
      unfold negated at single
      split at single
      · split at single
        · obtain rfl := List.singleton_inj.mp single
          cases digit
        · simp at single
      · simp at single
  | binary op left right =>
      have length := congrArg List.length single
      have some := List.length_pos_iff.mpr left.in_postfix_ne_nil
      simp only [inPostfix, List.length_append, List.length_singleton] at length
      omega

theorem negated_in_postfix {operand : Expression} (wellFormed : operand.WellFormed) :
    negated operand.inPostfix = match operand.signable? with
      | some literal => ['-' :: literal]
      | none => ['0'] :: (operand.inPostfix ++ [['-']]) := by
  cases signed : operand.signable? with
  | some literal =>
      cases operand with
      | number own =>
          rw [signable?] at signed
          split at signed
          · next digit =>
            obtain rfl := Option.some.inj signed
            exact negated_of_single digit
          · cases signed
      | cell label => cases signed
      | negate inner => cases signed
      | binary op left right => cases signed
  | none =>
      apply negated_of_other
      intro literal single
      by_contra digit
      rw [Bool.not_eq_false] at digit
      obtain rfl := eq_number_of_in_postfix wellFormed single digit
      rw [signable?, if_pos digit] at signed
      cases signed

theorem in_postfix_eq_postorder {e : Expression} (wellFormed : e.WellFormed) :
    e.inPostfix = e.postorder := by
  induction e with
  | number literal => rfl
  | cell label => rfl
  | negate operand induction =>
      have operandFormed : operand.WellFormed := wellFormed
      rw [inPostfix, negated_in_postfix operandFormed, induction operandFormed, postorder]
  | binary op left right leftInduction rightInduction =>
      rw [inPostfix, leftInduction wellFormed.1, rightInduction wellFormed.2, postorder]

end Expression

theorem Derivation.expression_well_formed {category : Category} (tree : Derivation category)
    (wellFormed : ∀ lexeme ∈ tree.lexemes, lexeme.WellFormed) : tree.expression.WellFormed := by
  induction tree with
  | single only induction => exact induction wellFormed
  | link front op bound last frontInduction lastInduction =>
      refine ⟨frontInduction ?_, lastInduction ?_⟩
      · intro lexeme member
        exact wellFormed lexeme (List.mem_append_left _ member)
      · intro lexeme member
        exact wellFormed lexeme (List.mem_append_right _ (List.mem_cons_of_mem _ member))
  | atom only induction => exact induction wellFormed
  | negate operand induction =>
      exact induction fun lexeme member => wellFormed lexeme (List.mem_cons_of_mem _ member)
  | number literal => exact wellFormed (.number literal) List.mem_cons_self
  | label text => exact wellFormed (.label text) List.mem_cons_self
  | group inner induction =>
      apply induction
      intro lexeme member
      exact wellFormed lexeme (List.mem_cons_of_mem _ (List.mem_append_left _ member))

theorem Splits.expression_well_formed {text : Text} {tree : Derivation .expr}
    (split : Splits text tree.lexemes) : tree.expression.WellFormed :=
  tree.expression_well_formed split.well_formed

theorem of_text_of_splits {text : Text} {tree : Derivation .expr}
    (split : Splits text tree.lexemes) : Expression.ofText text = .ok tree.expression :=
  of_text_ok_iff.mpr ⟨tree.lexemes, split, tree, rfl, rfl⟩

theorem in_postfix_of_splits {text : Text} {tree : Derivation .expr}
    (split : Splits text tree.lexemes) :
    inPostfix text = .ok ([' '].intercalate tree.expression.postorder) := by
  rw [inPostfix, of_text_of_splits split,
    ← Expression.in_postfix_eq_postorder split.expression_well_formed]
  rfl

theorem exists_tree_of_in_postfix {text out : Text} (converted : inPostfix text = .ok out) :
    ∃ tree : Derivation .expr, Splits text tree.lexemes := by
  rw [inPostfix] at converted
  cases read : Expression.ofText text with
  | error fault =>
      rw [read] at converted
      cases converted
  | ok e =>
      obtain ⟨_, split, tree, rfl, _⟩ := of_text_ok_iff.mp read
      exact ⟨tree, split⟩

/-- A text is converted exactly if its lexemes have a derivation. The derivation is then the only
one, and the result is its tree in postfix order. -/
theorem converts_exactly_the_grammar (text : Text) :
    ((∃ out, inPostfix text = .ok out) ↔ ∃ tree : Derivation .expr, Splits text tree.lexemes) ∧
    ∀ tree : Derivation .expr, Splits text tree.lexemes →
      inPostfix text = .ok ([' '].intercalate tree.expression.postorder) ∧
        ∀ other : Derivation .expr, Splits text other.lexemes → other = tree := by
  refine ⟨⟨?_, ?_⟩, ?_⟩
  · rintro ⟨out, converted⟩
    exact exists_tree_of_in_postfix converted
  · rintro ⟨tree, split⟩
    exact ⟨_, in_postfix_of_splits split⟩
  · intro tree split
    refine ⟨in_postfix_of_splits split, ?_⟩
    intro other otherSplit
    exact Derivation.lexemes_injective (split.unique otherSplit)

/-- The derivation of `-(1.5 + a2) * -.5 / -(7)`. -/
def mixedTree : Derivation .expr :=
  .single (.link
    (.link
      (.single (.negate (.atom (.group (.link
        (.single (.single (.atom (.number "1.5".toList)))) .plus rfl
        (.single (.atom (.label "a2".toList))))))))
      .times rfl (.negate (.atom (.number ".5".toList))))
    .over rfl (.negate (.atom (.group (.single (.single (.atom (.number "7".toList))))))))

theorem mixed_tree_converted :
    Splits "-(1.5 + a2) * -.5 / -(7)".toList mixedTree.lexemes ∧
      inPostfix "-(1.5 + a2) * -.5 / -(7)".toList = .ok "0 1.5 A2 + - 0 .5 - * -7 /".toList ∧
        ∀ other : Derivation .expr,
          Splits "-(1.5 + a2) * -.5 / -(7)".toList other.lexemes → other = mixedTree := by
  have split : Splits "-(1.5 + a2) * -.5 / -(7)".toList mixedTree.lexemes :=
    splits_iff_scan.mpr ⟨by decide +kernel, by decide +kernel⟩
  have order : [' '].intercalate mixedTree.expression.postorder =
      "0 1.5 A2 + - 0 .5 - * -7 /".toList := by decide +kernel
  rw [← order]
  exact ⟨split, (converts_exactly_the_grammar _).2 mixedTree split⟩

end PostfixSheet.Infix
