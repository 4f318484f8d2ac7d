import PostfixSheet.Proofs.Evaluation.Ceiling
import PostfixSheet.Proofs.Infix.Postorder
import PostfixSheet.Proofs.Text.Pieces

/-!
# The value of an infix expression

The tree of an infix text is worth what its operands are worth, the left one first, put together by
the operators of the stack machine. The postfix text is worth the same: whatever stands on the stack
already and whatever tokens follow, the tokens of a tree put its value on the stack or stop with its
error. An operator of such a text always finds its operands, so a count of operands goes wrong only
in the text of a cell that is referred to.
-/

namespace PostfixSheet.Infix

open Text (Unbroken unbroken_cons unbroken_single)

/-- What a word that is an operand stands for. -/
def operandValue (answer : Machine.Answer) (word : Text) : Except EvalError Float :=
  match Token.ofText word with
  | .number _ value => .ok value
  | .reference label address => answer label address
  | .operator _ | .unrecognized _ => .error .noValue

namespace Expression

/-- The value of a tree, its operands worked out from left to right. -/
def value (answer : Machine.Answer) : Expression → Except EvalError Float
  | .number literal => operandValue answer literal
  | .cell label => operandValue answer label
  | .negate operand => match operand.signable? with
      | some literal => operandValue answer ('-' :: literal)
      | none => do
          let right ← operand.value answer
          Machine.apply .minus 0 right
  | .binary op left right => do
      let left ← left.value answer
      let right ← right.value answer
      Machine.apply op left right

end Expression

inductive IsOperand (word : Text) : Prop
  | number {value : Float} (read : Token.ofText word = .number word value)
  | reference {label : Text} {address : Option Address}
      (read : Token.ofText word = .reference label address)

theorem IsPower.exponent {power : Text} (scaled : IsPower power) :
    ∃ exponent, Numeral.exponent? power = some exponent := by
  cases scaled with
  | absent => exact ⟨0, rfl⟩
  | @written mark sign digits marked signed given allDigits =>
      have read : ∃ negative, Numeral.sign (sign ++ digits) = (negative, digits) := by
        rcases signed with rfl | rfl | rfl
        · obtain ⟨c, digits, rfl⟩ := List.exists_cons_of_ne_nil given
          exact ⟨false, Numeral.sign_minus false (.inl (allDigits c (by simp))) digits⟩
        · exact ⟨false, rfl⟩
        · exact ⟨true, rfl⟩
      obtain ⟨negative, read⟩ := read
      have digitsOnly : (!digits.isEmpty && digits.all Char.isDigit) = true := by
        simpa [given] using List.all_eq_true.mpr allDigits
      rw [Numeral.exponent?, if_pos marked, read]
      simp only [digitsOnly, if_true]
      exact ⟨_, rfl⟩

theorem IsNumber.numeral {literal : Text} (wellFormed : IsNumber literal) (negative : Bool) :
    ∃ numeral, Numeral.ofText? (Numeral.minus negative ++ literal) = some numeral := by
  cases wellFormed with
  | whole given allDigits scaled =>
      obtain ⟨exponent, read⟩ := scaled.exponent
      exact ⟨_, Numeral.of_text_whole given allDigits read⟩
  | point given allWhole allFraction scaled =>
      obtain ⟨exponent, read⟩ := scaled.exponent
      exact ⟨_, Numeral.of_text_point given allWhole allFraction read⟩

theorem IsNumber.is_operand {literal : Text} (wellFormed : IsNumber literal) (negative : Bool) :
    IsOperand (Numeral.minus negative ++ literal) := by
  obtain ⟨numeral, read⟩ := wellFormed.numeral negative
  obtain ⟨c, rest, rfl, start⟩ := Lexeme.number_head wellFormed
  exact .number (Token.of_text_of_numeral start read)

theorem IsLabel.parts {label : Text} (wellFormed : IsLabel label) :
    ∃ letters digits, Address.labelParts? label = some (letters, digits) := by
  cases wellFormed with
  | @label letters digits named counted allLetters allDigits =>
      exact ⟨letters, digits, Address.label_parts_append named counted allLetters allDigits⟩

/-- A label in upper case is the same reference. -/
theorem IsLabel.of_text_upper {label : Text} (wellFormed : IsLabel label) :
    Token.ofText (Text.upper label) = Token.ofText label := by
  obtain ⟨_, _, parts⟩ := wellFormed.parts
  obtain ⟨_, _, upperParts⟩ := wellFormed.upper.1.parts
  rw [Token.of_text_of_label parts, Token.of_text_of_label upperParts, wellFormed.upper.2,
    Address.ofLabel?, wellFormed.upper.2, ← Address.ofLabel?]

theorem IsLabel.is_operand {label : Text} (wellFormed : IsLabel label) : IsOperand label := by
  obtain ⟨_, _, parts⟩ := wellFormed.parts
  exact .reference (Token.of_text_of_label parts)

theorem zero_word : Token.ofText ['0'] = .number ['0'] 0 := by
  rfl

theorem minus_word : Token.ofText ['-'] = .operator .minus := rfl

section Machine

variable {answer : Machine.Answer}

/-- What a run goes on with when the value of an expression has been put on the stack. -/
def continued (answer : Machine.Answer) (stack : List Float) (rest : List Token) :
    Except EvalError Float → Except EvalError (List Float)
  | .ok value => Machine.runFrom answer (value :: stack) rest
  | .error error => .error error

/-- The tokens put a value on whatever stack there is, or stop with an error. -/
def Puts (answer : Machine.Answer) (tokens : List Token) (result : Except EvalError Float) : Prop :=
  ∀ stack rest, Machine.runFrom answer stack (tokens ++ rest) = continued answer stack rest result

theorem step_operand {word : Text} (operand : IsOperand word) (stack : List Float) :
    Machine.step answer stack (Token.ofText word) =
      (operandValue answer word).map (· :: stack) := by
  cases operand with
  | number read =>
      rw [operandValue, read]
      rfl
  | reference read =>
      rw [operandValue, read]
      rfl

theorem puts_operand {word : Text} (operand : IsOperand word) :
    Puts answer [Token.ofText word] (operandValue answer word) := by
  intro stack rest
  rw [List.singleton_append, Machine.runFrom, step_operand operand]
  cases operandValue answer word <;> rfl

theorem step_two (op : Operator) (left right : Float) (stack : List Float) :
    Machine.step answer (right :: left :: stack) (.operator op) =
      (Machine.apply op left right).map (· :: stack) := rfl

theorem run_from_operator (op : Operator) (left right : Float) (stack : List Float)
    (rest : List Token) :
    Machine.runFrom answer (right :: left :: stack) (.operator op :: rest) =
      continued answer stack rest (Machine.apply op left right) := by
  rw [Machine.runFrom, step_two]
  cases Machine.apply op left right <;> rfl

/-- The operands are put on the stack one after the other, and the operator finds them there. -/
theorem Puts.binary {left right : List Token} {leftValue rightValue : Except EvalError Float}
    (leftPuts : Puts answer left leftValue) (rightPuts : Puts answer right rightValue)
    (op : Operator) :
    Puts answer (left ++ right ++ [.operator op])
      (do
        let left ← leftValue
        let right ← rightValue
        Machine.apply op left right) := by
  intro stack rest
  rw [List.append_assoc, List.append_assoc, List.singleton_append, leftPuts]
  cases leftValue with
  | error error => rfl
  | ok leftValue =>
      change Machine.runFrom answer (leftValue :: stack) _ = _
      rw [rightPuts]
      cases rightValue with
      | error error => rfl
      | ok rightValue => exact run_from_operator op leftValue rightValue stack rest

theorem eq_number_of_signable {operand : Expression} {literal : Text}
    (signed : operand.signable? = some literal) : operand = .number literal := by
  cases operand with
  | number own =>
      rw [Expression.signable?] at signed
      split at signed
      · rw [Option.some.inj signed]
      · cases signed
  | cell label => cases signed
  | negate inner => cases signed
  | binary op left right => cases signed

/-- The tokens of a tree put its value on the stack. -/
theorem puts_postorder {e : Expression} (wellFormed : e.WellFormed) :
    Puts answer (e.postorder.map Token.ofText) (e.value answer) := by
  induction e with
  | number literal => exact puts_operand (IsNumber.is_operand wellFormed false)
  | cell label =>
      have labelled : IsLabel label := wellFormed
      have same : operandValue answer (Text.upper label) = operandValue answer label := by
        rw [operandValue, labelled.of_text_upper, ← operandValue]
      rw [Expression.value, ← same]
      exact puts_operand labelled.upper.1.is_operand
  | negate operand induction =>
      cases signed : operand.signable? with
      | some literal =>
          obtain rfl := eq_number_of_signable signed
          simp only [Expression.postorder, Expression.value, signed]
          exact puts_operand (IsNumber.is_operand wellFormed true)
      | none =>
          -- the zero goes on the stack first, so the subtraction finds it below the operand
          have zero : Puts answer [Token.ofText ['0']] (.ok 0) := puts_operand (.number zero_word)
          have tokens : (Expression.negate operand).postorder.map Token.ofText =
              [Token.ofText ['0']] ++ operand.postorder.map Token.ofText ++ [.operator .minus] := by
            simp [Expression.postorder, signed, minus_word]
          rw [tokens]
          simp only [Expression.value, signed]
          exact zero.binary (induction wellFormed) .minus
  | binary op left right leftInduction rightInduction =>
      have tokens : (Expression.binary op left right).postorder.map Token.ofText =
          left.postorder.map Token.ofText ++ right.postorder.map Token.ofText ++
            [.operator op] := by
        simp [Expression.postorder, Token.of_text_operator]
      rw [tokens, Expression.value]
      exact (leftInduction wellFormed.1).binary (rightInduction wellFormed.2) op

theorem run_postorder {e : Expression} (wellFormed : e.WellFormed) :
    Machine.run answer (e.postorder.map Token.ofText) = e.value answer := by
  have ran : Machine.runFrom answer [] (e.postorder.map Token.ofText ++ []) =
      continued answer [] [] (e.value answer) := puts_postorder wellFormed [] []
  rw [List.append_nil] at ran
  rw [Machine.run, ran]
  cases e.value answer <;> rfl

end Machine

/-- The errors that say that an operator, or the end of an expression, found too few or too many
values. -/
def IsOperandCount : EvalError → Prop
  | .noValue | .missingOperand _ | .leftOver _ => True
  | .cycle _ | .tooDeep _ | .exhausted _ | .missingCell _ | .divisionByZero => False

/-- The error is a division by zero, or the answer to a reference among the tokens. -/
def Explained (answer : Machine.Answer) (tokens : List Token) (error : EvalError) : Prop :=
  error = .divisionByZero ∨
    ∃ label address, .reference label address ∈ tokens ∧ answer label address = .error error

section Failure

variable {answer : Machine.Answer} {error : EvalError}

theorem Explained.mono {tokens others : List Token} (explained : Explained answer tokens error)
    (within : tokens ⊆ others) : Explained answer others error := by
  refine explained.imp_right ?_
  rintro ⟨label, address, member, answered⟩
  exact ⟨label, address, within member, answered⟩

theorem operand_error {word : Text} (operand : IsOperand word)
    (failed : operandValue answer word = .error error) :
    Explained answer [Token.ofText word] error := by
  cases operand with
  | number read =>
      rw [operandValue, read] at failed
      cases failed
  | reference read =>
      rw [operandValue, read] at failed
      exact .inr ⟨_, _, List.mem_singleton.mpr read.symm, failed⟩

theorem apply_error {op : Operator} {left right : Float}
    (failed : Machine.apply op left right = .error error) : error = .divisionByZero := by
  rw [Machine.apply_eq] at failed
  split at failed
  · cases failed
    rfl
  · cases failed

theorem binary_error {l r : Except EvalError Float} {op : Operator}
    (failed : (do
      let left ← l
      let right ← r
      Machine.apply op left right) = .error error) :
    error = .divisionByZero ∨ l = .error error ∨ r = .error error := by
  cases l with
  | error found => exact .inr (.inl failed)
  | ok left =>
      cases r with
      | error found => exact .inr (.inr failed)
      | ok right => exact .inl (apply_error failed)

/-- A tree without a value divides by zero, or one of its references has none. -/
theorem value_error {e : Expression} (wellFormed : e.WellFormed)
    (failed : e.value answer = .error error) :
    Explained answer (e.postorder.map Token.ofText) error := by
  induction e with
  | number literal => exact operand_error (IsNumber.is_operand wellFormed false) failed
  | cell label =>
      have labelled : IsLabel label := wellFormed
      have explained := operand_error labelled.is_operand failed
      rwa [← labelled.of_text_upper] at explained
  | negate operand induction =>
      cases signed : operand.signable? with
      | some literal =>
          obtain rfl := eq_number_of_signable signed
          simp only [Expression.value, signed] at failed
          simp only [Expression.postorder, signed]
          exact operand_error (IsNumber.is_operand wellFormed true) failed
      | none =>
          simp only [Expression.value, signed] at failed
          rcases binary_error (l := .ok 0) failed with zero | none | inside
          · exact .inl zero
          · cases none
          · apply (induction wellFormed inside).mono
            intro token member
            simp only [Expression.postorder, signed, List.map_cons, List.map_append]
            exact List.mem_cons_of_mem _ (List.mem_append_left _ member)
  | binary op left right leftInduction rightInduction =>
      rw [Expression.value] at failed
      rcases binary_error failed with zero | inLeft | inRight
      · exact .inl zero
      · apply (leftInduction wellFormed.1 inLeft).mono
        simp [Expression.postorder]
      · apply (rightInduction wellFormed.2 inRight).mono
        simp [Expression.postorder]

end Failure

/-- A word of an expression can be told apart in a text, and it means something there. -/
structure IsWord (word : Text) : Prop where
  some : word ≠ []
  unbroken : Unbroken word
  meant : ∀ text, Token.ofText word ≠ .unrecognized text

theorem IsWord.of_operand {word : Text} (operand : IsOperand word) (unbroken : Unbroken word) :
    IsWord word := by
  refine ⟨?_, unbroken, ?_⟩
  · rintro rfl
    cases operand with
    | number read => cases read
    | reference read => cases read
  · intro text
    cases operand with
    | number read => simp [read]
    | reference read => simp [read]

theorem IsWord.of_operator (op : Operator) : IsWord op.text := by
  refine ⟨List.cons_ne_nil _ _, ?_, ?_⟩
  · apply unbroken_single
    cases op <;> decide
  · intro text
    simp [Token.of_text_operator]

theorem is_word_of_mem_postorder {e : Expression} (wellFormed : e.WellFormed) {word : Text}
    (member : word ∈ e.postorder) : IsWord word := by
  induction e with
  | number literal =>
      obtain rfl := List.mem_singleton.mp member
      exact .of_operand (IsNumber.is_operand wellFormed false) (IsNumber.unbroken wellFormed)
  | cell label =>
      obtain rfl := List.mem_singleton.mp member
      have upper := IsLabel.upper wellFormed
      exact .of_operand upper.1.is_operand upper.1.unbroken
  | negate operand induction =>
      cases signed : operand.signable? with
      | some literal =>
          simp only [Expression.postorder, signed] at member
          obtain rfl := List.mem_singleton.mp member
          obtain rfl := eq_number_of_signable signed
          exact .of_operand (IsNumber.is_operand wellFormed true)
            (unbroken_cons (by decide) (IsNumber.unbroken wellFormed))
      | none =>
          simp only [Expression.postorder, signed, List.mem_cons, List.mem_append,
            List.not_mem_nil, or_false] at member
          rcases member with rfl | member | rfl
          · exact .of_operand (.number zero_word) (unbroken_single (by decide))
          · exact induction wellFormed member
          · exact .of_operator .minus
  | binary op left right leftInduction rightInduction =>
      simp only [Expression.postorder, List.mem_append, List.mem_singleton] at member
      rcases member with (member | member) | rfl
      · exact leftInduction wellFormed.1 member
      · exact rightInduction wellFormed.2 member
      · exact .of_operator op

theorem scan_postorder {e : Expression} (wellFormed : e.WellFormed) :
    Token.scan ([' '].intercalate e.postorder) = e.postorder.map Token.ofText := by
  have words := Text.words_intercalate
    (fun word member => (is_word_of_mem_postorder wellFormed member).some)
    (fun word member => (is_word_of_mem_postorder wellFormed member).unbroken)
  rw [Token.scan, words]

/-- The postfix text of an infix text has the value of the infix text's tree, or the error. All of
its words mean something, and if it fails for a count of operands, then only because a cell that it
refers to does. -/
theorem postfix_has_value_of_tree [CallStack] {text out : Text} (converted : inPostfix text = .ok out)
    (grid : Grid) (ceiling : Ceiling) :
    ∃ tree : Derivation .expr, Splits text tree.lexemes ∧
      Evaluation.expression grid ceiling out =
        tree.expression.value (Evaluation.cellAnswer grid ceiling) ∧
      (∀ token ∈ Token.scan out, ∀ word, token ≠ .unrecognized word) ∧
      ∀ error, Evaluation.expression grid ceiling out = .error error → IsOperandCount error →
        ∃ label a, .reference label (some a) ∈ Token.scan out ∧
          Evaluation.cell grid ceiling a = .error error := by
  obtain ⟨tree, split⟩ := exists_tree_of_in_postfix converted
  have wellFormed := split.expression_well_formed
  obtain rfl : [' '].intercalate tree.expression.postorder = out :=
    Except.ok.inj ((in_postfix_of_splits split).symm.trans converted)
  have valued : Evaluation.expression grid ceiling
      ([' '].intercalate tree.expression.postorder) =
      tree.expression.value (Evaluation.cellAnswer grid ceiling) := by
    rw [Evaluation.expression, scan_postorder wellFormed]
    exact run_postorder wellFormed
  refine ⟨tree, split, valued, ?_, ?_⟩
  · intro token member word
    rw [scan_postorder wellFormed] at member
    obtain ⟨own, inside, rfl⟩ := List.mem_map.mp member
    exact (is_word_of_mem_postorder wellFormed inside).meant word
  · intro error failed count
    rw [scan_postorder wellFormed]
    rw [valued] at failed
    rcases value_error wellFormed failed with rfl | ⟨label, address, member, answered⟩
    · exact count.elim
    · cases address with
      | none =>
          cases answered
          exact count.elim
      | some a =>
          refine ⟨label, a, member, ?_⟩
          rw [← answered]
          apply (Evaluation.cell_answer_agree grid ceiling label a).eq_of_other
          rintro _ ⟨depth, rfl⟩ ranOut
          rw [answered] at ranOut
          cases ranOut
          exact count.elim

def unpricedSheet : Grid := ⟨[["12".toList, "A1 *".toList]], .comma⟩

theorem unpriced_total_converted :
    inPostfix "-(a1 - 20) * (b1)".toList = .ok "0 A1 20 - - B1 *".toList ∧
      ∃ tree : Derivation .expr, Splits "-(a1 - 20) * (b1)".toList tree.lexemes ∧
        Evaluation.expression unpricedSheet .standard "0 A1 20 - - B1 *".toList =
          tree.expression.value (Evaluation.cellAnswer unpricedSheet .standard) ∧
        (∀ token ∈ Token.scan "0 A1 20 - - B1 *".toList, ∀ word, token ≠ .unrecognized word) ∧
        ∀ error, Evaluation.expression unpricedSheet .standard "0 A1 20 - - B1 *".toList =
            .error error → IsOperandCount error →
          ∃ label a, .reference label (some a) ∈ Token.scan "0 A1 20 - - B1 *".toList ∧
            Evaluation.cell unpricedSheet .standard a = .error error := by
  have converted : inPostfix "-(a1 - 20) * (b1)".toList = .ok "0 A1 20 - - B1 *".toList := by
    decide +kernel
  exact ⟨converted, postfix_has_value_of_tree converted unpricedSheet .standard⟩

end PostfixSheet.Infix
