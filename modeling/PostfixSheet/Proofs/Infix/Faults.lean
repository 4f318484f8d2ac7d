import Mathlib.Data.List.DropRight
import PostfixSheet.Proofs.Infix.Completion
import PostfixSheet.Proofs.Infix.Postorder

/-!
# Faults are found where they are

The lexemes read before a fault begin the lexemes of some text that is converted, and with the
lexeme or the end at the fault this stops being so. Reading is followed from left to right, with the
text before the place that is reached and the lexemes seen in it, each with its column; columns are
counted here on the text itself, from the last line feed.
-/

namespace PostfixSheet.Infix

/-- The lexemes of a text that is converted. -/
def Accepted (lexemes : List Lexeme) : Prop :=
  ∃ text out, inPostfix text = .ok out ∧ Splits text lexemes

theorem accepted_iff {lexemes : List Lexeme} :
    Accepted lexemes ↔ (∀ lexeme ∈ lexemes, lexeme.WellFormed) ∧
      ∃ tree : Derivation .expr, tree.lexemes = lexemes := by
  constructor
  · rintro ⟨text, out, converted, split⟩
    obtain ⟨tree, treeSplit⟩ := exists_tree_of_in_postfix converted
    exact ⟨split.well_formed, tree, split.unique treeSplit⟩
  · rintro ⟨wellFormed, tree, rfl⟩
    have split := splits_spaced wellFormed
    exact ⟨_, _, in_postfix_of_splits split, split⟩

/-- The column of the character behind a text. -/
def columnAfter (before : Text) : Nat := (before.rtakeWhile (· ≠ '\n')).length + 1

/-- The place of the character behind a text. -/
def spotAfter (before : Text) : Spot := before.foldl Spot.after .start

theorem spot_after_append (before text : Text) :
    spotAfter (before ++ text) = text.foldl Spot.after (spotAfter before) :=
  List.foldl_append

theorem spot_after_single (before : Text) (c : Char) :
    spotAfter (before ++ [c]) = (spotAfter before).after c := spot_after_append before [c]

theorem column_spot_after (before : Text) : (spotAfter before).column = columnAfter before := by
  induction before using List.reverseRecOn with
  | nil => rfl
  | append_singleton before c induction =>
      unfold columnAfter at *
      rw [spot_after_single, Spot.after]
      by_cases feed : c = '\n'
      · rw [if_pos feed, List.rtakeWhile_concat_neg _ _ _ (by simp [feed])]
        rfl
      · rw [if_neg feed, List.rtakeWhile_concat_pos _ _ _ (by simp [feed]), List.length_append]
        simpa using induction

/-- Reading a text has come past `before` and has `rest` before it. The lexemes seen stand with the
columns of their first characters. -/
inductive Passed (text : Text) : (before : Text) → List (Lexeme × Nat) → (rest : Text) → Prop
  | start : Passed text [] [] text
  | skip {before rest : Text} {seen : List (Lexeme × Nat)} {c : Char}
      (passed : Passed text before seen (c :: rest)) (blank : isSpace c = true) :
      Passed text (before ++ [c]) seen rest
  | take {before rest : Text} {seen : List (Lexeme × Nat)} {lexeme : Lexeme}
      (passed : Passed text before seen (lexeme.text ++ rest))
      (longest : lexeme.IsLongest (lexeme.text ++ rest)) :
      Passed text (before ++ lexeme.text) (seen ++ [(lexeme, columnAfter before)]) rest

/-- The column of the lexeme seen last. -/
def lastColumn (seen : List (Lexeme × Nat)) : Nat := (seen.getLast?.map Prod.snd).getD 1

section Passed

variable {text before rest : Text} {seen : List (Lexeme × Nat)}

theorem Passed.whole (passed : Passed text before seen rest) : before ++ rest = text := by
  induction passed with
  | start => rfl
  | skip passed blank induction => simpa using induction
  | take passed longest induction => simpa using induction

theorem Passed.well_formed (passed : Passed text before seen rest) :
    ∀ lexeme ∈ seen.map Prod.fst, lexeme.WellFormed := by
  induction passed with
  | start => exact List.forall_mem_nil _
  | skip passed blank induction => exact induction
  | take passed longest induction =>
      intro lexeme member
      rw [List.map_append, List.mem_append] at member
      rcases member with earlier | last
      · exact induction lexeme earlier
      · rw [List.mem_singleton.mp last]
        exact longest.wellFormed

end Passed

/-- Why reading stops behind the lexemes seen, with an expression in the making and the rest of the
text. -/
inductive StopsAt (before : Text) (seen : List (Lexeme × Nat)) (p : Partial) : Text → Fault → Prop
  | noLexeme {c : Char} {rest : Text} {spot : Spot} (solid : isSpace c = false)
      (none : Lexeme.first? (c :: rest) = none) (place : spot.column = columnAfter before) :
      StopsAt before seen p (c :: rest) (.noLexeme c spot)
  | unexpected {lexeme : Lexeme} {rest : Text} {spot : Spot} (longest : lexeme.IsLongest rest)
      (refused : p.read lexeme = none) (place : spot.column = columnAfter before) :
      StopsAt before seen p rest (.unexpected lexeme spot)
  | unexpectedEnd {spot : Spot} (unfinished : p.result? = none)
      (place : spot.column = lastColumn seen) : StopsAt before seen p [] (.unexpectedEnd spot)

/-- From any place that it has come to, reading goes on up to where it stops. -/
theorem Passed.stops {text before rest : Text} {seen : List (Lexeme × Nat)} {p : Partial}
    {last : Spot} {fault : Fault} (passed : Passed text before seen rest)
    (reads : Partial.start.readAll (seen.map Prod.fst) = some p)
    (lastPlace : last.column = lastColumn seen)
    (failed : readFrom p last (scanFrom 0 (spotAfter before) rest).stop
      (scanFrom 0 (spotAfter before) rest).lexemes = .error fault) :
    ∃ before seen rest p, Passed text before seen rest ∧
      Partial.start.readAll (seen.map Prod.fst) = some p ∧ StopsAt before seen p rest fault := by
  induction rest using scan_induction generalizing before seen p last with
  | nil =>
      rw [scanFrom, readFrom] at failed
      split at failed
      · cases failed
      · next unfinished =>
        cases failed
        exact ⟨before, seen, [], p, passed, reads, .unexpectedEnd unfinished lastPlace⟩
  | space c rest blank induction =>
      rw [scan_from_space blank, ← spot_after_single] at failed
      exact induction (passed.skip blank) reads lastPlace failed
  | stop c rest solid none =>
      rw [scan_from_stop solid none] at failed
      cases failed
      exact ⟨before, seen, _, p, passed, reads,
        .noLexeme solid none (column_spot_after before)⟩
  | take lexeme rest longest induction =>
      rw [scan_from_lexeme longest, ← spot_after_append, readFrom] at failed
      cases read : p.read lexeme with
      | none =>
          simp only [read] at failed
          cases failed
          exact ⟨before, seen, _, p, passed, reads,
            .unexpected longest read (column_spot_after before)⟩
      | some q =>
          have readsOn : Partial.start.readAll
              ((seen ++ [(lexeme, columnAfter before)]).map Prod.fst) = some q := by
            rw [List.map_append, Partial.read_all_append, reads, Option.bind_some]
            simp [Partial.readAll, read]
          have placeOn : (spotAfter before).column =
              lastColumn (seen ++ [(lexeme, columnAfter before)]) := by
            rw [column_spot_after]
            simp [lastColumn]
          simp only [read] at failed
          exact induction (passed.take longest) readsOn placeOn failed

theorem no_lexeme_starts {text : Text} (none : Lexeme.first? text = none) (lexeme : Lexeme)
    (wellFormed : lexeme.WellFormed) : ¬lexeme.text <+: text := by
  intro starts
  obtain ⟨found, read, _⟩ := Lexeme.first_longest wellFormed starts
  rw [none] at read
  cases read

/-- The lexemes read before a fault begin the lexemes of a text that is converted, and the fault is
at the first place where they cannot go on so. -/
theorem fault_is_exact {text : Text} {fault : Fault} (rejected : inPostfix text = .error fault) :
    ∃ before seen rest, Passed text before seen rest ∧ before ++ rest = text ∧
      (∃ more, Accepted (seen.map Prod.fst ++ more)) ∧
      match fault with
      | .unexpected lexeme _ => lexeme.IsLongest rest ∧
          (∀ more, ¬Accepted (seen.map Prod.fst ++ lexeme :: more)) ∧
          fault.position = columnAfter before
      | .unexpectedEnd _ => rest = [] ∧ ¬Accepted (seen.map Prod.fst) ∧
          fault.position = lastColumn seen
      | .noLexeme c _ => rest.head? = some c ∧ isSpace c = false ∧
          (∀ lexeme : Lexeme, lexeme.WellFormed → ¬lexeme.text <+: rest) ∧
          fault.position = columnAfter before := by
  have failed : Expression.ofText text = .error fault := by
    unfold inPostfix at rejected
    cases read : Expression.ofText text with
    | ok e =>
        rw [read] at rejected
        cases rejected
    | error other =>
        rw [read] at rejected
        cases rejected
        rfl
  have begun : Passed text [] [] text := .start
  obtain ⟨before, seen, rest, p, passed, reads, stops⟩ := begun.stops rfl rfl failed
  obtain ⟨missing, whole, completed⟩ := completed_of_read_all reads
  have begins : Accepted (seen.map Prod.fst ++ completion p missing) := by
    apply accepted_iff.mpr
    refine ⟨?_, whole, completed⟩
    intro lexeme member
    rcases List.mem_append.mp member with inSeen | added
    · exact passed.well_formed lexeme inSeen
    · exact completion_well_formed p missing lexeme added
  refine ⟨before, seen, rest, passed, passed.whole, ⟨_, begins⟩, ?_⟩
  cases stops with
  | noLexeme solid none place => exact ⟨rfl, solid, no_lexeme_starts none, place⟩
  | unexpected longest refused place =>
      refine ⟨longest, ?_, place⟩
      intro more accepted
      obtain ⟨_, tree, same⟩ := accepted_iff.mp accepted
      exact not_derived_of_refused reads refused more tree same
  | unexpectedEnd unfinished place =>
      refine ⟨rfl, ?_, place⟩
      intro accepted
      obtain ⟨_, tree, same⟩ := accepted_iff.mp accepted
      exact not_derived_of_unfinished reads unfinished tree same

theorem second_operand_fault :
    inPostfix "-(1 +\n  a2 3".toList = .error (.unexpected (.number ['3']) ⟨2, 6⟩) ∧
    ∃ before seen rest, Passed "-(1 +\n  a2 3".toList before seen rest ∧
      before ++ rest = "-(1 +\n  a2 3".toList ∧
      (∃ more, Accepted (seen.map Prod.fst ++ more)) ∧
      (Lexeme.number ['3']).IsLongest rest ∧
      (∀ more, ¬Accepted (seen.map Prod.fst ++ .number ['3'] :: more)) ∧
      6 = columnAfter before := by
  have rejected : inPostfix "-(1 +\n  a2 3".toList =
      .error (.unexpected (.number ['3']) ⟨2, 6⟩) := by decide +kernel
  exact ⟨rejected, fault_is_exact rejected⟩

end PostfixSheet.Infix
