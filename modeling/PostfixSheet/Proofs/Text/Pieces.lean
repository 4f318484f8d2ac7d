import PostfixSheet.Text.Blank
import PostfixSheet.Text.Fields
import PostfixSheet.Text.Lines
import Mathlib.Data.List.Basic

/-!
# Cutting undoes joining

Pieces that are joined by a character and do not hold it come back when the text is cut there. For a
separator of any length, which may overlap itself or hold characters of the pieces, one character of
it that no piece holds is enough: the first such character of the text belongs to the first
separator, so nothing before that separator can be taken for one.
-/

namespace PostfixSheet.Text

section Cut

variable {cut : Char → Bool}

theorem split_where_uncut {piece : Text} (uncut : ∀ c ∈ piece, cut c = false) :
    splitWhere cut piece = [piece] := by
  induction piece with
  | nil => rfl
  | cons c piece induction =>
      have first : ¬cut c = true := by simp [uncut c]
      rw [split_where_cons, if_neg first, induction fun d member => uncut d (by simp [member])]
      rfl

/-- A cut parts a text into two that are split each on its own. -/
theorem split_where_at_cut {d : Char} (cuts : cut d = true) (front rest : Text) :
    splitWhere cut (front ++ d :: rest) = splitWhere cut front ++ splitWhere cut rest := by
  induction front with
  | nil =>
      rw [List.nil_append, split_where_cons, if_pos cuts]
      rfl
  | cons c front induction =>
      rw [List.cons_append, split_where_cons, split_where_cons, induction]
      split
      · rfl
      · obtain ⟨piece, pieces, same⟩ := List.exists_cons_of_ne_nil (split_where_ne_nil cut front)
        rw [same]
        rfl

theorem split_where_append {piece : Text} (uncut : ∀ c ∈ piece, cut c = false) {d : Char}
    (cuts : cut d = true) (rest : Text) :
    splitWhere cut (piece ++ d :: rest) = piece :: splitWhere cut rest := by
  rw [split_where_at_cut cuts, split_where_uncut uncut]
  rfl

theorem split_where_intercalate {d : Char} (cuts : cut d = true) {pieces : List Text}
    (given : pieces ≠ []) (uncut : ∀ piece ∈ pieces, ∀ c ∈ piece, cut c = false) :
    splitWhere cut ([d].intercalate pieces) = pieces := by
  induction pieces with
  | nil => exact absurd rfl given
  | cons piece pieces induction =>
      have firstUncut := uncut piece (by simp)
      cases pieces with
      | nil =>
          rw [List.intercalate_singleton]
          exact split_where_uncut firstUncut
      | cons second pieces =>
          rw [List.intercalate_cons_cons, List.append_assoc, List.singleton_append,
            split_where_append firstUncut cuts,
            induction (by simp) fun other member => uncut other (by simp [member])]

end Cut

theorem lines_join_lines {parts : List Text} (given : parts ≠ [])
    (oneLine : ∀ part ∈ parts, '\n' ∉ part) : lines (joinLines parts) = parts := by
  refine split_where_intercalate rfl given ?_
  intro part member c inside
  rw [beq_eq_false_iff_ne]
  rintro rfl
  exact oneLine part member inside

def Unbroken (text : Text) : Prop := ∀ c ∈ text, isBlank c = false

theorem unbroken_append {front back : Text} (first : Unbroken front) (second : Unbroken back) :
    Unbroken (front ++ back) := by
  intro c member
  exact (List.mem_append.mp member).elim (first c) (second c)

theorem unbroken_cons {c : Char} {text : Text} (first : isBlank c = false)
    (further : Unbroken text) : Unbroken (c :: text) :=
  List.forall_mem_cons.mpr ⟨first, further⟩

theorem unbroken_single {c : Char} (unbroken : isBlank c = false) : Unbroken [c] :=
  unbroken_cons unbroken (List.forall_mem_nil _)

theorem words_at_blank {c : Char} (blank : isBlank c = true) (front rest : Text) :
    words (front ++ c :: rest) = words front ++ words rest := by
  rw [words, split_where_at_cut blank, List.filter_append]
  rfl

theorem words_of_blanks {blanks : Text} (all : ∀ c ∈ blanks, isBlank c = true) (rest : Text) :
    words (blanks ++ rest) = words rest := by
  induction blanks with
  | nil => rfl
  | cons c blanks induction =>
      have further := induction fun d member => all d (by simp [member])
      calc words (c :: (blanks ++ rest)) = words [] ++ words (blanks ++ rest) :=
            words_at_blank (all c (by simp)) [] (blanks ++ rest)
        _ = words rest := further

/-- Words with single spaces between them are the words of the text. -/
theorem words_intercalate {parts : List Text} (some : ∀ part ∈ parts, part ≠ [])
    (unbroken : ∀ part ∈ parts, Unbroken part) :
    words ([' '].intercalate parts) = parts := by
  by_cases given : parts = []
  · rw [given, List.intercalate_nil]
    rfl
  · have cuts : isBlank ' ' = true := by decide
    rw [words, split_where_intercalate cuts given unbroken, List.filter_eq_self]
    intro part member
    simpa using some part member

theorem words_single {word : Text} (some : word ≠ []) (unbroken : Unbroken word) :
    words word = [word] := by
  have single : words ([' '].intercalate [word]) = [word] :=
    words_intercalate (by simpa using some) (by simpa using unbroken)
  rwa [List.intercalate_singleton] at single

section Intercalate

variable {between : Text} {parts : List Text} {c : Char}

theorem intercalate_cons_of_some (first second : Text) (parts : List Text) :
    between.intercalate (first :: second :: parts) =
      first ++ (between ++ between.intercalate (second :: parts)) := by
  rw [List.intercalate_cons_cons, List.append_assoc]

theorem mem_intercalate (member : c ∈ between.intercalate parts) :
    c ∈ between ∨ ∃ part ∈ parts, c ∈ part := by
  induction parts with
  | nil => cases member
  | cons first parts induction =>
      cases parts with
      | nil =>
          rw [List.intercalate_singleton] at member
          exact .inr ⟨first, List.mem_singleton_self first, member⟩
      | cons second parts =>
          rw [intercalate_cons_of_some] at member
          rcases List.mem_append.mp member with inside | member
          · exact .inr ⟨first, List.mem_cons_self, inside⟩
          · rcases List.mem_append.mp member with inside | member
            · exact .inl inside
            · rcases induction member with inside | ⟨part, further, inside⟩
              · exact .inl inside
              · exact .inr ⟨part, List.mem_cons_of_mem _ further, inside⟩

variable (some : ∀ part ∈ parts, part ≠ [])

include some

theorem intercalate_ne_nil (given : parts ≠ []) : between.intercalate parts ≠ [] := by
  obtain ⟨first, rest, rfl⟩ := List.exists_cons_of_ne_nil given
  have firstSome := some first List.mem_cons_self
  cases rest with
  | nil => rwa [List.intercalate_singleton]
  | cons second rest =>
      rw [intercalate_cons_of_some]
      exact List.append_ne_nil_of_left_ne_nil firstSome _

theorem head_intercalate (starts : c ∈ (between.intercalate parts).head?) :
    ∃ part ∈ parts, c ∈ part.head? := by
  cases parts with
  | nil => cases starts
  | cons first rest =>
      refine ⟨first, List.mem_cons_self, ?_⟩
      cases rest with
      | nil => rwa [List.intercalate_singleton] at starts
      | cons second rest =>
          rwa [intercalate_cons_of_some,
            List.head?_append_of_ne_nil _ (some first List.mem_cons_self)] at starts

theorem last_intercalate (ends : c ∈ (between.intercalate parts).getLast?) :
    ∃ part ∈ parts, c ∈ part.getLast? := by
  induction parts with
  | nil => cases ends
  | cons first rest induction =>
      cases rest with
      | nil =>
          rw [List.intercalate_singleton] at ends
          exact ⟨first, List.mem_singleton_self first, ends⟩
      | cons second rest =>
          have further : ∀ part ∈ second :: rest, part ≠ [] :=
            fun part member => some part (List.mem_cons_of_mem _ member)
          rw [intercalate_cons_of_some, List.getLast?_append_of_ne_nil _
            (List.append_ne_nil_of_right_ne_nil _ (intercalate_ne_nil further (by simp))),
            List.getLast?_append_of_ne_nil _ (intercalate_ne_nil further (by simp))] at ends
          obtain ⟨part, member, last⟩ := induction further ends
          exact ⟨part, List.mem_cons_of_mem _ member, last⟩

end Intercalate

theorem trim_of_ends {cut : Char → Bool} {text : Text}
    (first : ∀ c ∈ text.head?, cut c = false) (last : ∀ c ∈ text.getLast?, cut c = false) :
    trim cut text = text := by
  have front : text.dropWhile cut = text := by
    cases text with
    | nil => rfl
    | cons c text =>
        exact List.dropWhile_cons_of_neg (by simp [first c rfl])
  have back : text.reverse.dropWhile cut = text.reverse := by
    cases reversed : text.reverse with
    | nil => rfl
    | cons c rest =>
        have ends : c ∈ text.getLast? := by
          rw [← List.head?_reverse, reversed]
          rfl
        exact List.dropWhile_cons_of_neg (by simp [last c ends])
  rw [trim, front, back, List.reverse_reverse]

theorem unify_line_ends_of_no_return {text : Text} (noReturn : '\r' ∉ text) :
    unifyLineEnds text = text := by
  induction text with
  | nil => rfl
  | cons c text induction =>
      have plain : c ≠ '\r' := by
        rintro rfl
        simp at noReturn
      have further := induction fun member => noReturn (by simp [member])
      unfold unifyLineEnds
      split
      · next same => cases same
      · next same => exact absurd (List.cons.inj same).1 plain
      · next same =>
        obtain ⟨rfl, rfl⟩ := List.cons.inj same
        rw [if_neg plain, further]

section Fields

variable {separator : Separator} {own : Char}

/-- The first place of the character tells where the first separator can stand. -/
theorem not_separator_before {part rest : Text} (held : own ∈ separator.text)
    (foreign : own ∉ part) (some : part ≠ []) :
    ¬separator.text <+: part ++ (separator.text ++ rest) := by
  rintro ⟨after, same⟩
  have early : (separator.text ++ after).idxOf own = separator.text.idxOf own :=
    List.idxOf_append_of_mem held
  have late : (part ++ (separator.text ++ rest)).idxOf own =
      separator.text.idxOf own + part.length := by
    rw [List.idxOf_append_of_notMem foreign, List.idxOf_append_of_mem held, Nat.add_comm]
  have length := List.length_pos_iff.mpr some
  rw [same, late] at early
  omega

theorem fields_after_separator (rest : Text) :
    fieldsAfter separator.text 0 (separator.text ++ rest) =
      [] :: fieldsAfter separator.text 0 rest := by
  obtain ⟨c, tail, shape⟩ := List.exists_cons_of_ne_nil separator.ne_nil
  have found : separator.text.isPrefixOf (separator.text ++ rest) = true := by simp
  rw [shape] at found ⊢
  rw [List.cons_append, fieldsAfter, ← List.cons_append, if_pos found, fields_after_drop]
  simp

theorem fields_after_other {c : Char} {rest : Text} (other : ¬separator.text <+: c :: rest) :
    fieldsAfter separator.text 0 (c :: rest) =
      consFirst c (fieldsAfter separator.text 0 rest) := by
  rw [fieldsAfter, if_neg (by simpa using other)]

theorem fields_after_append {part : Text} (held : own ∈ separator.text) (foreign : own ∉ part)
    (rest : Text) :
    fieldsAfter separator.text 0 (part ++ (separator.text ++ rest)) =
      part :: fieldsAfter separator.text 0 rest := by
  induction part with
  | nil => exact fields_after_separator rest
  | cons c part induction =>
      have before : ¬separator.text <+: c :: (part ++ (separator.text ++ rest)) :=
        not_separator_before held foreign (by simp)
      have further := induction fun member => foreign (by simp [member])
      rw [List.cons_append, fields_after_other before, further]
      rfl

theorem fields_after_foreign {part : Text} (held : own ∈ separator.text) (foreign : own ∉ part) :
    fieldsAfter separator.text 0 part = [part] := by
  induction part with
  | nil => rfl
  | cons c part induction =>
      have nowhere : ¬separator.text <+: c :: part := fun starts => foreign (starts.subset held)
      have further := induction fun member => foreign (by simp [member])
      rw [fields_after_other nowhere, further]
      rfl

/-- Fields that miss one character of the separator come back when they are joined and cut. -/
theorem fields_join_fields {parts : List Text} (given : parts ≠ []) (held : own ∈ separator.text)
    (foreign : ∀ part ∈ parts, own ∉ part) :
    fields separator (joinFields separator parts) = parts := by
  rw [fields, joinFields]
  induction parts with
  | nil => exact absurd rfl given
  | cons part parts induction =>
      have firstForeign := foreign part (by simp)
      cases parts with
      | nil =>
          rw [List.intercalate_singleton]
          exact fields_after_foreign held firstForeign
      | cons second parts =>
          rw [List.intercalate_cons_cons, List.append_assoc, fields_after_append held firstForeign,
            induction (by simp) fun other member => foreign other (by simp [member])]

end Fields

end PostfixSheet.Text
