import PostfixSheet.Proofs.Text.Pieces

/-!
# Joining undoes cutting

A text is put together again from the pieces that it was cut into, whatever stands between them and
however that overlaps itself. No piece holds what the text was cut at: an occurrence inside a piece
would start before the next cut, and the leftmost occurrence is the one that is cut at.
-/

namespace PostfixSheet.Text

section Pieces

variable {between : Text} {parts : List Text}

theorem intercalate_nil_cons (given : parts ≠ []) :
    between.intercalate ([] :: parts) = between ++ between.intercalate parts := by
  obtain ⟨first, rest, rfl⟩ := List.exists_cons_of_ne_nil given
  rw [intercalate_cons_of_some, List.nil_append]

theorem intercalate_cons_first (given : parts ≠ []) (c : Char) :
    between.intercalate (consFirst c parts) = c :: between.intercalate parts := by
  obtain ⟨first, rest, rfl⟩ := List.exists_cons_of_ne_nil given
  cases rest with
  | nil => simp [consFirst]
  | cons second rest =>
      rw [consFirst, intercalate_cons_of_some, intercalate_cons_of_some, List.cons_append]

theorem mem_intercalate_of_mem {part : Text} (member : part ∈ parts) {c : Char} (inside : c ∈ part) :
    c ∈ between.intercalate parts := by
  induction parts with
  | nil => cases member
  | cons first rest induction =>
      cases rest with
      | nil =>
          obtain rfl := List.mem_singleton.mp member
          rwa [List.intercalate_singleton]
      | cons second rest =>
          rw [intercalate_cons_of_some, List.mem_append, List.mem_append]
          rcases List.mem_cons.mp member with rfl | later
          · exact .inl inside
          · exact .inr (.inr (induction later))

theorem first_is_start (first : Text) (rest : List Text) :
    first <+: between.intercalate (first :: rest) := by
  cases rest with
  | nil => exact ⟨[], by rw [List.append_nil, List.intercalate_singleton]⟩
  | cons second rest =>
      rw [intercalate_cons_of_some]
      exact List.prefix_append _ _

end Pieces

theorem join_lines_lines (text : Text) : joinLines (lines text) = text := by
  rw [joinLines, lines]
  induction text with
  | nil => rfl
  | cons c text induction =>
      rw [split_where_cons]
      split
      · next cuts =>
        rw [intercalate_nil_cons (split_where_ne_nil _ _), induction, List.singleton_append,
          eq_of_beq cuts]
      · rw [intercalate_cons_first (split_where_ne_nil _ _), induction]

theorem join_fields_after (separator : Separator) (skip : Nat) (text : Text) :
    joinFields separator (fieldsAfter separator.text skip text) = text.drop skip := by
  rw [joinFields]
  induction text generalizing skip with
  | nil =>
      cases skip <;> rfl
  | cons c rest induction =>
      cases skip with
      | succ skip => exact induction skip
      | zero =>
          rw [fieldsAfter]
          split
          · next found =>
            obtain ⟨after, same⟩ := List.isPrefixOf_iff_prefix.mp found
            obtain ⟨first, tail, shape⟩ := List.exists_cons_of_ne_nil separator.ne_nil
            rw [intercalate_nil_cons (fields_after_ne_nil _ _ _), induction, List.drop_zero, ← same]
            rw [shape, List.cons_append] at same
            rw [← (List.cons.inj same).2, shape]
            simp
          · rw [intercalate_cons_first (fields_after_ne_nil _ _ _), induction, List.drop_zero,
              List.drop_zero]

theorem join_fields_fields (separator : Separator) (line : Text) :
    joinFields separator (fields separator line) = line :=
  join_fields_after separator 0 line

theorem not_infix_of_mem_fields_after {separator : Separator} {skip : Nat} {text part : Text}
    (member : part ∈ fieldsAfter separator.text skip text) : ¬separator.text <:+: part := by
  have notEmpty : ¬separator.text <:+: [] := fun inside =>
    separator.ne_nil (List.infix_nil.mp inside)
  induction text generalizing skip part with
  | nil =>
      have empty : part = [] := by cases skip <;> simpa [fieldsAfter] using member
      rwa [empty]
  | cons c rest induction =>
      cases skip with
      | succ skip => exact induction member
      | zero =>
          rw [fieldsAfter] at member
          split at member
          · rcases List.mem_cons.mp member with rfl | later
            · exact notEmpty
            · exact induction later
          · next other =>
            obtain ⟨first, others, shape⟩ :=
              List.exists_cons_of_ne_nil (fields_after_ne_nil separator.text 0 rest)
            have start : first <+: rest := by
              have joined := join_fields_after separator 0 rest
              rw [shape, joinFields, List.drop_zero] at joined
              rw [← joined]
              exact first_is_start first others
            rw [shape] at member
            rcases List.mem_cons.mp member with rfl | later
            · intro inside
              rcases List.infix_cons_iff.mp inside with front | inner
              · -- an occurrence at the front of the piece is one at the front of the text
                have found := front.trans ((List.prefix_cons_inj c).mpr start)
                exact other (List.isPrefixOf_iff_prefix.mpr found)
              · exact induction (shape ▸ List.mem_cons_self) inner
            · exact induction (shape ▸ List.mem_cons_of_mem _ later)

/-- No field of a line holds the separator. -/
theorem not_infix_of_mem_fields {separator : Separator} {line part : Text}
    (member : part ∈ fields separator line) : ¬separator.text <:+: part :=
  not_infix_of_mem_fields_after member

theorem mem_of_mem_fields {separator : Separator} {line part : Text}
    (member : part ∈ fields separator line) {c : Char} (inside : c ∈ part) : c ∈ line := by
  rw [← join_fields_fields separator line]
  exact mem_intercalate_of_mem member inside

theorem mem_of_mem_lines {text line : Text} (member : line ∈ lines text) {c : Char}
    (inside : c ∈ line) : c ∈ text := by
  rw [← join_lines_lines text]
  exact mem_intercalate_of_mem member inside

theorem not_mem_of_mem_split_where {cut : Char → Bool} {text piece : Text}
    (member : piece ∈ splitWhere cut text) {c : Char} (cuts : cut c = true) : c ∉ piece := by
  induction text generalizing piece with
  | nil =>
      obtain rfl : piece = [] := by simpa using member
      exact List.not_mem_nil
  | cons d text induction =>
      rw [split_where_cons] at member
      split at member
      · rcases List.mem_cons.mp member with rfl | later
        · exact List.not_mem_nil
        · exact induction later
      · next uncut =>
        obtain ⟨first, others, shape⟩ := List.exists_cons_of_ne_nil (split_where_ne_nil cut text)
        rw [shape] at member induction
        rcases List.mem_cons.mp member with rfl | later
        · have different : c ≠ d := by
            rintro rfl
            exact uncut cuts
          simpa [different] using induction List.mem_cons_self
        · exact induction (List.mem_cons_of_mem _ later)

theorem unbroken_of_mem_words {text word : Text} (member : word ∈ words text) : Unbroken word := by
  intro c inside
  rw [Bool.eq_false_iff]
  intro blank
  exact not_mem_of_mem_split_where (List.mem_of_mem_filter member) blank inside

theorem no_feed_in_line {text line : Text} (member : line ∈ lines text) : '\n' ∉ line :=
  not_mem_of_mem_split_where member rfl

end PostfixSheet.Text
