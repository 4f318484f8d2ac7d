import PostfixSheet.Proofs.Text.Joined

/-!
# The lines of a text

What a line is can be said without changing the text: it holds no carriage return and no line feed,
and behind it stands one of the two, or both of them in this order. The text with its line ends made
one kind has exactly these lines. Making them one kind in a single pass is what two replacements do
one after the other: first those of both characters, then those of the returns that are left.
-/

namespace PostfixSheet.Text

/-- A text without any line end. -/
def OneLine (text : Text) : Prop := '\r' ∉ text ∧ '\n' ∉ text

instance (text : Text) : Decidable (OneLine text) :=
  inferInstanceAs (Decidable ('\r' ∉ text ∧ '\n' ∉ text))

/-- A text is made of lines with a line end between any two of them. A carriage return ends a line
by itself only if no line feed comes after it. -/
inductive HasLines : Text → List Text → Prop
  | last {line : Text} (whole : OneLine line) : HasLines line [line]
  | both {line rest : Text} {lines : List Text} (whole : OneLine line)
      (further : HasLines rest lines) : HasLines (line ++ '\r' :: '\n' :: rest) (line :: lines)
  | carriageReturn {line rest : Text} {lines : List Text} (whole : OneLine line)
      (alone : rest.head? ≠ some '\n') (further : HasLines rest lines) :
      HasLines (line ++ '\r' :: rest) (line :: lines)
  | lineFeed {line rest : Text} {lines : List Text} (whole : OneLine line)
      (further : HasLines rest lines) : HasLines (line ++ '\n' :: rest) (line :: lines)

theorem one_line_nil : OneLine [] := ⟨List.not_mem_nil, List.not_mem_nil⟩

theorem OneLine.cons {c : Char} {line : Text} (notReturn : c ≠ '\r') (notFeed : c ≠ '\n')
    (whole : OneLine line) : OneLine (c :: line) := by
  simpa [OneLine, notReturn.symm, notFeed.symm] using whole

theorem unify_line_ends_cons {c : Char} {rest : Text}
    (apart : ∀ further, c = '\r' → rest = '\n' :: further → False) :
    unifyLineEnds (c :: rest) = (if c = '\r' then '\n' else c) :: unifyLineEnds rest := by
  rw [unifyLineEnds]
  exact apart

theorem unify_line_ends_cons_other {c : Char} (notReturn : c ≠ '\r') (rest : Text) :
    unifyLineEnds (c :: rest) = c :: unifyLineEnds rest := by
  rw [unify_line_ends_cons fun _ same => absurd same notReturn, if_neg notReturn]

theorem unify_line_ends_return_alone {rest : Text} (alone : rest.head? ≠ some '\n') :
    unifyLineEnds ('\r' :: rest) = '\n' :: unifyLineEnds rest := by
  have apart : ∀ further, '\r' = '\r' → rest = '\n' :: further → False := by
    rintro further - rfl
    exact alone rfl
  rw [unify_line_ends_cons apart, if_pos rfl]

theorem unify_line_ends_append {line : Text} (whole : OneLine line) (rest : Text) :
    unifyLineEnds (line ++ rest) = line ++ unifyLineEnds rest := by
  induction line with
  | nil => rfl
  | cons c line induction =>
      have notReturn : c ≠ '\r' := by
        rintro rfl
        exact whole.1 List.mem_cons_self
      have further : OneLine line :=
        ⟨fun member => whole.1 (List.mem_cons_of_mem _ member),
          fun member => whole.2 (List.mem_cons_of_mem _ member)⟩
      rw [List.cons_append, unify_line_ends_cons_other notReturn, induction further,
        List.cons_append]

theorem no_return_in_unified (text : Text) : '\r' ∉ unifyLineEnds text := by
  induction text using unifyLineEnds.induct with
  | case1 => exact List.not_mem_nil
  | case2 rest induction => simpa [unifyLineEnds] using induction
  | case3 c rest other induction =>
      rw [unify_line_ends_cons other]
      split
      · simpa using induction
      · next notReturn => simpa [Ne.symm notReturn] using induction

theorem HasLines.eq_lines {text : Text} {parts : List Text} (read : HasLines text parts) :
    parts = lines (unifyLineEnds text) := by
  have uncut : ∀ {line : Text}, OneLine line → ∀ c ∈ line, (c == '\n') = false := by
    intro line whole c member
    rw [beq_eq_false_iff_ne]
    rintro rfl
    exact whole.2 member
  induction read with
  | @last line whole =>
      rw [← List.append_nil line, unify_line_ends_append whole, unifyLineEnds, List.append_nil]
      exact (split_where_uncut (uncut whole)).symm
  | both whole further induction =>
      rw [unify_line_ends_append whole, unifyLineEnds, induction]
      exact (split_where_append (uncut whole) rfl _).symm
  | carriageReturn whole alone further induction =>
      rw [unify_line_ends_append whole, unify_line_ends_return_alone alone, induction]
      exact (split_where_append (uncut whole) rfl _).symm
  | lineFeed whole further induction =>
      rw [unify_line_ends_append whole, unify_line_ends_cons_other (by decide), induction]
      exact (split_where_append (uncut whole) rfl _).symm

/-- A character that ends no line belongs to the first line. -/
theorem HasLines.cons_first {c : Char} (notReturn : c ≠ '\r') (notFeed : c ≠ '\n') {text : Text}
    {parts : List Text} (read : HasLines text parts) :
    HasLines (c :: text) (Text.consFirst c parts) := by
  cases read with
  | last whole => exact .last (whole.cons notReturn notFeed)
  | both whole further => exact .both (whole.cons notReturn notFeed) further
  | carriageReturn whole alone further =>
      exact .carriageReturn (whole.cons notReturn notFeed) alone further
  | lineFeed whole further => exact .lineFeed (whole.cons notReturn notFeed) further

theorem has_lines_of_unified (text : Text) : HasLines text (lines (unifyLineEnds text)) := by
  induction text using unifyLineEnds.induct with
  | case1 => exact .last one_line_nil
  | case2 rest induction => exact .both one_line_nil induction
  | case3 c rest other induction =>
      rw [unify_line_ends_cons other]
      split
      · next same =>
        subst same
        refine .carriageReturn one_line_nil ?_ induction
        intro feed
        obtain ⟨further, rfl⟩ := List.head?_eq_some_iff.mp feed
        exact other further rfl rfl
      · next notReturn =>
        by_cases feed : c = '\n'
        · subst feed
          exact .lineFeed one_line_nil induction
        · have first : (c == '\n') = false := beq_eq_false_iff_ne.mpr feed
          have cut : lines (c :: unifyLineEnds rest) =
              Text.consFirst c (lines (unifyLineEnds rest)) := by
            simp [lines, split_where_cons, first]
          rw [cut]
          exact induction.cons_first notReturn feed

/-- The lines of a text are those of the text with one kind of line end. -/
theorem has_lines_iff {text : Text} {parts : List Text} :
    HasLines text parts ↔ parts = lines (unifyLineEnds text) := by
  constructor
  · exact HasLines.eq_lines
  · rintro rfl
    exact has_lines_of_unified text

/-- Another text in the place of every occurrence of a text. The occurrences are found from the left
and do not overlap. -/
def replaceAll (old : Separator) (new text : Text) : Text := new.intercalate (fields old text)

theorem replace_all_cons {old : Separator} {c : Char} {rest : Text} (new : Text)
    (other : ¬old.text <+: c :: rest) :
    replaceAll old new (c :: rest) = c :: replaceAll old new rest := by
  rw [replaceAll, fields, fields_after_other other,
    intercalate_cons_first (fields_after_ne_nil _ _ _), replaceAll, fields]

theorem replace_all_append (old : Separator) (new rest : Text) :
    replaceAll old new (old.text ++ rest) = new ++ replaceAll old new rest := by
  rw [replaceAll, fields, fields_after_separator,
    intercalate_nil_cons (fields_after_ne_nil _ _ _), replaceAll, fields]

def returnAndFeed : Separator := ⟨['\r', '\n'], by decide⟩

def returnAlone : Separator := ⟨['\r'], by decide⟩

theorem replace_returns (text : Text) :
    replaceAll returnAlone ['\n'] text = text.map fun c => if c = '\r' then '\n' else c := by
  induction text with
  | nil => rfl
  | cons c rest induction =>
      rw [List.map_cons, ← induction]
      by_cases same : c = '\r'
      · subst same
        exact replace_all_append returnAlone ['\n'] rest
      · rw [if_neg same]
        apply replace_all_cons
        simpa [returnAlone] using Ne.symm same

/-- Two replacements one after the other make all line ends one kind. -/
theorem unify_line_ends_eq_replaced (text : Text) :
    unifyLineEnds text =
      replaceAll returnAlone ['\n'] (replaceAll returnAndFeed ['\n'] text) := by
  rw [replace_returns]
  induction text using unifyLineEnds.induct with
  | case1 => rfl
  | case2 rest induction =>
      have both : replaceAll returnAndFeed ['\n'] ('\r' :: '\n' :: rest) =
          '\n' :: replaceAll returnAndFeed ['\n'] rest := replace_all_append _ _ rest
      rw [unifyLineEnds, induction, both]
      rfl
  | case3 c rest other induction =>
      have apart : ¬returnAndFeed.text <+: c :: rest := by
        rintro ⟨further, same⟩
        obtain ⟨first, second⟩ := List.cons.inj same
        exact other further first.symm second.symm
      rw [unify_line_ends_cons other, induction, replace_all_cons ['\n'] apart, List.map_cons]

end PostfixSheet.Text
