import PostfixSheet.Proofs.Json.RoundTrip

/-!
# Objects behind other text

An object that stands behind other text is not read, whatever the text is. If the text leaves a
string open, the quote before the first key of the object closes it, and the key stands bare. If not,
the tokens of the object come behind others. Then the value in the making is not at its start any
more and never gets back there, and only at its start would a whole object make it complete.
-/

namespace PostfixSheet.Json

open Numeral (leadingSign leadingExponent)

/-- A text starts with a part that has no opening brace. -/
structure Taken (part text : Text) : Prop where
  start : part <+: text
  noBrace : '\x7b' ∉ part

theorem Taken.nil (text : Text) : Taken [] text := ⟨List.nil_prefix, List.not_mem_nil⟩

theorem Taken.append {part further text : Text} (first : Taken part text)
    (behind : Taken further (text.drop part.length)) : Taken (part ++ further) text := by
  obtain ⟨rest, rfl⟩ := first.start
  rw [List.drop_left] at behind
  constructor
  · exact (List.prefix_append_right_inj part).mpr behind.start
  · rw [List.mem_append]
    exact not_or.mpr ⟨first.noBrace, behind.noBrace⟩

theorem taken_digits (text : Text) : Taken (text.takeWhile Char.isDigit) text := by
  refine ⟨List.takeWhile_prefix _, ?_⟩
  intro brace
  have digit := List.all_eq_true.mp List.all_takeWhile _ brace
  exact absurd digit (by decide)

theorem taken_minus (text : Text) : Taken (leadingMinus text) text := by
  unfold leadingMinus
  split
  · exact ⟨⟨_, rfl⟩, by decide⟩
  · exact .nil text

theorem taken_whole (text : Text) : Taken (leadingWhole text) text := by
  unfold leadingWhole
  split
  · exact ⟨⟨_, rfl⟩, by decide⟩
  · exact taken_digits text

theorem taken_fraction (text : Text) : Taken (leadingFraction text) text := by
  unfold leadingFraction
  split
  · next rest =>
    have digits := taken_digits rest
    simp only
    split
    · exact .nil _
    · exact ⟨(List.prefix_cons_inj '.').mpr digits.start,
        List.not_mem_cons_of_ne_of_not_mem (by decide) digits.noBrace⟩
  · exact .nil text

theorem taken_sign (text : Text) : Taken (leadingSign text) text := by
  unfold leadingSign
  split
  · exact ⟨⟨_, rfl⟩, by decide⟩
  · exact ⟨⟨_, rfl⟩, by decide⟩
  · exact .nil text

theorem leading_exponent_cons (c : Char) (rest : Text) :
    leadingExponent (c :: rest) =
      let digits := (rest.drop (leadingSign rest).length).takeWhile Char.isDigit
      if c = 'e' ∨ c = 'E' then if digits.isEmpty then [] else c :: leadingSign rest ++ digits
      else [] := rfl

theorem taken_exponent (text : Text) : Taken (leadingExponent text) text := by
  cases text with
  | nil => exact .nil []
  | cons c rest =>
      rw [leading_exponent_cons]
      simp only
      split
      · next letter =>
        split
        · exact .nil _
        · have whole := (taken_sign rest).append (taken_digits _)
          constructor
          · exact (List.prefix_cons_inj c).mpr whole.start
          · rw [List.cons_append, List.mem_cons, not_or]
            refine ⟨?_, whole.noBrace⟩
            rcases letter with rfl | rfl
            · decide
            · decide
      · exact .nil _

theorem taken_number {text spelling : Text} (found : leadingNumber? text = some spelling) :
    Taken spelling text := by
  rw [leading_number_eq] at found
  simp only at found
  split at found
  · cases found
  · obtain rfl := Option.some.inj found
    have whole := (taken_minus text).append (taken_whole _)
    have fraction := whole.append (taken_fraction _)
    rw [← List.length_append, List.drop_drop, ← List.length_append]
    exact fraction.append (taken_exponent _)

/-- Behind its first character no token has an opening brace. -/
theorem taken_first {c : Char} {text : Text} {token : Token}
    (found : Token.first? (c :: text) = some token) : Taken (token.text.drop 1) text := by
  rw [Token.first?] at found
  cases fixed : fixedTokens.find? (·.text.isPrefixOf (c :: text)) with
  | some other =>
      rw [fixed] at found
      obtain rfl := Option.some.inj found
      have noBrace : ∀ token ∈ fixedTokens, '\x7b' ∉ token.text.drop 1 := by decide
      have start : other.text <+: c :: text := by simpa using List.find?_some fixed
      exact ⟨start.drop 1, noBrace other (List.mem_of_find?_eq_some fixed)⟩
  | none =>
      rw [fixed] at found
      obtain ⟨spelling, number, rfl⟩ := Option.map_eq_some_iff.mp found
      have taken := taken_number number
      exact ⟨taken.start.drop 1, fun member => taken.noBrace (List.mem_of_mem_drop member)⟩

/-- What is taken from a text before a brace ends before the brace. -/
theorem Taken.length_le {part front rest : Text} (taken : Taken part (front ++ '\x7b' :: rest)) :
    part.length ≤ front.length := by
  by_contra longer
  have whole : front ++ ['\x7b'] <+: part := by
    refine List.prefix_of_prefix_length_le ?_ taken.start (by simp; omega)
    exact ⟨rest, by simp⟩
  exact taken.noBrace (whole.subset (by simp))

/-- Tokens that cannot all be read, or that end with given ones. -/
def Behind (object tokens : List Token) : Prop :=
  .bad ∈ tokens ∨ ∃ before, tokens = before ++ object

/-- Tokens that cannot all be read, or that end with given ones and have others before them. -/
def BehindOthers (object tokens : List Token) : Prop :=
  .bad ∈ tokens ∨ ∃ token before, tokens = token :: (before ++ object)

theorem BehindOthers.behind {object tokens : List Token} (behind : BehindOthers object tokens) :
    Behind object tokens := by
  rcases behind with bad | ⟨token, before, rfl⟩
  · exact .inl bad
  · exact .inr ⟨token :: before, rfl⟩

theorem Behind.cons {object tokens : List Token} (behind : Behind object tokens) (token : Token) :
    BehindOthers object (token :: tokens) := by
  rcases behind with bad | ⟨before, rfl⟩
  · exact .inl (List.mem_cons_of_mem token bad)
  · exact .inr ⟨token, before, rfl⟩

theorem behind_others_of_bad (object : List Token) : BehindOthers object [.bad] :=
  .inl List.mem_cons_self

/-- How a scan goes on over a front and the text of an object behind it, from every position. -/
structure ComesBehind (object : List Token) (text : Text) (length : Nat) : Prop where
  between : Behind object (scanFrom .between text)
  inToken : ∀ left ≤ length, Behind object (scanFrom (.inToken left) text)
  inString : ∀ done, BehindOthers object (scanFrom (.inString done) text)
  afterBackslash : ∀ done, BehindOthers object (scanFrom (.afterBackslash done) text)
  inEscape : ∀ done left value, BehindOthers object (scanFrom (.inEscape done left value) text)

/-- Before a character that is no blank a token, a string or the end of the scan comes first. -/
theorem ComesBehind.others {object : List Token} {front tail : Text} {c : Char}
    (further : ComesBehind object (front ++ '\x7b' :: tail) front.length)
    (mark : isSpace c = false) :
    BehindOthers object (scanFrom .between (c :: (front ++ '\x7b' :: tail))) := by
  rw [scanFrom, if_neg (by simp [mark])]
  split
  · exact further.inString []
  · split
    · next token found =>
      have short := (taken_first found).length_le
      rw [List.length_drop] at short
      exact (further.inToken _ short).cons token
    · exact behind_others_of_bad _

section Scan

variable {object : List Token} {tail : Text}
  (scanned : scanFrom .between ('\x7b' :: '\x22' :: tail) = object)
  (bare : .bad ∈ scanFrom .between tail)
include scanned bare

/-- The object itself. Inside a string its first quote is the one that ends the string. -/
theorem comes_behind_nothing : ComesBehind object ('\x7b' :: '\x22' :: tail) 0 where
  between := .inr ⟨[], scanned⟩
  inToken := by
    intro left bounded
    obtain rfl := Nat.le_zero.mp bounded
    exact .inr ⟨[], scanned⟩
  inString := by
    intro done
    left
    rw [scanFrom, if_neg (by decide), if_neg (by decide), if_neg (by decide), scan_closing_quote]
    exact List.mem_cons_of_mem _ bare
  afterBackslash done := behind_others_of_bad _
  inEscape done left value := behind_others_of_bad _

theorem comes_behind (front : Text) :
    ComesBehind object (front ++ '\x7b' :: '\x22' :: tail) front.length := by
  induction front with
  | nil => exact comes_behind_nothing scanned bare
  | cons c front induction =>
      have between :
          Behind object (scanFrom .between (c :: (front ++ '\x7b' :: '\x22' :: tail))) := by
        cases mark : isSpace c with
        | true =>
            rw [scanFrom, if_pos mark]
            exact induction.between
        | false => exact (induction.others mark).behind
      rw [List.cons_append]
      constructor
      · exact between
      · intro left bounded
        cases left with
        | zero => exact between
        | succ left => exact induction.inToken left (Nat.le_of_succ_le_succ bounded)
      · intro done
        rw [scanFrom]
        split
        · exact induction.between.cons _
        · split
          · exact induction.afterBackslash done
          · split
            · exact behind_others_of_bad _
            · exact induction.inString _
      · intro done
        rw [scanFrom]
        split
        · exact induction.inEscape done 3 0
        · split
          · exact induction.inString _
          · exact behind_others_of_bad _
      · intro done left value
        rw [scanFrom]
        split
        · exact behind_others_of_bad _
        · split
          · exact induction.inString _
          · exact induction.inEscape _ _ _

end Scan

/-! ## Reading -/

section Limit

variable {limit : Nat}

theorem bad_refused (p : Partial) : p.read limit .bad = .error .malformed := by
  generalize same : Token.bad = token
  unfold Partial.read
  split
  all_goals first
    | rfl
    | cases same

theorem read_bad {tokens : List Token} (bad : .bad ∈ tokens) (p : Partial) (value : Json) :
    readFrom limit p tokens ≠ .ok value := by
  induction tokens generalizing p with
  | nil => cases bad
  | cons token tokens induction =>
      rw [readFrom]
      split
      · next q step =>
        apply induction
        refine (List.mem_cons.mp bad).resolve_left ?_
        rintro rfl
        rw [bad_refused] at step
        cases step
      · simp

/-- What a token makes does not change with a greater limit, which only lets more be opened. -/
theorem read_with_greater {greater : Nat} (least : limit ≤ greater) {p q : Partial} {token : Token}
    (step : p.read limit token = .ok q) : p.read greater token = .ok q := by
  unfold Partial.read at step
  split at step
  case h_5 => exact step
  case h_7 | h_9 =>
    split at step
    · next room =>
      rw [Partial.read, if_pos (room.trans_le least)]
      exact step
    · cases step
  case h_11 outer fields key =>
    cases step
    cases fields <;> rfl
  all_goals
    cases step
    try rfl

theorem read_from_with_greater {greater : Nat} (least : limit ≤ greater) {tokens : List Token}
    {p : Partial} {value : Json} (made : readFrom limit p tokens = .ok value) :
    readFrom greater p tokens = .ok value := by
  induction tokens generalizing p with
  | nil =>
      cases p with
      | complete outer _ => cases outer <;> exact made
      | _ => exact made
  | cons token tokens induction =>
      rw [readFrom] at made
      split at made
      · next q step =>
        rw [read_from_ok (read_with_greater least step)]
        exact induction made
      · cases made

/-- Once a token has been read, a value in the making is never at its start again. -/
theorem read_goes_on {p q : Partial} {token : Token} (step : p.read limit token = .ok q) :
    q ≠ .wantsValue [] := by
  unfold Partial.read at step
  split at step
  case h_5 outer spelling =>
    cases number : ofNumber spelling with
    | ok value =>
        rw [number] at step
        cases step
        nofun
    | error fault =>
        rw [number] at step
        cases step
  case h_7 | h_9 =>
    split at step
    · cases step
      nofun
    · cases step
  all_goals
    cases step
    try nofun

/-- An object completes what has been read only if nothing has been read before it. -/
theorem read_object_behind {deep : Nat} {tokens : List Token} {object : Json}
    (spells : Spells deep tokens object) (opens : ∃ inner, tokens = .openObject :: inner)
    (before : List Token) {p : Partial} (started : p ≠ .wantsValue []) (value : Json) :
    readFrom limit p (before ++ tokens) ≠ .ok value := by
  induction before generalizing p with
  | nil =>
      rw [List.nil_append]
      cases p with
      | wantsValue outer =>
          cases outer with
          | nil => exact absurd rfl started
          | cons part outer =>
              intro complete
              have least : limit ≤ limit + ((part :: outer).length + deep) := Nat.le_add_right _ _
              have made := spells.reads _ (part :: outer) [] (Nat.le_add_left _ limit)
              rw [List.append_nil, read_from_with_greater least complete] at made
              cases made
      | wantsKey outer fields =>
          obtain ⟨inner, rfl⟩ := opens
          intro complete
          cases fields <;> cases complete
      | wantsColon outer fields key =>
          obtain ⟨inner, rfl⟩ := opens
          intro complete
          cases complete
      | complete outer done =>
          obtain ⟨inner, rfl⟩ := opens
          intro complete
          rcases outer with _ | ⟨_ | _, outer⟩ <;> cases complete
  | cons token before induction =>
      rw [List.cons_append, readFrom]
      split
      · next q step => exact induction (read_goes_on step)
      · simp

end Limit

/-- Without its first quote a key is no token, and the scan ends there. -/
def StandsBare (key : Signs) : Prop :=
  ∀ rest, .bad ∈ scanFrom .between (key.flatMap escapeSign ++ rest)

theorem separated_start (part : List Token) (parts : List (List Token)) :
    ∃ further, separated (part :: parts) = part ++ further := by
  cases parts with
  | nil => exact ⟨[], by rw [separated_single, List.append_nil]⟩
  | cons other parts => exact ⟨_, separated_cons part other parts⟩

theorem keys_of_field_tokens (fields : Fields) :
    (fieldTokens fields).map Prod.fst = fields.map Prod.fst := by
  induction fields with
  | nil => rfl
  | cons field fields induction =>
      rw [fieldTokens, List.map_cons, List.map_cons, induction]

/-- An object is written with a brace, a quote and the first of its keys. -/
theorem write_starts {fields : Fields} (some : fields ≠ []) :
    ∃ key ∈ fields.map Prod.fst, ∃ rest,
      write (.object fields) = '\x7b' :: '\x22' :: (key.flatMap escapeSign ++ rest) := by
  have sorted : (sortFields (fieldTokens fields)).Perm (fieldTokens fields) :=
    List.mergeSort_perm _ _
  have keys := sorted.map Prod.fst
  rw [keys_of_field_tokens] at keys
  cases order : sortFields (fieldTokens fields) with
  | nil =>
      rw [order] at keys
      exact absurd (List.map_eq_nil_iff.mp keys.nil_eq.symm) some
  | cons field others =>
      obtain ⟨key, value⟩ := field
      rw [order] at keys
      obtain ⟨further, parts⟩ := separated_start (fieldPart (key, value)) (others.map fieldPart)
      have written : tokens (.object fields) =
          .openObject :: .string key :: (.colon :: value ++ further ++ [.closeObject]) := by
        calc
          tokens (.object fields) = .openObject ::
              separated (fieldPart (key, value) :: others.map fieldPart) ++ [.closeObject] := by
            rw [tokens, order]
            rfl
          _ = .openObject :: .string key :: (.colon :: value ++ further ++ [.closeObject]) := by
            rw [parts]
            rfl
      let behind := (Token.colon :: value ++ further ++ [Token.closeObject]).flatMap Token.spaced
      refine ⟨key, keys.mem_iff.mp List.mem_cons_self, '\x22' :: behind, ?_⟩
      have spelled : (Token.string key).spaced = '\x22' :: (key.flatMap escapeSign ++ ['\x22']) := rfl
      rw [write, written, List.flatMap_cons, List.flatMap_cons, spelled, List.cons_append,
        List.append_assoc]
      rfl

theorem tokens_object (fields : Fields) : ∃ inner, tokens (.object fields) = .openObject :: inner := by
  rw [tokens]
  exact ⟨_, rfl⟩

/-- Behind a character that is no blank an object is not read, if the scan ends at each of its keys
that stands without its first quote. -/
theorem object_behind_unread [Nesting] {fields : Fields} (formed : WellFormed (.object fields))
    (some : fields ≠ []) (bare : ∀ key ∈ fields.map Prod.fst, StandsBare key) {c : Char}
    (mark : isSpace c = false) (front : Text) (value : Json) :
    ofText (c :: front ++ write (.object fields)) ≠ .ok value := by
  obtain ⟨read, _, spells⟩ := spells_tokens (.object fields) formed
  obtain ⟨key, member, rest, written⟩ := write_starts some
  have scanned : scanFrom .between (write (.object fields)) = tokens (.object fields) :=
    spells.scan_eq
  rw [written] at scanned ⊢
  have further := comes_behind scanned (bare key member rest) front
  rw [ofText, Token.scan]
  rcases further.others mark with bad | ⟨token, before, others⟩
  · exact read_bad bad _ value
  · rw [List.cons_append, others, readFrom]
    split
    · next started step =>
      exact read_object_behind spells (tokens_object fields) before (read_goes_on step) value
    · simp

end PostfixSheet.Json
