import PostfixSheet.Proofs.Json.Fields
import PostfixSheet.Proofs.Json.Number
import PostfixSheet.Proofs.Json.Text

/-!
# Token lists of JSON values

The tokens of a value come back from the scan of their text, and the reader makes the value of them,
whatever it is part of and whatever follows, as long as it is not nested too deep. Both are carried
from the parts of an array or of an object to the whole.
-/

namespace PostfixSheet.Json

theorem scan_in_token (spelling rest : Text) :
    scanFrom (.inToken spelling.length) (spelling ++ rest) = scanFrom .between rest := by
  induction spelling with
  | nil =>
      cases rest with
      | nil => rfl
      | cons c rest => rfl
  | cons c spelling induction => exact induction

/-- A token that is no string is taken by its spelling. -/
theorem scan_token {token : Token} {c : Char} {spelling rest : Text}
    (shape : token.text = c :: spelling) (noSpace : isSpace c = false) (noQuote : c ≠ '\x22')
    (first : Token.first? (token.text ++ rest) = some token) :
    scanFrom .between (token.text ++ rest) = token :: scanFrom .between rest := by
  rw [shape, List.cons_append] at first ⊢
  rw [scanFrom, if_neg (by simp [noSpace]), if_neg noQuote, first]
  simp only [shape, List.length_cons, Nat.add_sub_cancel, scan_in_token]

theorem fixed_shape : ∀ token ∈ fixedTokens,
    (token.text.head?.any fun c => !isSpace c && c != '\x22') = true ∧
      token.spaced.all (fun c => decide (IsPlain c)) = true := by
  decide

theorem first_fixed {token : Token} (fixed : token ∈ fixedTokens) (rest : Text) :
    Token.first? (token.text ++ rest) = some token := by
  rw [fixedTokens] at fixed
  simp only [List.mem_cons, List.not_mem_nil, or_false] at fixed
  rcases fixed with rfl | rfl | rfl | rfl | rfl | rfl | rfl | rfl | rfl | rfl | rfl | rfl
  all_goals rfl

theorem scan_fixed {token : Token} (fixed : token ∈ fixedTokens) (rest : Text) :
    scanFrom .between (token.text ++ rest) = token :: scanFrom .between rest := by
  have ⟨start, _⟩ := fixed_shape token fixed
  cases shape : token.text with
  | nil =>
      rw [shape] at start
      cases start
  | cons c spelling =>
      rw [shape, List.head?_cons, Option.any_some, Bool.and_eq_true] at start
      rw [← shape]
      exact scan_token shape (by simpa using start.1) (by simpa using start.2)
        (first_fixed fixed rest)

theorem scan_number {spelling rest : Text} (spelled : Spelled spelling) (ends : Ends rest) :
    scanFrom .between (spelling ++ rest) = .number spelling :: scanFrom .between rest := by
  have first := spelled.first ends
  obtain ⟨c, further, digit, start⟩ := spelled.start
  have other : ∀ mark ∈ " \t\n\r\x22".toList, c ≠ mark := Text.ne_of_class digit (by decide)
  rcases start with rfl | rfl
  · refine @scan_token (.number (c :: further)) _ _ _ rfl ?_ ?_ first
    · simp [isSpace, other]
    · exact other '\x22' (by decide)
  · exact @scan_token (.number ('-' :: c :: further)) _ _ _ rfl rfl (by decide) first

theorem scan_space (rest : Text) : scanFrom .between (' ' :: rest) = scanFrom .between rest := rfl

/-- Tokens that come back from their text, before anything that ends a number. -/
def Scans (tokens : List Token) : Prop :=
  ∀ rest, Ends rest →
    scanFrom .between (tokens.flatMap Token.spaced ++ rest) = tokens ++ scanFrom .between rest

/-- Tokens whose text is made of plain characters. -/
def Prints (tokens : List Token) : Prop := ∀ c ∈ tokens.flatMap Token.spaced, IsPlain c

/-- Tokens that are written and found again, and of which the reader makes a value, whatever it is
part of and whatever follows. Not more than `deep` of its arrays and objects lie one inside the
other. -/
structure Spells (deep : Nat) (tokens : List Token) (value : Json) : Prop where
  scans : Scans tokens
  prints : Prints tokens
  reads : ∀ limit outer rest, outer.length + deep ≤ limit →
    readFrom limit (.wantsValue outer) (tokens ++ rest) = readFrom limit (.complete outer value) rest

theorem Spells.deeper {deep deeper : Nat} {tokens : List Token} {value : Json}
    (spells : Spells deep tokens value) (least : deep ≤ deeper) : Spells deeper tokens value where
  scans := spells.scans
  prints := spells.prints
  reads limit outer rest fits := spells.reads limit outer rest (by omega)

theorem Spells.scan_eq {deep : Nat} {tokens : List Token} {value : Json}
    (spells : Spells deep tokens value) :
    scanFrom .between (tokens.flatMap Token.spaced) = tokens := by
  have scanned := spells.scans [] nofun
  have ended : scanFrom .between [] = [] := rfl
  rwa [List.append_nil, ended, List.append_nil] at scanned

theorem scan_spaced {token : Token} (fixed : token ∈ fixedTokens) (rest : Text) :
    scanFrom .between (token.spaced ++ rest) = token :: scanFrom .between rest := by
  have taken := scan_fixed fixed
  cases token with
  | comma | colon =>
      have behind := taken (' ' :: rest)
      rwa [scan_space] at behind
  | _ => exact taken rest

theorem scans_nil : Scans [] := fun _ _ => rfl

theorem Scans.cons_fixed {token : Token} {tokens : List Token} (scans : Scans tokens)
    (fixed : token ∈ fixedTokens) : Scans (token :: tokens) := by
  intro rest ends
  rw [List.flatMap_cons, List.append_assoc, scan_spaced fixed, scans rest ends, List.cons_append]

theorem Scans.cons_string {tokens : List Token} (scans : Scans tokens) (text : Text) :
    Scans (.string text :: tokens) := by
  intro rest ends
  have taken := scan_string text (tokens.flatMap Token.spaced ++ rest)
  rw [List.flatMap_cons, List.append_assoc, List.cons_append, ← scans rest ends]
  exact taken

/-- A token that ends a number keeps the tokens before it from running into those behind it. -/
theorem Scans.append {front back : List Token} (scansFront : Scans front) (scansBack : Scans back)
    {token : Token} (ending : token ∈ [.comma, .closeArray, .closeObject]) :
    Scans (front ++ token :: back) := by
  intro rest ends
  have fixed : token ∈ fixedTokens := by
    have all : [Token.comma, .closeArray, .closeObject] ⊆ fixedTokens := by decide
    exact all ending
  let behind := token.spaced ++ (back.flatMap Token.spaced ++ rest)
  have stops : Ends behind := by
    intro c first
    simp only [List.mem_cons, List.not_mem_nil, or_false] at ending
    rcases ending with rfl | rfl | rfl
    all_goals
      cases first
      decide
  have whole : (front ++ token :: back).flatMap Token.spaced ++ rest =
      front.flatMap Token.spaced ++ behind := by
    rw [List.flatMap_append, List.flatMap_cons, List.append_assoc, List.append_assoc]
  rw [whole, scansFront behind stops, scan_spaced fixed, scansBack rest ends]
  simp

theorem separated_cons (part other : List Token) (parts : List (List Token)) :
    separated (part :: other :: parts) = part ++ .comma :: separated (other :: parts) := by
  rw [separated, List.intercalate_cons_cons, List.append_assoc]
  rfl

theorem separated_single (part : List Token) : separated [part] = part :=
  List.intercalate_singleton

theorem scans_separated {parts : List (List Token)} (each : ∀ part ∈ parts, Scans part)
    {closing : Token} (close : closing ∈ [.closeArray, .closeObject]) :
    Scans (separated parts ++ [closing]) := by
  have ending : closing ∈ [Token.comma, .closeArray, .closeObject] := List.mem_cons_of_mem _ close
  induction parts with
  | nil => exact scans_nil.append scans_nil ending
  | cons part parts induction =>
      have first := each part (by simp)
      have others := induction fun other member => each other (by simp [member])
      cases parts with
      | nil =>
          rw [separated_single]
          exact first.append scans_nil ending
      | cons other parts =>
          rw [separated_cons, List.append_assoc, List.cons_append]
          exact first.append others (by simp)

theorem plain_spaced {token : Token} (fixed : token ∈ fixedTokens) {c : Char}
    (member : c ∈ token.spaced) : IsPlain c := by
  have all := (fixed_shape token fixed).2
  exact of_decide_eq_true (List.all_eq_true.mp all c member)

theorem prints_nil : Prints [] := nofun

theorem Prints.append {front back : List Token} (printsFront : Prints front)
    (printsBack : Prints back) : Prints (front ++ back) := by
  intro c member
  rw [List.flatMap_append] at member
  rcases List.mem_append.mp member with inFront | inBack
  · exact printsFront c inFront
  · exact printsBack c inBack

theorem prints_fixed {token : Token} (fixed : token ∈ fixedTokens) : Prints [token] := by
  intro c member
  rw [List.flatMap_singleton] at member
  exact plain_spaced fixed member

theorem prints_string (text : Text) : Prints [.string text] := by
  intro c member
  rw [List.flatMap_singleton] at member
  have inside : c ∈ '\x22' :: text.flatMap escape ++ ['\x22'] := string_text text ▸ member
  simp only [List.cons_append, List.mem_cons, List.mem_append, List.not_mem_nil, or_false] at inside
  rcases inside with rfl | inText | rfl
  · decide
  · obtain ⟨d, _, inEscape⟩ := List.mem_flatMap.mp inText
    exact plain_of_mem_escape inEscape
  · decide

theorem prints_separated {parts : List (List Token)} (each : ∀ part ∈ parts, Prints part) :
    Prints (separated parts) := by
  induction parts with
  | nil => exact prints_nil
  | cons part parts induction =>
      have first := each part (by simp)
      have others := induction fun other member => each other (by simp [member])
      cases parts with
      | nil => rwa [separated_single]
      | cons other parts =>
          rw [separated_cons]
          exact first.append ((@prints_fixed .comma (by decide)).append others)

/-! ## Values -/

variable {deep limit : Nat}

theorem read_from_ok {p q : Partial} {token : Token} (step : p.read limit token = .ok q)
    (rest : List Token) : readFrom limit p (token :: rest) = readFrom limit q rest := by
  rw [readFrom, step]

theorem spells_fixed {token : Token} {value : Json} (fixed : token ∈ fixedTokens)
    (read : ∀ limit outer,
      (Partial.wantsValue outer).read limit token = .ok (.complete outer value)) :
    Spells deep [token] value where
  scans := scans_nil.cons_fixed fixed
  prints := prints_fixed fixed
  reads limit outer rest _ := read_from_ok (read limit outer) rest

theorem spells_string (text : Text) : Spells deep [.string text] (.string text) where
  scans := scans_nil.cons_string text
  prints := prints_string text
  reads _ _ _ _ := rfl

theorem spells_number {spelling : Text} {value : Json} (spelled : Spelled spelling)
    (stands : ofNumber spelling = .ok value) : Spells deep [.number spelling] value where
  scans := by
    intro rest ends
    rw [List.flatMap_singleton]
    exact scan_number spelled ends
  prints := by
    intro c member
    rw [List.flatMap_singleton] at member
    rcases spelled.mem member with digit | mark
    · obtain ⟨least, most⟩ := Text.is_digit_range digit
      constructor
      · omega
      · omega
    · have marks : ['.', 'e', '+', '-'].all (fun c => decide (IsPlain c)) = true := by decide
      exact of_decide_eq_true (List.all_eq_true.mp marks c mark)
  reads limit outer rest _ := by
    have step : (Partial.wantsValue outer).read limit (.number spelling) =
        .ok (.complete outer value) := by
      rw [Partial.read, stands]
      rfl
    exact read_from_ok step rest

/-- The items of an array, the first of them after those that have been read. -/
theorem read_items {parts : List (List Token)} {values : List Json}
    (each : List.Forall₂ (Spells deep) parts values) (some : parts ≠ []) (done : List Json)
    (outer : List Outer) (fits : outer.length + 1 + deep ≤ limit) (rest : List Token) :
    readFrom limit (.wantsValue (.array done :: outer)) (separated parts ++ .closeArray :: rest) =
      readFrom limit (.complete outer (.array (done.reverse ++ values))) rest := by
  induction each generalizing done with
  | nil => exact absurd rfl some
  | @cons part value parts values first further induction =>
      cases further with
      | nil =>
          rw [separated_single, first.reads _ _ _ fits]
          have step : (Partial.complete (.array done :: outer) value).read limit .closeArray =
              .ok (.complete outer (.array (value :: done).reverse)) := rfl
          rw [read_from_ok step, List.reverse_cons]
      | cons second others =>
          rw [separated_cons, List.append_assoc, List.cons_append, first.reads _ _ _ fits]
          have step : (Partial.complete (.array done :: outer) value).read limit .comma =
              .ok (.wantsValue (.array (value :: done) :: outer)) := rfl
          rw [read_from_ok step, induction (by simp), List.reverse_cons, List.append_assoc]
          rfl

theorem each_part {parts : List (List Token)} {values : List Json}
    (each : List.Forall₂ (Spells deep) parts values) :
    ∀ part ∈ parts, Scans part ∧ Prints part := by
  induction each with
  | nil => nofun
  | cons first _ induction =>
      intro part member
      rcases List.mem_cons.mp member with rfl | inside
      · exact ⟨first.scans, first.prints⟩
      · exact induction part inside

theorem spells_array {parts : List (List Token)} {values : List Json}
    (each : List.Forall₂ (Spells deep) parts values) :
    Spells (deep + 1) (.openArray :: separated parts ++ [.closeArray]) (.array values) where
  scans := by
    have items := @scans_separated parts (fun part member => (each_part each part member).1)
      .closeArray (by decide)
    exact items.cons_fixed (by decide)
  prints := by
    have items := prints_separated fun part member => (each_part each part member).2
    exact (@prints_fixed .openArray (by decide)).append
      (items.append (@prints_fixed .closeArray (by decide)))
  reads limit outer rest fits := by
    have opens : (Partial.wantsValue outer).read limit .openArray =
        .ok (.wantsValue (.array [] :: outer)) := if_pos (by omega)
    rw [List.cons_append, List.cons_append, read_from_ok opens, List.append_assoc]
    cases each with
    | nil => rfl
    | cons first further =>
        exact read_items (.cons first further) (by simp) [] outer (by omega) rest

/-- The tokens of a field of an object. -/
def fieldPart (member : Signs × List Token) : List Token := .string member.1 :: .colon :: member.2

def SpellsField (deep : Nat) (member : Signs × List Token) (field : Signs × Json) : Prop :=
  ∃ key : Text, member.1 = key ∧ field.1 = key ∧ Spells deep member.2 field.2

/-- The fields of an object, the first of them after those that have been read. -/
theorem read_fields {members : List (Signs × List Token)} {fields : Fields}
    (each : List.Forall₂ (SpellsField deep) members fields) (some : members ≠ []) (done : Fields)
    (distinct : ((done ++ fields).map Prod.fst).Nodup) (outer : List Outer)
    (fits : outer.length + 1 + deep ≤ limit) (rest : List Token) :
    readFrom limit (.wantsKey outer done)
        (separated (members.map fieldPart) ++ .closeObject :: rest) =
      readFrom limit (.complete outer (.object (done ++ fields))) rest := by
  induction each generalizing done with
  | nil => exact absurd rfl some
  | @cons member field members fields first further induction =>
      obtain ⟨_, tokens⟩ := member
      obtain ⟨_, value⟩ := field
      obtain ⟨key, named, called, spells⟩ := first
      subst named called
      have new : key.signs ∉ done.map Prod.fst := by
        rw [List.map_append, List.nodup_append] at distinct
        intro before
        exact distinct.2.2 key.signs before key.signs (by simp) rfl
      have wants : (Partial.wantsKey outer done).read limit (.string key) =
          .ok (.wantsColon outer done key) := by
        cases done <;> rfl
      have colon : (Partial.wantsColon outer done key).read limit .colon =
          .ok (.wantsValue (.object done key :: outer)) := rfl
      have start : ∀ behind,
          readFrom limit (.wantsKey outer done) (fieldPart (key, tokens) ++ behind) =
            readFrom limit (.complete (.object done key :: outer) value) behind := by
        intro behind
        rw [fieldPart, List.cons_append, List.cons_append, read_from_ok wants, read_from_ok colon,
          spells.reads _ _ _ fits]
      rw [List.map_cons]
      -- a comma or the closing brace comes next, as there are further fields or none
      cases further with
      | nil =>
          have close : (Partial.complete (.object done key :: outer) value).read limit .closeObject =
              .ok (.complete outer (.object (done.put key value))) := rfl
          rw [List.map_nil, separated_single, start, read_from_ok close, put_new new]
      | @cons second other members fields same others =>
          have comma : (Partial.complete (.object done key :: outer) value).read limit .comma =
              .ok (.wantsKey outer (done.put key value)) := rfl
          have inserted : done ++ (key.signs, value) :: other :: fields =
              done ++ [(key.signs, value)] ++ other :: fields := by simp
          rw [inserted] at distinct ⊢
          rw [List.map_cons, separated_cons, List.append_assoc, List.cons_append, start,
            read_from_ok comma, put_new new]
          exact induction (by simp) _ distinct

theorem each_field {members : List (Signs × List Token)} {fields : Fields}
    (each : List.Forall₂ (SpellsField deep) members fields) :
    ∀ part ∈ members.map fieldPart, Scans part ∧ Prints part := by
  induction each with
  | nil => nofun
  | @cons member field members fields first _ induction =>
      intro part inside
      rcases List.mem_cons.mp inside with rfl | further
      · obtain ⟨name, tokens⟩ := member
        obtain ⟨key, rfl, _, spells⟩ := first
        constructor
        · exact (spells.scans.cons_fixed (by decide)).cons_string key
        · have named := prints_string key
          exact named.append ((@prints_fixed .colon (by decide)).append spells.prints)
      · exact induction part further

theorem spells_object {members : List (Signs × List Token)} {fields : Fields}
    (each : List.Forall₂ (SpellsField deep) members fields)
    (distinct : (fields.map Prod.fst).Nodup) :
    Spells (deep + 1) (.openObject :: separated (members.map fieldPart) ++ [.closeObject])
      (.object fields) where
  scans := by
    have parts := @scans_separated _ (fun part member => (each_field each part member).1)
      .closeObject (by decide)
    exact parts.cons_fixed (by decide)
  prints := by
    have parts := prints_separated fun part member => (each_field each part member).2
    exact (@prints_fixed .openObject (by decide)).append
      (parts.append (@prints_fixed .closeObject (by decide)))
  reads limit outer rest fits := by
    have opens : (Partial.wantsValue outer).read limit .openObject = .ok (.wantsKey outer []) :=
      if_pos (by omega)
    rw [List.cons_append, List.cons_append, read_from_ok opens, List.append_assoc]
    cases each with
    | nil => rfl
    | cons first further =>
        exact read_fields (.cons first further) (by simp) [] distinct outer (by omega) rest

end PostfixSheet.Json
