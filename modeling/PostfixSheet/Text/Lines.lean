import PostfixSheet.Text.Blank

/-!
Line ends. A sheet and a settings file count CRLF and a lone CR as one line feed each; a journal is
cut at every character that ends a line in any script.
-/

namespace PostfixSheet.Text

def unifyLineEnds : Text → Text
  | [] => []
  | '\r' :: '\n' :: rest => '\n' :: unifyLineEnds rest
  | c :: rest => (if c = '\r' then '\n' else c) :: unifyLineEnds rest

/-- The pieces between line feeds: a text that ends in one has an empty last line. -/
def lines (text : Text) : List Text := splitWhere (· == '\n') text

/-- The characters that end a line of a journal. -/
def endsLine (c : Char) : Bool :=
  c == '\n' || c == '\r' || c == '\x0b' || c == '\x0c' || c == '\x1c' || c == '\x1d' || c == '\x1e'
    || c == '\u0085' || c == '\u2028' || c == '\u2029'

/-- The lines of a journal that say something, each without the blanks around it. -/
def entries (text : Text) : List Text :=
  ((splitWhere endsLine text).map strip).filter (!·.isEmpty)

end PostfixSheet.Text
