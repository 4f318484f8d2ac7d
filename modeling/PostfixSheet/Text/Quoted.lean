import PostfixSheet.Text.Printable

/-!
Quoted text, as messages show it. The quotes are single unless the text holds a single quote and no
double one; the quote in use, the backslash and every unprintable character are escaped, so a
quoted text never breaks a line.
-/

namespace PostfixSheet.Text

/-- How a character is written between two quotes of the given kind. -/
def quotedChar (quote c : Char) : Text :=
  let n := c.toNat
  if c = quote ∨ c = '\\' then ['\\', c]
  else if c = '\n' then ['\\', 'n']
  else if c = '\r' then ['\\', 'r']
  else if c = '\t' then ['\\', 't']
  else if isPrintable c then [c]
  else if n < 0x100 then ['\\', 'x'] ++ hex 2 n
  else if n < 0x10000 then ['\\', 'u'] ++ hex 4 n
  else ['\\', 'U'] ++ hex 8 n

def quoteFor (text : Text) : Char :=
  if text.contains '\x27' && !text.contains '\x22' then '\x22' else '\x27'

def quoted (text : Text) : Text :=
  let quote := quoteFor text
  quote :: text.flatMap (quotedChar quote) ++ [quote]

example : quoted "it's".toList = "\"it's\"".toList := by decide
example : quoted "a\n\\".toList = "'a\\n\\\\'".toList := by decide

end PostfixSheet.Text
