import PostfixSheet.Text.Utf8
import PostfixSheet.Yaml.Character

/-!
What stands before nodes: their names and kinds, and before a whole document directives that tell
what handles of kinds stand for.
-/

namespace PostfixSheet.Yaml

def isNameChar (c : Char) : Bool := c.isAlphanum || c == '-' || c == '_'

def isLast : Text → Bool
  | [] => true
  | c :: _ => c == ' ' || isBreak c

def nameEnds : Text := [':', '?', ',', ']', '\x7d', '%', '@', '\x60']

def readAnchor (text : Text) : Option (Text × Text) :=
  let name := text.takeWhile isNameChar
  let rest := text.drop name.length
  if !name.isEmpty && (standsAlone rest || rest.head?.any nameEnds.contains) then some (name, rest)
  else none

def isTagChar (c : Char) : Bool :=
  c.isAlphanum || "-;/?:@&=+$,_.!~*\x27()[]%".toList.contains c

/-- The bytes of a tag, in which a percent sign and two digits may stand for any byte. -/
def tagBytes : Text → Option (List UInt8)
  | [] => some []
  | '%' :: a :: b :: rest => do
      let byte ← Text.hexadecimal? [a, b]
      let bytes ← tagBytes rest
      some (UInt8.ofNat byte :: bytes)
  | '%' :: _ => none
  | c :: rest => (tagBytes rest).map (UInt8.ofNat c.toNat :: ·)

def readTagText (text : Text) : Option (Text × Text) :=
  let written := text.takeWhile isTagChar
  if written.isEmpty then none
  else match (tagBytes written).map Text.ofBytes with
    | some (.ok meant) => some (meant, text.drop written.length)
    | _ => none

def readHandle (text : Text) : Option (Text × Text) :=
  let name := text.takeWhile isNameChar
  match text.drop name.length with
  | '!' :: rest => some ('!' :: name ++ ['!'], rest)
  | _ => none

/-- A kind as it is written: a handle, which stands for the beginning of a tag, and the rest of the
tag. Without a handle the tag is all there. -/
structure TagMark where
  handle : Option Text
  rest : Text
deriving DecidableEq, Repr

namespace TagMark

/-- The mark alone, which says that a node is what it looks like. -/
def lone : Text := ['!']

def read (text : Text) : Option (TagMark × Text) := do
  let (mark, rest) ←
    if standsAlone text then some (⟨none, lone⟩, text)
    else match text with
      | '<' :: text => match readTagText text with
          | some (tag, '>' :: rest) => some (⟨none, tag⟩, rest)
          | _ => none
      | text =>
          let isHandled := (text.takeWhile fun c => c != ' ' && !isBreak c).contains '!'
          let (handle, text) ← if isHandled then readHandle text else some (lone, text)
          (readTagText text).map fun (tag, rest) => (⟨some handle, tag⟩, rest)
  if isLast rest then some (mark, rest) else none

def usualHandles : List (Text × Text) :=
  [(lone, lone), ("!!".toList, "tag:yaml.org,2002:".toList)]

def tag? (handles : List (Text × Text)) (mark : TagMark) : Option Text :=
  match mark.handle with
  | none => some mark.rest
  | some handle => ((handles ++ usualHandles).lookup handle).map (· ++ mark.rest)

end TagMark

inductive Directive
  /-- the version of the language, by its first number -/
  | version (major : Nat)
  | handle (handle meaning : Text)
  | other
deriving DecidableEq, Repr

namespace Directive

def readVersion (text : Text) : Option (Directive × Text) :=
  let major := text.takeWhile Char.isDigit
  match text.drop major.length with
  | '.' :: rest =>
      let minor := rest.takeWhile Char.isDigit
      let rest := rest.drop minor.length
      if !major.isEmpty && !minor.isEmpty && isLast rest then
        some (.version (Text.decimal major), rest)
      else none
  | _ => none

def readMeaning (text : Text) : Option (Directive × Text) := do
  let (written, rest) ← match text with
    | '!' :: ' ' :: rest => some (TagMark.lone, ' ' :: rest)
    | '!' :: rest => readHandle rest
    | _ => none
  if rest.head? = some ' ' then
    let (meaning, rest) ← readTagText (rest.dropWhile (· == ' '))
    if isLast rest then some (.handle written meaning, rest) else none
  else none

def passLine (text : Text) : Option Text :=
  let rest := match text.dropWhile (· == ' ') with
    | '#' :: comment => comment.dropWhile (!isBreak ·)
    | rest => rest
  match rest with
  | [] => some []
  | c :: rest => if isBreak c then some rest else none

def read (text : Text) : Option (Directive × Text) := do
  let name := text.takeWhile isNameChar
  let rest := text.drop name.length
  if name.isEmpty || !isLast rest then none
  else
    let value := rest.dropWhile (· == ' ')
    let (directive, rest) ←
      if name = "YAML".toList then readVersion value
      else if name = "TAG".toList then readMeaning value
      else some (.other, rest.dropWhile (!isBreak ·))
    let rest ← passLine rest
    some (directive, rest)

end Directive
end PostfixSheet.Yaml
