import PostfixSheet.Yaml.Block
import PostfixSheet.Yaml.Plain
import PostfixSheet.Yaml.Property
import PostfixSheet.Yaml.Quoted

/-!
The tokens of YAML text. Indentation becomes tokens of its own, so that what follows need not look
at columns: a deeper line opens a collection, and a line that is less deep closes all that are
deeper. A key is known as one only by the colon after it, so its token is put in front of it
afterwards.
-/

namespace PostfixSheet.Yaml

inductive Token
  | directive (directive : Directive)
  | documentStart
  | documentEnd
  /-- the start of a sequence or a mapping by indentation, and the end of either -/
  | blockSequence
  | blockMapping
  | blockEnd
  | openSequence
  | closeSequence
  | openMapping
  | closeMapping
  | comma
  | dash
  | key
  | value
  /-- the name of the next node, and the node with a name -/
  | anchor (name : Text)
  | alias (name : Text)
  | tag (mark : TagMark)
  | scalar (isPlain : Bool) (signs : Signs)
deriving DecidableEq, Repr

/-- A place in the text that a key may start at: how deep in flow collections it is, how many tokens
there are before it, whether it can be nothing but a key, and where it stands. -/
structure KeyPlace where
  depth : Nat
  before : Nat
  isNeeded : Bool
  index : Nat
  line : Nat
  column : Nat

structure Scan where
  index : Nat
  line : Nat
  column : Nat
  /-- the number of characters that belong to the last token and are still to be passed -/
  left : Nat
  depth : Nat
  /-- the columns of the open block collections, the innermost first -/
  columns : List Nat
  allowsKey : Bool
  /-- at most one for each depth -/
  places : List KeyPlace
  /-- the tokens so far, the last one first -/
  tokens : List Token

namespace Scan

def start : Scan := ⟨0, 0, 0, 0, 0, [], true, [], []⟩

/-- A key is not longer than this, and it does not go on over two lines. -/
def longestKey : Nat := 1024

def isOver (s : Scan) (place : KeyPlace) : Bool :=
  place.line != s.line || longestKey < s.index - place.index

/-- Gives up the places that satisfy a condition; a place that needs a key cannot be given up. -/
def giveUp (s : Scan) (condition : KeyPlace → Bool) : Option Scan :=
  if s.places.any fun place => condition place && place.isNeeded then none
  else some { s with places := s.places.filter fun place => !condition place }

def giveUpOver (s : Scan) : Option Scan := s.giveUp s.isOver

def giveUpHere (s : Scan) : Option Scan := s.giveUp (·.depth == s.depth)

def least (s : Scan) : Nat := match s.columns with
  | [] => 0
  | column :: _ => column + 1

def markKey (s : Scan) : Option Scan :=
  if s.allowsKey then (s.giveUpHere).map fun s =>
    { s with places :=
        { depth := s.depth, before := s.tokens.length
          isNeeded := s.depth == 0 && s.columns.head? == some s.column
          index := s.index, line := s.line, column := s.column } :: s.places }
  else some s

def push (s : Scan) (token : Token) : Scan := { s with tokens := token :: s.tokens }

def take (s : Scan) (token : Token) (size : Nat) : Scan := { s.push token with left := size }

def insert (s : Scan) (count : Nat) (new : List Token) : Scan :=
  let later := s.tokens.length - count
  { s with tokens := s.tokens.take later ++ new ++ s.tokens.drop later }

def closeBeyond (s : Scan) (isBeyond : Nat → Bool) : Scan :=
  { s with
    columns := s.columns.dropWhile isBeyond
    tokens := (s.columns.takeWhile isBeyond).map (fun _ => Token.blockEnd) ++ s.tokens }

def openAt (s : Scan) (column : Nat) (count : Nat) (opening : Token) : Scan :=
  if s.least ≤ column then { s.insert count [opening] with columns := column :: s.columns } else s

/-- A token that stands between documents, after which no key may start in the same line. -/
def takeBetween (s : Scan) (token : Token) (size : Nat) : Option Scan :=
  let s := if s.depth = 0 then s.closeBeyond fun _ => true else s
  s.giveUpHere.map fun s => { s.take token size with allowsKey := false }

def takeDirective (s : Scan) (text : Text) : Option Scan := do
  let (directive, rest) ← Directive.read text
  s.takeBetween (.directive directive) (1 + text.length - rest.length)

def takeOpening (s : Scan) (token : Token) : Option Scan :=
  s.markKey.map fun s => { s.take token 1 with depth := s.depth + 1, allowsKey := true }

def takeClosing (s : Scan) (token : Token) : Option Scan :=
  match s.depth with
  | 0 => none
  | depth + 1 => s.giveUpHere.map fun s => { s.take token 1 with depth, allowsKey := false }

def takeComma (s : Scan) : Option Scan :=
  s.giveUpHere.map fun s => { s.take .comma 1 with allowsKey := true }

def takeIndicator (s : Scan) (indicator opening : Token) (allowsKey : Bool) : Option Scan :=
  if s.depth = 0 then
    if s.allowsKey then
      ((s.openAt s.column s.tokens.length opening).giveUpHere).map fun s =>
        { s.take indicator 1 with allowsKey }
    else none
  else s.giveUpHere.map fun s => { s.take indicator 1 with allowsKey }

/-- The colon after a key. The key is the one that may have started at the remembered place; without
such a place it is empty. -/
def takeColon (s : Scan) : Option Scan :=
  match s.places.find? (·.depth == s.depth) with
  | some place =>
      let s := { s with places := s.places.filter (·.depth != s.depth) }
      let s := s.insert place.before [.key]
      let s := if s.depth = 0 then s.openAt place.column place.before .blockMapping else s
      some { s.take .value 1 with allowsKey := false }
  | none => s.takeIndicator .value .blockMapping (s.depth == 0)

def takeBlock (s : Scan) (folds : Bool) (text : Text) : Option Scan := do
  let s ← s.giveUpHere
  let (value, rest) ← Block.read folds s.least text
  some { s.take (.scalar false value.signs) (1 + text.length - rest.length) with allowsKey := true }

def takeQuoted (s : Scan) (quote : Quote) (text : Text) : Except Fault Scan := do
  let s ← orMalformed s.markKey
  let (value, rest) ← quote.read text
  .ok { s.take (.scalar false value) (1 + text.length - rest.length) with allowsKey := false }

def takePlain (s : Scan) (text : Text) : Option Scan :=
  s.markKey.map fun s =>
    let reading := Plain.read (0 < s.depth) s.least text
    { s.take (.scalar true reading.value.signs) (text.length - reading.rest.length) with
      allowsKey := reading.endsLine }

/-- A token before a node, or one that stands for a node, which is as long as a text without its
rest. A key may start with it. -/
def takeProperty (s : Scan) (text : Text) (reading : Option (Token × Text)) : Option Scan := do
  let s ← s.markKey
  let (token, rest) ← reading
  some { s.take token (1 + text.length - rest.length) with allowsKey := false }

def takeName (s : Scan) (make : Text → Token) (text : Text) : Option Scan :=
  s.takeProperty text ((readAnchor text).map fun (name, rest) => (make name, rest))

def takeTag (s : Scan) (text : Text) : Option Scan :=
  s.takeProperty text ((TagMark.read text).map fun (mark, rest) => (.tag mark, rest))

/-- The scan after the token without quotes that a text starts with is found; its characters are
still to be passed. -/
def takeUnquoted (s : Scan) (c : Char) (rest : Text) : Option Scan :=
  let inFlow : Bool := 0 < s.depth
  if s.column = 0 && c = '%' then s.takeDirective rest
  else if s.column = 0 && startsWithThree '-' (c :: rest) then s.takeBetween .documentStart 3
  else if s.column = 0 && startsWithThree '.' (c :: rest) then s.takeBetween .documentEnd 3
  else if c = '[' then s.takeOpening .openSequence
  else if c = '\x7b' then s.takeOpening .openMapping
  else if c = ']' then s.takeClosing .closeSequence
  else if c = '\x7d' then s.takeClosing .closeMapping
  else if c = ',' then s.takeComma
  else if c = '-' && standsAlone rest then s.takeIndicator .dash .blockSequence true
  else if c = '?' && (inFlow || standsAlone rest) then
    s.takeIndicator .key .blockMapping (!inFlow)
  else if c = ':' && (inFlow || standsAlone rest) then s.takeColon
  else if c = '&' then s.takeName .anchor rest
  else if c = '*' then s.takeName .alias rest
  else if c = '!' then s.takeTag rest
  else if c = '|' && !inFlow then s.takeBlock false rest
  else if c = '>' && !inFlow then s.takeBlock true rest
  else if Plain.starts inFlow (c :: rest) then s.takePlain (c :: rest)
  else none

def takeToken (s : Scan) (c : Char) (rest : Text) : Except Fault Scan :=
  if c = '\x27' then s.takeQuoted .single rest
  else if c = '\x22' then s.takeQuoted .double rest
  else orMalformed (s.takeUnquoted c rest)

/-- Looks at the next character outside of tokens: it belongs to a gap or a comment, or it starts a
token. -/
def look (s : Scan) (c : Char) (rest : Text) : Except Fault Scan :=
  if c = ' ' || (c = openingMark && s.index = 0) then .ok { s with left := 1 }
  else if c = '#' then .ok { s with left := 1 + (rest.takeWhile (!isBreak ·)).length }
  else if isBreak c then .ok { s with left := 1, allowsKey := s.allowsKey || s.depth == 0 }
  else do
    let s ← orMalformed s.giveUpOver
    (if s.depth = 0 then s.closeBeyond (s.column < ·) else s).takeToken c rest

def pass (s : Scan) (c : Char) : Scan :=
  let s := { s with index := s.index + 1, left := s.left - 1 }
  if isBreak c then { s with line := s.line + 1, column := 0 }
  else if c = openingMark then s
  else { s with column := s.column + 1 }

def finish (s : Scan) : Option (List Token) := do
  let s ← s.giveUpOver
  let s := if s.depth = 0 then s.closeBeyond fun _ => true else s
  let s ← s.giveUpHere
  some s.tokens.reverse

def run : Scan → Text → Except Fault (List Token)
  | s, [] => orMalformed s.finish
  | s, c :: rest =>
      if s.left = 0 then match s.look c rest with
        | .ok s => (s.pass c).run rest
        | .error fault => .error fault
      else (s.pass c).run rest

end Scan

def Token.scan (text : Text) : Except Fault (List Token) :=
  if text.all isAllowed then Scan.start.run text else .error .malformed

end PostfixSheet.Yaml
