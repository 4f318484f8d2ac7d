import PostfixSheet.Yaml.Character

/-!
Plain scalars: text without any marks around it. It ends where a character begins to mean something
else, and it may go on over several lines as long as these are indented far enough.
-/

namespace PostfixSheet.Yaml.Plain

/-- Whether a plain scalar starts with a text. A dash, and outside of flow collections also a
question mark or a colon, may start one if it does not stand alone. -/
def starts (inFlow : Bool) : Text → Bool
  | [] => false
  | c :: rest =>
      if indicators.contains c then
        !standsAlone rest && (c == '-' || (!inFlow && (c == '?' || c == ':')))
      else !(isGap c || isBreak c)

def endsKey (inFlow : Bool) (rest : Text) : Bool :=
  standsAlone rest || (inFlow && rest.head?.any isFlowIndicator)

def stopsAt (inFlow : Bool) (c : Char) (rest : Text) : Bool :=
  c == '\t' || (c == ':' && endsKey inFlow rest) || (inFlow && (c == '?' || isFlowIndicator c))

inductive Gap
  | nothing
  | spaces (count : Nat)
  /-- line breaks, the last one first, and the spaces at the start of the last line -/
  | breaks (first : Char) (more : Text) (column : Nat)

def Gap.text : Gap → Text
  | .nothing => []
  | .spaces count => List.replicate count ' '
  | .breaks first more _ => folded first more.reverse

def Gap.endsLine : Gap → Bool
  | .breaks _ _ _ => true
  | _ => false

def Gap.isLast (inFlow : Bool) (least : Nat) (gap : Gap) (c : Char) (rest : Text) : Bool :=
  match gap with
  | .nothing => stopsAt inFlow c rest
  | .spaces _ => c == '#' || stopsAt inFlow c rest
  | .breaks _ _ column =>
      c == '#' || stopsAt inFlow c rest || (!inFlow && column < least)
        || (column == 0 && isDocumentMark (c :: rest))

def Gap.extend? (gap : Gap) (c : Char) : Option Gap :=
  if isBreak c then match gap with
    | .breaks first more _ => some (.breaks first (c :: more) 0)
    | _ => some (.breaks c [] 0)
  else if c = ' ' then match gap with
    | .nothing => some (.spaces 1)
    | .spaces count => some (.spaces (count + 1))
    | .breaks first more column => some (.breaks first more (column + 1))
  else none

/-- A plain scalar as it was read: its value, the text after it and the gap before that, and whether
a line ended in the gap. -/
structure Reading where
  value : Text
  rest : Text
  endsLine : Bool

/-- Reads a plain scalar from a gap on. `least` is the column that a further line has to reach. -/
def readFrom (inFlow : Bool) (least : Nat) : Gap → Text → Text → Reading
  | gap, value, [] => ⟨value.reverse, [], gap.endsLine⟩
  | gap, value, c :: rest => match gap.extend? c with
      | some longer => readFrom inFlow least longer value rest
      | none =>
          if gap.isLast inFlow least c rest then
            ⟨value.reverse, c :: rest, gap.endsLine⟩
          else readFrom inFlow least .nothing (c :: gap.text.reverse ++ value) rest

def read (inFlow : Bool) (least : Nat) (text : Text) : Reading :=
  readFrom inFlow least .nothing [] text

end PostfixSheet.Yaml.Plain
