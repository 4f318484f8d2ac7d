import PostfixSheet.Yaml.Character

/-!
Block scalars: the lines after a header, as long as they are indented. A literal scalar keeps its
line breaks, a folded one makes spaces of them. What becomes of the breaks at its end the header
says.
-/

namespace PostfixSheet.Yaml.Block

inductive Ending
  | clip
  | strip
  | keep
deriving DecidableEq, Repr

/-- What the first line says after the indicator: how the scalar ends, and how far its lines are
indented beyond what is around it, if that is not to be seen from the lines. -/
structure Header where
  ending : Ending
  indentation : Option Nat

def ending? (c : Char) : Option Ending := [('+', .keep), ('-', .strip)].lookup c

def indentation? (c : Char) : Option Nat :=
  if c.isDigit && c != '0' then some (c.toNat - 48) else none

def leadingHeader : Text → Header × Text
  | [] => (⟨.clip, none⟩, [])
  | c :: rest => match ending? c, indentation? c with
      | some ending, _ => match rest with
          | d :: further => match indentation? d with
              | some n => (⟨ending, some n⟩, further)
              | none => (⟨ending, none⟩, rest)
          | [] => (⟨ending, none⟩, [])
      | none, some n => match rest with
          | d :: further => match ending? d with
              | some ending => (⟨ending, some n⟩, further)
              | none => (⟨.clip, some n⟩, rest)
          | [] => (⟨.clip, some n⟩, [])
      | none, none => (⟨.clip, none⟩, c :: rest)

def isIdle : Text → Bool
  | [] => true
  | ' ' :: rest => match rest.dropWhile (· == ' ') with
      | [] => true
      | c :: _ => c == '#'
  | _ => false

def Header.ofLine? (line : Text) : Option Header :=
  let (header, rest) := leadingHeader line
  if isIdle rest then some header else none

structure Line where
  text : Text
  break? : Option Char

def lines : Text → List Line
  | [] => []
  | c :: rest =>
      if isBreak c then ⟨[], some c⟩ :: lines rest
      else match lines rest with
        | [] => [⟨[c], none⟩]
        | line :: further => ⟨c :: line.text, line.break?⟩ :: further

namespace Line

def depth (line : Line) : Nat := (line.text.takeWhile (· == ' ')).length

def isBlank (indentation : Nat) (line : Line) : Bool :=
  line.text.length ≤ indentation && line.depth == line.text.length && line.break?.isSome

def isIndented (indentation : Nat) (line : Line) : Bool :=
  indentation ≤ line.depth && indentation < line.text.length

def size (line : Line) : Nat := line.text.length + line.break?.toList.length

end Line

/-- The indentation that lines show: that of the first line that is not blank, or more if a blank
line before it is longer. -/
def shownIndentation : List Line → Nat
  | [] => 0
  | line :: further =>
      if line.depth = line.text.length then max line.depth (shownIndentation further)
      else line.depth

def startsWithGap (text : Text) : Bool := text.head?.any isGap

/-- What stands for the break between two lines, before the breaks of the blank lines between them.
-/
def joint (folds : Bool) (before after : Text) (lineBreak : Char) (more : Text) : Text :=
  if folds && plainBreak lineBreak == '\n' && !startsWithGap before && !startsWithGap after then
    (if more.isEmpty then [' '] else [])
  else [plainBreak lineBreak]

def Ending.text (ending : Ending) (last : Option Char) (more : Text) : Text :=
  match ending with
  | .strip => []
  | .clip => last.toList.map plainBreak
  | .keep => last.toList.map plainBreak ++ more

/-- The value of some lines. `before` is the last line that was not blank, by its text and its
break, and `more` holds the breaks of the blank lines since. -/
def valueFrom (folds : Bool) (ending : Ending) (indentation : Nat)
    (before : Option (Text × Option Char)) (more : Text) : List Line → Text
  | [] => ending.text (before.bind (·.2)) more
  | line :: further =>
      if line.isBlank indentation then
        let more := more ++ line.break?.toList.map plainBreak
        valueFrom folds ending indentation before more further
      else
        let text := line.text.drop indentation
        let between := match before with
          | some (before, some lineBreak) => joint folds before text lineBreak more
          | _ => []
        between ++ more ++ text
          ++ valueFrom folds ending indentation (some (text, line.break?)) [] further

/-- Reads a block scalar after its indicator: its value, and the text after it. `least` is the least
indentation that its lines may have. -/
def read (folds : Bool) (least : Nat) (text : Text) : Option (Text × Text) :=
  match lines text with
  | [] => some ([], [])
  | first :: further => (Header.ofLine? first.text).map fun header =>
      let least := max least 1
      let indentation := match header.indentation with
        | some n => least + n - 1
        | none => max least (shownIndentation further)
      let body := further.takeWhile fun line =>
        line.isBlank indentation || line.isIndented indentation
      (valueFrom folds header.ending indentation none [] body,
        text.drop (body.foldl (fun size line => size + line.size) first.size))

end PostfixSheet.Yaml.Block
