import PostfixSheet.Yaml.Tag
import PostfixSheet.Yaml.Token

/-!
Nodes: what a YAML text says, before its scalars are given a value. The tokens are read one by one.
A token that stands where a node was wanted, but is none, leaves an empty node there; it may also
end a sequence that has no end of its own, and leave a key without a value. After that it has to
fit. A node with a name is put again wherever the name stands for it.
-/

namespace PostfixSheet.Yaml

/-- A node and its kind. The empty scalar of no value stands for a node that is left out. -/
inductive Node
  | scalar (tag : Tag) (signs : Signs)
  | sequence (tag : Tag) (items : List Node)
  | mapping (tag : Tag) (pairs : List (Node × Node))

namespace Node

def empty : Node := .scalar .null []

def tag : Node → Tag
  | .scalar tag _ | .sequence tag _ | .mapping tag _ => tag

def pairs? : Node → Option (List (Node × Node))
  | .mapping _ pairs => some pairs
  | _ => none

/-- The pairs that a node brings into a mapping where it is merged. Pairs that are put later win, so
of several mappings the first comes last. -/
def merged? : Node → Option (List (Node × Node))
  | .sequence _ items => (items.reverse.mapM pairs?).map List.flatten
  | node => node.pairs?

/-- A mapping of some pairs. What is merged into it comes before its own pairs; where that is not
possible the key remains, which has no value. -/
def ofPairs (tag : Tag) (pairs : List (Node × Node)) : Node :=
  let (merges, own) := pairs.partition fun (key, _) => key.tag == .merge
  let failed := merges.filter fun (_, source) => source.merged?.isNone
  .mapping tag (failed ++ merges.flatMap (fun (_, source) => source.merged?.getD []) ++ own)

structure Properties where
  name : Option Text
  tag : Option Text
deriving DecidableEq, Repr

namespace Properties

def bare : Properties := ⟨none, none⟩

def collectionTag (p : Properties) (usual : Tag) : Tag :=
  match p.tag with
  | none => usual
  | some tag => if tag = TagMark.lone then usual else Tag.ofText tag

def scalarTag (p : Properties) (isPlain : Bool) (signs : Signs) : Tag :=
  match p.tag with
  | none => if isPlain then Tag.ofSpelling signs.shown else .text
  | some tag => if tag = TagMark.lone then Tag.ofSpelling signs.shown else Tag.ofText tag

end Properties

/-- How a collection is written: by indentation with an end of its own, by dashes alone under a key,
between brackets, or as a single pair among the items between brackets. -/
inductive Style
  | block
  | loose
  | flow
  | single
deriving DecidableEq, Repr

/-- A collection in the making, by what comes next in it. What is complete has the last one first.
-/
inductive Frame
  /-- a dash, a comma or the end of a sequence -/
  | afterItem (style : Style) (items : List Node)
  | item (style : Style) (items : List Node)
  /-- the mark of a key, a comma or the end of a mapping -/
  | afterPair (style : Style) (pairs : List (Node × Node))
  /-- between braces: the mark of a key, a key without a value, or the end -/
  | pair (pairs : List (Node × Node))
  | key (style : Style) (pairs : List (Node × Node))
  /-- the mark of a value -/
  | afterKey (style : Style) (pairs : List (Node × Node)) (key : Node)
  | value (style : Style) (pairs : List (Node × Node)) (key : Node)

def leavesOut (frame : Frame) (token : Token) : Bool :=
  match frame with
  | .item .block _ => token == .dash || token == .blockEnd
  | .item .loose _ => token == .dash || token == .key || token == .value || token == .blockEnd
  | .key .block _ | .value .block _ _ => token == .key || token == .value || token == .blockEnd
  | .key .flow _ => token == .value || token == .comma || token == .closeMapping
  | .value .flow _ _ => token == .comma || token == .closeMapping
  | .key .single _ => token == .value || token == .comma || token == .closeSequence
  | .value .single _ _ => token == .comma || token == .closeSequence
  | _ => false

/-- A document in the making: what handles stand for in it, the nodes that have names, what is said
of the next node, and the open collections with what is said of each, the innermost first. -/
structure Draft where
  handles : List (Text × Text)
  named : List (Text × Node)
  next : Properties
  frames : List (Properties × Frame)

inductive Progress
  | before
  | directed (hasVersion : Bool) (handles : List (Text × Text))
  | inside (draft : Draft)
  | after (node : Node)

namespace Draft

def start (handles : List (Text × Text)) : Draft := ⟨handles, [], Properties.bare, []⟩

def withFrame (d : Draft) (p : Properties) (frame : Frame) (outer : List (Properties × Frame)) :
    Progress :=
  .inside { d with frames := (p, frame) :: outer }

def giveName (d : Draft) (p : Properties) (node : Node) : Draft :=
  match p.name with
  | some name => { d with named := (name, node) :: d.named }
  | none => d

def takeNext (d : Draft) : Option (Properties × Draft) :=
  let isTaken := match d.next.name with
    | some name => (d.named.lookup name).isSome
    | none => false
  if isTaken then none else some (d.next, { d with next := Properties.bare })

def place (d : Draft) (node : Node) : Option Progress :=
  match d.frames with
  | [] => some (.after node)
  | (p, .item style items) :: outer => some (d.withFrame p (.afterItem style (node :: items)) outer)
  | (p, .pair pairs) :: outer =>
      some (d.withFrame p (.afterPair .flow ((node, empty) :: pairs)) outer)
  | (p, .key style pairs) :: outer => some (d.withFrame p (.afterKey style pairs node) outer)
  | (_, .value .single _ key) :: (p, .item style items) :: outer =>
      some (d.withFrame p (.afterItem style (ofPairs .mapping [(key, node)] :: items)) outer)
  | (p, .value style pairs key) :: outer =>
      some (d.withFrame p (.afterPair style ((key, node) :: pairs)) outer)
  | _ => none

def placeScalar (d : Draft) (isPlain : Bool) (signs : Signs) : Option Progress := do
  let (p, d) ← d.takeNext
  let node := .scalar (p.scalarTag isPlain signs) signs
  (d.giveName p node).place node

/-- Opens a collection. Within itself its name stands for an empty one. -/
def openFrame (d : Draft) (frame : Frame) : Option Progress := do
  let (p, d) ← d.takeNext
  let d := d.giveName p (.sequence .sequence [])
  some (d.withFrame p frame d.frames)

def close (d : Draft) (p : Properties) (node : Node) (outer : List (Properties × Frame)) :
    Option Progress :=
  ({ d with frames := outer }.giveName p node).place node

def closeSequence (d : Draft) (p : Properties) (items : List Node)
    (outer : List (Properties × Frame)) : Option Progress :=
  d.close p (.sequence (p.collectionTag .sequence) items.reverse) outer

def closeMapping (d : Draft) (p : Properties) (pairs : List (Node × Node))
    (outer : List (Properties × Frame)) : Option Progress :=
  d.close p (ofPairs (p.collectionTag .mapping) pairs.reverse) outer

def goesOn (d : Draft) (token : Token) : Bool :=
  match token with
  | .scalar _ _ | .openSequence | .openMapping | .blockSequence | .blockMapping => true
  | .anchor _ => d.next.name.isNone
  | .tag _ => d.next.tag.isNone
  | .dash => match d.frames with
      | (_, .key .block _) :: _ | (_, .value .block _ _) :: _ => true
      | _ => false
  | _ => false

def leaveOut (d : Draft) (token : Token) : Option Progress :=
  if d.next = Properties.bare then match d.frames with
    | [] => if token = .documentEnd then d.place empty else some (.inside d)
    | (_, frame) :: _ => if leavesOut frame token then d.place empty else some (.inside d)
  else if d.goesOn token then some (.inside d)
  else d.placeScalar true []

def endLoose (d : Draft) (token : Token) : Option Progress :=
  match d.frames with
  | (p, .afterItem .loose items) :: outer =>
      if token = .dash then some (.inside d) else d.closeSequence p items outer
  | _ => some (.inside d)

def leaveValueOut (d : Draft) (token : Token) : Option Progress :=
  match d.frames with
  | (p, .afterKey style pairs key) :: outer =>
      if token = .value then some (.inside d)
      else { d with frames := (p, .value style pairs key) :: outer }.place empty
  | _ => some (.inside d)

def wantsNode (d : Draft) : Bool :=
  match d.frames with
  | [] | (_, .item _ _) :: _ | (_, .pair _) :: _ => true
  | (_, .key _ _) :: _ | (_, .value _ _ _) :: _ => true
  | _ => false

def readNode (d : Draft) (token : Token) : Option Progress :=
  if d.wantsNode then match token with
    | .scalar isPlain signs => d.placeScalar isPlain signs
    | .alias name => (d.named.lookup name).bind d.place
    | .anchor name => some (.inside { d with next := { d.next with name := some name } })
    | .tag mark => (mark.tag? d.handles).map fun tag =>
        .inside { d with next := { d.next with tag := some tag } }
    | .blockSequence => d.openFrame (.afterItem .block [])
    | .blockMapping => d.openFrame (.afterPair .block [])
    | .openSequence => d.openFrame (.item .flow [])
    | .openMapping => d.openFrame (.pair [])
    | _ => none
  else none

def fit (d : Draft) (token : Token) : Option Progress :=
  match d.frames, token with
  | (p, .afterItem .block items) :: outer, .dash => some (d.withFrame p (.item .block items) outer)
  | (p, .afterItem .loose items) :: outer, .dash => some (d.withFrame p (.item .loose items) outer)
  | (_, .key .block _) :: _, .dash | (_, .value .block _ _) :: _, .dash =>
      d.openFrame (.item .loose [])
  | (p, .afterItem .block items) :: outer, .blockEnd => d.closeSequence p items outer
  | (p, .afterItem .flow items) :: outer, .comma => some (d.withFrame p (.item .flow items) outer)
  | (p, .afterItem .flow items) :: outer, .closeSequence
  | (p, .item .flow items) :: outer, .closeSequence => d.closeSequence p items outer
  | (_, .item .flow _) :: _, .key => d.openFrame (.key .single [])
  | (p, .afterPair .block pairs) :: outer, .key => some (d.withFrame p (.key .block pairs) outer)
  | (p, .afterPair .block pairs) :: outer, .blockEnd => d.closeMapping p pairs outer
  | (p, .afterPair .flow pairs) :: outer, .comma => some (d.withFrame p (.pair pairs) outer)
  | (p, .afterPair .flow pairs) :: outer, .closeMapping
  | (p, .pair pairs) :: outer, .closeMapping => d.closeMapping p pairs outer
  | (p, .pair pairs) :: outer, .key => some (d.withFrame p (.key .flow pairs) outer)
  | (p, .afterKey style pairs key) :: outer, .value =>
      some (d.withFrame p (.value style pairs key) outer)
  | _, token => d.readNode token

end Draft

namespace Progress

def whenInside (p : Progress) (goOn : Draft → Option Progress) : Option Progress :=
  match p with
  | .inside d => goOn d
  | p => some p

def direct (hasVersion : Bool) (handles : List (Text × Text)) : Directive → Option Progress
  | .version major => if hasVersion || major != 1 then none else some (.directed true handles)
  | .handle handle meaning =>
      if (handles.lookup handle).isSome then none
      else some (.directed hasVersion (handles ++ [(handle, meaning)]))
  | .other => some (.directed hasVersion handles)

def readInside (d : Draft) (token : Token) : Option Progress := do
  let p ← d.leaveOut token
  let p ← p.whenInside fun d => d.endLoose token
  let p ← p.whenInside fun d => d.leaveValueOut token
  match p with
    | .inside d => d.fit token
    | .after node => if token = .documentEnd then some (.after node) else none
    | _ => none

/-- Reads one more token. A document that has no end mark before it starts with a node or with a
mark; after its end only more such marks may follow. -/
def read (p : Progress) (token : Token) : Option Progress :=
  match p, token with
  | .before, .directive directive => direct false [] directive
  | .directed hasVersion handles, .directive directive => direct hasVersion handles directive
  | .before, .documentStart => some (.inside (Draft.start []))
  | .directed _ handles, .documentStart => some (.inside (Draft.start handles))
  | .before, token => (Draft.start []).readNode token
  | .directed _ _, _ => none
  | .inside d, token => readInside d token
  | .after node, .documentEnd => some (.after node)
  | .after _, _ => none

def node? : Progress → Option Node
  | .before => some empty
  | .directed _ _ => none
  | .inside d => match d.frames, d.leaveOut .documentEnd with
      | [], some (.after node) => some node
      | _, _ => none
  | .after node => some node

end Progress

def ofTokens (tokens : List Token) : Option Node :=
  (tokens.foldlM Progress.read .before).bind Progress.node?

end Node
end PostfixSheet.Yaml
