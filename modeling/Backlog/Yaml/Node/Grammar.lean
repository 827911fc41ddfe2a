/-
# From tokens to documents

The grammar of nodes over tokens: block and flow collections, pairs that stand alone in a flow
sequence, and nodes that are left out.  A text holds at most one document.

* `Source`: the tokens that are left, the handles of tags, and the anchors seen so far;
* `node`: reads a node;
* `document?`, `Document.ofText?`: the document of a list of tokens, and of a text.

Each call reads a token or is followed by one that does, so a few times the number of tokens is
enough fuel.
-/
import Backlog.Yaml.Node
import Backlog.Yaml.Token.Layout

namespace Backlog.Yaml

/-! ## 1. Sources -/

/-- What is left to read, and what the names in it stand for. -/
structure Source where
  tokens : List Token
  handles : List (String × Tag)
  anchors : List (String × Nat) := []

/-- A reader of tokens. -/
abbrev Grammar := StateT Source Option

namespace Grammar

/-- The next token. -/
def peek : Grammar (Option Token) := return (← get).tokens.head?

/-- Passes the next token. -/
def pass : Grammar Unit := modify fun s => { s with tokens := s.tokens.tail }

/-- Whether the next token is one of these. -/
def sees (ts : List Token) : Grammar Bool := return (← peek).any ts.contains

/-- Passes a token that has to come now. -/
def expect (t : Token) : Grammar Unit := do
  if ← sees [t] then pass else failure

/-- Numbers an anchor.  The number is that of the names seen before; a name that comes again
takes a new number and loses its old one. -/
def number (name : String) : Grammar Nat := do
  let s ← get
  let n := s.anchors.length
  let anchors :=
    if s.anchors.any (·.1 == name) then s.anchors.map fun a => if a.1 == name then (name, n) else a
    else s.anchors ++ [(name, n)]
  set { s with anchors }
  pure n

/-- The number of an anchor that has been seen. -/
def numberOf (name : String) : Grammar Nat := do
  (← get).anchors.lookup name

/-- The full tag.  One without a handle is full already; other handles have to be known. -/
def fullTag (handle : String) (rest : Tag) : Grammar Tag := do
  if handle.isEmpty then pure rest
  else
    let start ← (← get).handles.lookup handle
    pure (start ++ rest)

/-! ## 2. Nodes -/

/-- An anchor in front of a node. -/
def anchor : Grammar (Option Nat) := do
  match ← peek with
  | some (.anchor name) =>
    pass
    some <$> number name
  | _ => pure none

/-- A tag in front of a node. -/
def tag : Grammar (Option Tag) := do
  match ← peek with
  | some (.tag handle rest) =>
    pass
    some <$> fullTag handle rest
  | _ => pure none

/-- The anchor and the tag of a node, in any order. -/
def properties : Grammar Properties := do
  match ← anchor with
  | some n => pure { anchor := some n, tag := ← tag }
  | none =>
    let t ← tag
    pure { anchor := ← if t.isSome then anchor else pure none, tag := t }

/-- A node of which nothing but its anchor or its tag is written. -/
def bare (p : Properties) : Grammar Node :=
  if p.anchor.isNone && p.tag.isNone then failure else pure (.scalar p .plain "")

/-- Whether nothing follows in a block collection that could be an item's content. -/
def endsItem : Grammar Bool := sees [.blockEntry, .blockEnd]

/-- Whether a key or a value of a block mapping is left out. -/
def endsPair : Grammar Bool := sees [.key, .value, .blockEnd]

mutual

/-- A node.  Block collections may start here if `block`, and a sequence without indentation
of its own if `indentless`. -/
def node : Nat → Bool → Bool → Grammar Node
  | 0, _, _ => failure
  | fuel + 1, block, indentless => do
    if let some (.reference name) ← peek then
      pass
      return .reference (← numberOf name)
    let p ← properties
    match ← peek with
    | some (.scalar style text) =>
      pass
      pure (.scalar p style text)
    | some .flowSequence =>
      pass
      .sequence p <$> flowItems fuel true
    | some .flowMapping =>
      pass
      .mapping p <$> flowPairs fuel true
    | some .blockSequence =>
      if block then
        pass
        .sequence p <$> blockItems fuel
      else bare p
    | some .blockMapping =>
      if block then
        pass
        .mapping p <$> blockPairs fuel
      else bare p
    | some .blockEntry => if indentless then .sequence p <$> indentlessItems fuel else bare p
    | _ => bare p

/-- The items of a block sequence. -/
def blockItems : Nat → Grammar (List Node)
  | 0 => failure
  | fuel + 1 => do
    if ← sees [.blockEnd] then
      pass
      pure []
    else
      expect .blockEntry
      let n ← if ← endsItem then pure .empty else node fuel true false
      (n :: ·) <$> blockItems fuel

/-- The items of a sequence that is indented no more than the mapping around it. -/
def indentlessItems : Nat → Grammar (List Node)
  | 0 => failure
  | fuel + 1 => do
    if ← sees [.blockEntry] then
      pass
      let n ← if (← endsItem) || (← endsPair) then pure .empty else node fuel true false
      (n :: ·) <$> indentlessItems fuel
    else pure []

/-- The pairs of a block mapping. -/
def blockPairs : Nat → Grammar (List (Node × Node))
  | 0 => failure
  | fuel + 1 => do
    if ← sees [.blockEnd] then
      pass
      pure []
    else
      expect .key
      let k ← if ← endsPair then pure .empty else node fuel true true
      let v ← if ← sees [.value] then
          pass
          if ← endsPair then pure .empty else node fuel true true
        else pure .empty
      ((k, v) :: ·) <$> blockPairs fuel

/-- The items of a flow sequence, the first one without a comma in front. -/
def flowItems : Nat → Bool → Grammar (List Node)
  | 0, _ => failure
  | fuel + 1, first => do
    unless first || (← sees [.flowSequenceEnd]) do expect .flowEntry
    if ← sees [.flowSequenceEnd] then
      pass
      pure []
    else if ← sees [.key] then
      pass
      let pair ← lonePair fuel
      (.mapping {} [pair] :: ·) <$> flowItems fuel false
    else
      let n ← node fuel false false
      (n :: ·) <$> flowItems fuel false

/-- A pair that stands alone in a flow sequence.  A key that is left out takes the token behind
it along. -/
def lonePair : Nat → Grammar (Node × Node)
  | 0 => failure
  | fuel + 1 => do
    let k ← if ← sees [.value, .flowEntry, .flowSequenceEnd] then
        pass
        pure .empty
      else node fuel false false
    let v ← if ← sees [.value] then
        pass
        if ← sees [.flowEntry, .flowSequenceEnd] then pure .empty else node fuel false false
      else pure .empty
    pure (k, v)

/-- The pairs of a flow mapping, the first one without a comma in front. -/
def flowPairs : Nat → Bool → Grammar (List (Node × Node))
  | 0, _ => failure
  | fuel + 1, first => do
    unless first || (← sees [.flowMappingEnd]) do expect .flowEntry
    if ← sees [.flowMappingEnd] then
      pass
      pure []
    else if ← sees [.key] then
      pass
      let k ← if ← sees [.value, .flowEntry, .flowMappingEnd] then pure .empty
        else node fuel false false
      let v ← if ← sees [.value] then
          pass
          if ← sees [.flowEntry, .flowMappingEnd] then pure .empty else node fuel false false
        else pure .empty
      ((k, v) :: ·) <$> flowPairs fuel false
    else
      let k ← node fuel false false
      ((k, .empty) :: ·) <$> flowPairs fuel false

end

/-! ## 3. Documents -/

/-- The handles that need no directive. -/
def defaultHandles : List (String × Tag) :=
  [("!", .bang), ("!!", .ofString "tag:yaml.org,2002:")]

/-- The directives in front of a document: whether one of them gives the version, and the
handles that they declare.  Nothing may be said twice. -/
def directives : Nat → Bool → List (String × Tag) → Grammar (List (String × Tag))
  | 0, _, _ => failure
  | fuel + 1, versioned, handles => do
    match ← peek with
    | some (.version major minor) =>
      if versioned || major != 1 || (minor != 1 && minor != 2) then failure
      pass
      directives fuel true handles
    | some (.tagHandle handle start) =>
      if handles.any (·.1 == handle) then failure
      pass
      directives fuel versioned (handles ++ [(handle, start)])
    | _ => pure handles

/-- Whether the next token is a directive. -/
def seesDirective : Grammar Bool := do
  match ← peek with
  | some (.version ..) | some (.tagHandle ..) => pure true
  | _ => pure false

/-- The content of a document behind its marks, which may be left out. -/
def content (fuel : Nat) : Grammar Node := do
  if (← peek).isNone || (← seesDirective) || (← sees [.documentStart, .documentEnd]) then
    pure .empty
  else node fuel true false

/-- The root of a document. -/
def root (fuel : Nat) : Grammar Node := do
  if (← seesDirective) || (← sees [.documentStart]) then
    let handles ← directives fuel false []
    modify fun s => { s with handles := handles ++ s.handles }
    expect .documentStart
    content fuel
  else node fuel true false

end Grammar

/-- The document of a list of tokens.  Nothing may come behind it but marks of its end. -/
def document? (tokens : List Token) : Option Document :=
  if tokens.isEmpty then some { root := none }
  else
    match (Grammar.root (4 * tokens.length + 4)).run
        { tokens, handles := Grammar.defaultHandles } with
    | some (n, s) => if s.tokens.all (· == .documentEnd) then some { root := some n } else none
    | none => none

/-- The document of a text. -/
def Document.ofText? (text : String) : Option Document := (tokens? text).bind document?

end Backlog.Yaml
