/-
# From texts to tokens

Lines that are indented more deeply than the block collection around them open a new one, and
lines that are indented less close it.  A scalar or a flow collection may turn out to be a key
once a colon follows; until then its place is remembered in a `KeyMark`, and the token for the
key is inserted there when the colon comes.  Such a key has to stand on one line and may take
1024 bytes.

* `Layout`: the tokens read so far, and what decides about the next one;
* `Layout.step?`: reads one token;
* `tokens?`: the tokens of a text.

Each step passes a character, so their number is enough fuel.
-/
import Backlog.Yaml.Token.Scalar

namespace Backlog.Yaml

/-! ## 1. Layouts -/

/-- The place of something that may turn out to be a key. -/
structure KeyMark where
  /-- Whether it cannot be anything else, given its indentation. -/
  required : Bool
  /-- The number of tokens in front of it. -/
  number : Nat
  offset : Nat
  line : Nat
  column : Nat

/-- The tokens read so far, and what decides about the next one. -/
structure Layout where
  cursor : Cursor
  tokens : Array Token := #[]
  /-- The column of the innermost block collection, `-1` outside all of them. -/
  indent : Int := -1
  outerIndents : List Int := []
  /-- Whether a key or an item of a block may start here. -/
  keyAllowed : Bool := true
  mark : Option KeyMark := none
  /-- The marks around the flow collections that are open. -/
  outerMarks : List (Option KeyMark) := []

namespace Layout

/-- Whether this is inside a flow collection. -/
def inFlow (l : Layout) : Bool := !l.outerMarks.isEmpty

def push (l : Layout) (t : Token) : Layout := { l with tokens := l.tokens.push t }

/-- Puts a token in front of all but the first `number` ones. -/
def pushAt (l : Layout) (number : Nat) (t : Token) : Layout :=
  { l with tokens := l.tokens.insertIdxIfInBounds number t }

/-! ## 2. Indentation -/

/-- Opens a block collection at a column, unless the innermost one is there already. -/
def openBlock (l : Layout) (column : Nat) (number : Nat) (t : Token) : Layout :=
  if l.inFlow || (column : Int) ≤ l.indent then l
  else
    { l.pushAt number t with
      indent := column
      outerIndents := l.indent :: l.outerIndents }

/-- The indentation that is left when all collections right of `column` are closed, and how
many those are. -/
def closed (column : Int) : Int → List Int → Nat × Int × List Int
  | indent, [] => (0, indent, [])
  | indent, outer :: rest =>
    if column < indent then
      let (n, left) := closed column outer rest
      (n + 1, left)
    else (0, indent, outer :: rest)

/-- Closes the block collections right of a column. -/
def closeBlocks (l : Layout) (column : Int) : Layout :=
  if l.inFlow then l
  else
    let (n, indent, outerIndents) := closed column l.indent l.outerIndents
    { l with tokens := l.tokens ++ Array.replicate n .blockEnd, indent, outerIndents }

/-! ## 3. Marks -/

/-- Gives up the mark of this level, which must not be required. -/
def dropMark? (l : Layout) : Option Layout :=
  if l.mark.any KeyMark.required then none else some { l with mark := none }

/-- Marks this place, if a key may start here. -/
def setMark? (l : Layout) : Option Layout :=
  if l.keyAllowed then do
    let l ← l.dropMark?
    let c := l.cursor
    pure { l with
      mark := some
        { required := !l.inFlow && l.indent == c.column, number := l.tokens.size
          offset := c.offset, line := c.line, column := c.column } }
  else some l

/-- Whether what stands at a mark is too long to be a key by now. -/
def hasExpired (c : Cursor) (k : KeyMark) : Bool := k.line < c.line || k.offset + 1024 < c.offset

/-- A mark that has not expired.  One that is required must not expire. -/
def kept? (c : Cursor) : Option KeyMark → Option (Option KeyMark)
  | none => some none
  | some k => if !hasExpired c k then some (some k) else if k.required then none else some none

/-- Gives up the marks that have expired. -/
def expireMarks? (l : Layout) : Option Layout := do
  let mark ← kept? l.cursor l.mark
  let outerMarks ← l.outerMarks.mapM (kept? l.cursor)
  pure { l with mark, outerMarks }

/-! ## 4. Between tokens -/

/-- Passes a byte order mark at the start of a line.  It takes up a column. -/
def skipOrderMark (c : Cursor) : Cursor :=
  if c.column == 0 && c.peek == some '\ufeff' then c.skip else c

/-- Passes white space and comments.  Tabs count as white space where no key may start. -/
def skipToToken (l : Layout) : Nat → Layout
  | 0 => l
  | fuel + 1 =>
    let tabs := l.inFlow || !l.keyAllowed
    let (_, c) := (skipOrderMark l.cursor).span fun b => b == ' ' || (tabs && b == '\t')
    let c := if c.peek == some '#' then (c.span (!isBreak ·)).2 else c
    if c.peek.any isBreak then
      skipToToken
        { l with cursor := c.lineBreak.2, keyAllowed := l.keyAllowed || !l.inFlow } fuel
    else { l with cursor := c }

/-- Moves to the next token; its column closes the blocks right of it. -/
def settle? (l : Layout) : Option Layout := do
  let l ← (l.skipToToken (l.cursor.rest.length + 1)).expireMarks?
  pure (l.closeBlocks l.cursor.column)

/-! ## 5. Tokens -/

/-- Passes `n` characters that make up a token. -/
def take (l : Layout) (n : Nat) (t : Token) : Layout :=
  { l.push t with cursor := l.cursor.skip n }

/-- Ends all blocks: at the marks of a document, at a directive and at the end. -/
def endBlocks? (l : Layout) : Option Layout :=
  ({ l.closeBlocks (-1) with keyAllowed := false }).dropMark?

/-- The start of a flow collection. -/
def openFlow? (l : Layout) (t : Token) : Option Layout := do
  let l ← l.setMark?
  pure { l.take 1 t with mark := none, outerMarks := l.mark :: l.outerMarks, keyAllowed := true }

/-- The end of a flow collection. -/
def closeFlow? (l : Layout) (t : Token) : Option Layout := do
  let l ← l.dropMark?
  let l := { l.take 1 t with keyAllowed := false }
  pure <| match l.outerMarks with
    | [] => l
    | mark :: outerMarks => { l with mark, outerMarks }

/-- A mark that stands at the start of an item or a key, and opens a block if it has to. -/
def opening? (l : Layout) (block t : Token) (keyAllowed : Bool) : Option Layout :=
  if !l.inFlow && !l.keyAllowed then none
  else do
    let l ← (l.openBlock l.cursor.column l.tokens.size block).dropMark?
    pure { l.take 1 t with keyAllowed }

/-- The colon behind a key. -/
def value? (l : Layout) : Option Layout :=
  match l.mark with
  | some k =>
    let l := (l.pushAt k.number .key).openBlock k.column k.number .blockMapping
    some { l.take 1 .value with mark := none, keyAllowed := false }
  | none => l.opening? .blockMapping .value !l.inFlow

/-- Something that may turn out to be a key. -/
def content? (l : Layout) (read : Cursor → Option (Token × Cursor)) : Option Layout := do
  let l ← l.setMark?
  let (t, cursor) ← read l.cursor
  pure { l.push t with cursor, keyAllowed := false }

/-- A plain scalar.  A key may start behind one that ended on a new line. -/
def plain? (l : Layout) : Option Layout := do
  let l ← l.setMark?
  let (text, broken, cursor) ← plainScalar? l.inFlow l.indent l.cursor
  pure { l.push (.scalar .plain text) with cursor, keyAllowed := broken }

/-- A scalar in a block of lines. -/
def block? (l : Layout) (folding : Bool) : Option Layout := do
  let l ← l.dropMark?
  let (text, cursor) ← blockScalar? folding l.indent l.cursor
  pure { l.push (.scalar (if folding then .folded else .literal) text) with
    cursor, keyAllowed := true }

/-- The characters that no plain scalar starts with. -/
def isIndicator (b : Char) : Bool := "-?:,[]\x7b\x7d#&*!|>'\"%@`".contains b

/-- Whether a plain scalar may start with `b` before `next`. -/
def startsPlain (flow : Bool) (b : Char) (next : Option Char) : Bool :=
  (!isSpace b && !isIndicator b) || (b == '-' && !next.any isSpacing) ||
    (!flow && (b == '?' || b == ':') && !endsWord next)

/-- Reads one token, which starts with `b` here. -/
def tokenAt? (l : Layout) (b : Char) : Option Layout :=
  let c := l.cursor
  let flow := l.inFlow
  let wordEnds := endsWord (c.peek 1)
  if c.column == 0 && b == '%' then do
    let l ← l.endBlocks?
    let (t, cursor) ← directive? c.skip
    pure { l.push t with cursor }
  else if c.atMarks '-' then l.endBlocks?.map (·.take 3 .documentStart)
  else if c.atMarks '.' then l.endBlocks?.map (·.take 3 .documentEnd)
  else if b == '[' then l.openFlow? .flowSequence
  else if b == '\x7b' then l.openFlow? .flowMapping
  else if b == ']' then l.closeFlow? .flowSequenceEnd
  else if b == '\x7d' then l.closeFlow? .flowMappingEnd
  else if b == ',' then do
    let l ← l.dropMark?
    pure { l.take 1 .flowEntry with keyAllowed := true }
  else if b == '-' && wordEnds then l.opening? .blockSequence .blockEntry true
  else if b == '?' && (flow || wordEnds) then l.opening? .blockMapping .key !flow
  else if b == ':' && (flow || wordEnds) then l.value?
  else if b == '*' then
    l.content? fun c => (anchorName? c.skip).map fun (name, c) => (.reference name, c)
  else if b == '&' then
    l.content? fun c => (anchorName? c.skip).map fun (name, c) => (.anchor name, c)
  else if b == '!' then l.content? (tag? flow)
  else if b == '|' && !flow then l.block? false
  else if b == '>' && !flow then l.block? true
  else if b == '\'' then
    l.content? fun c => (quotedScalar? true c).map fun (text, c) => (.scalar .singleQuoted text, c)
  else if b == '"' then
    l.content? fun c =>
      (quotedScalar? false c).map fun (text, c) => (.scalar .doubleQuoted text, c)
  else if startsPlain flow b (c.peek 1) then l.plain?
  else none

/-- Ends the text, as if on a line of its own. -/
def finish? (l : Layout) : Option Layout := l.endBlocks?

/-- Reads tokens up to the end. -/
def run? : Nat → Layout → Option Layout
  | 0, _ => none
  | fuel + 1, l => do
    let l ← l.settle?
    match l.cursor.peek with
    | none => l.finish?
    | some b => run? fuel (← l.tokenAt? b)

end Layout

/-- The tokens of a text. -/
def tokens? (text : String) : Option (List Token) :=
  let c : Cursor := { rest := text.toList }
  if c.rest.all isAllowed then
    (Layout.run? (c.rest.length + 1) { cursor := c }).map fun l => l.tokens.toList
  else none

end Backlog.Yaml
