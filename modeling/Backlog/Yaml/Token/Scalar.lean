/-
# Scalars in YAML texts

Scalars are written between quotes, as blocks of lines, or plainly.  Inside quotes and in plain
scalars the white space between two words is folded; in a literal block every line counts as it
stands, and in a folded one a single line break between two lines is a space.

* `quotedScalar?`, `blockScalar?`, `plainScalar?`: each reads the text of a scalar.

Each step of a reader passes a character, so their number is enough fuel.
-/
import Backlog.Yaml.Token.Tag

namespace Backlog.Yaml

/-! ## 1. Scalars between quotes -/

/-- What an escape of one letter stands for. -/
def letterEscape? : Char → Option Char
  | '0' => some '\x00'
  | 'a' => some '\x07'
  | 'b' => some '\x08'
  | 't' => some '\t'
  | '\t' => some '\t'
  | 'n' => some '\n'
  | 'v' => some '\x0b'
  | 'f' => some '\x0c'
  | 'r' => some '\r'
  | 'e' => some '\x1b'
  | ' ' => some ' '
  | '"' => some '"'
  | '/' => some '/'
  | '\\' => some '\\'
  | 'N' => some '\u0085'
  | '_' => some '\u00a0'
  | 'L' => some '\u2028'
  | 'P' => some '\u2029'
  | _ => none

/-- How many hexadecimal digits follow this letter. -/
def codeLength? : Char → Option Nat
  | 'x' => some 2
  | 'u' => some 4
  | 'U' => some 8
  | _ => none

/-- The character that an escape stands for, and how many characters the escape has after the
backslash. -/
def escape? : List Char → Option (Char × Nat)
  | [] => none
  | e :: rest =>
    match codeLength? e with
    | none => (letterEscape? e).map (·, 1)
    | some n => do
      let digits ← (rest.take n).mapM Text.hexDigit?
      let code := digits.foldl (fun code d => code * 16 + d) 0
      if digits.length = n ∧ code.isValidChar then pure (Char.ofNat code, n + 1) else none

/-- Reads on up to white space, the closing quote or an escaped line break; says which of the
last two it was by passing the break. -/
def quotedWord? (single : Bool) : Nat → String → Cursor → Option (String × Bool × Cursor)
  | 0, _, _ => none
  | fuel + 1, text, c =>
    match c.rest with
    | [] => some (text, false, c)
    | b :: next =>
      if isSpace b then some (text, false, c)
      else if single then
        if b == '\'' then
          if next.head? == some '\'' then quotedWord? single fuel (text.push b) (c.skip 2)
          else some (text, false, c)
        else quotedWord? single fuel (text.push b) c.skip
      else if b == '"' then some (text, false, c)
      else if b == '\\' then
        if next.head?.any isBreak then some (text, true, c.skip.lineBreak.2)
        else do
          let (e, n) ← escape? next
          quotedWord? single fuel (text.push e) (c.skip (n + 1))
      else quotedWord? single fuel (text.push b) c.skip

/-- Reads on up to the closing quote and passes it. -/
def quotedText? (single : Bool) : Nat → String → Cursor → Option (String × Cursor)
  | 0, _, _ => none
  | fuel + 1, text, c =>
    if c.atDocumentMarks || c.isDone then none
    else do
      let (text, broken, c) ← quotedWord? single (c.rest.length + 1) text c
      if c.peek == some (if single then '\'' else '"') then pure (text, c.skip)
      else
        let (gap, c) ← c.gap? 0 { broken }
        quotedText? single fuel (text ++ gap.folded) c

/-- A scalar whose opening quote stands here. -/
def quotedScalar? (single : Bool) (c : Cursor) : Option (String × Cursor) :=
  quotedText? single (c.rest.length + 1) "" c.skip

/-! ## 2. Blocks of lines -/

/-- What becomes of the line breaks at the end of a block. -/
inductive Chomping
  | strip
  /-- One of them stays. -/
  | clip
  | keep
deriving DecidableEq

def chomping? (c : Cursor) : Option Chomping :=
  match c.peek with
  | some '-' => some .strip
  | some '+' => some .keep
  | _ => none

/-- The indentation that the header of a block asks for, 0 if it does not. -/
def increment? (c : Cursor) : Option (Nat × Cursor) :=
  match c.peek with
  | none => some (0, c)
  | some d =>
    if d == '0' then none
    else if d.isDigit then some (d.toNat - '0'.toNat, c.skip)
    else some (0, c)

/-- The header of a block, up to the end of its line: the two marks come in any order. -/
def blockHeader? (c : Cursor) : Option (Chomping × Nat × Cursor) := do
  let (chomping, increment, c) ←
    match chomping? c with
    | some k => (increment? c.skip).map fun (n, c) => (k, n, c)
    | none => (increment? c).map fun (n, c) =>
      match chomping? c with
      | some k => if n = 0 then (.clip, n, c) else (k, n, c.skip)
      | none => (.clip, n, c)
  pure (chomping, increment, ← c.endOfLine?)

/-- Passes empty lines, and the indentation of the line behind them.  `indent` is the
indentation of the block, 0 as long as it is not known; `widest` is the widest one seen. -/
def emptyLines? (indent : Nat) : Nat → Nat → String → Cursor → Option (Nat × String × Cursor)
  | 0, _, _, _ => none
  | fuel + 1, widest, breaks, c =>
    let spaces := (c.rest.takeWhile (· == ' ')).length
    let c := c.skip (if indent = 0 then spaces else min spaces (indent - c.column))
    let widest := max widest c.column
    if (indent = 0 || c.column < indent) && c.peek == some '\t' then none
    else if c.peek.any isBreak then
      let (text, c) := c.lineBreak
      emptyLines? indent fuel widest (breaks ++ text) c
    else some (widest, breaks, c)

/-- A block as far as it has been read: its text, the break after the last line, the empty lines
behind that, and whether the last line started with a blank. -/
structure BlockText where
  text : String := ""
  lastBreak : String := ""
  emptyLines : String
  indented : Bool := false

/-- What stands between the lines read so far and the next one. -/
def BlockText.joint (t : BlockText) (folding indented : Bool) : String :=
  if folding && t.lastBreak == "\n" && !t.indented && !indented then
    if t.emptyLines.isEmpty then " " else t.emptyLines
  else t.lastBreak ++ t.emptyLines

/-- Reads the lines of a block that have its indentation. -/
def blockLines? (folding : Bool) (indent : Nat) :
    Nat → BlockText → Cursor → Option (BlockText × Cursor)
  | 0, _, _ => none
  | fuel + 1, t, c =>
    if c.column ≠ indent || c.isDone then some (t, c)
    else do
      let indented := c.peek.any isSpacing
      let (line, c) := c.span (!isBreak ·)
      let (lastBreak, c) := c.lineBreak
      let (_, emptyLines, c) ← emptyLines? indent (c.rest.length + 1) 0 "" c
      blockLines? folding indent fuel
        { text := t.text ++ t.joint folding indented ++ line, lastBreak, emptyLines, indented } c

/-- A block scalar whose mark stands here, inside a collection at column `outer`. -/
def blockScalar? (folding : Bool) (outer : Int) (c : Cursor) : Option (String × Cursor) := do
  let (chomping, increment, c) ← blockHeader? c.skip
  let given := if increment = 0 then 0 else (max outer 0).toNat + increment
  let fuel := c.rest.length + 1
  let (widest, emptyLines, c) ← emptyLines? given fuel 0 "" c
  let indent := if given = 0 then max (max widest (outer + 1).toNat) 1 else given
  let (t, c) ← blockLines? folding indent fuel { emptyLines } c
  pure <| match chomping with
    | .strip => (t.text, c)
    | .clip => (t.text ++ t.lastBreak, c)
    | .keep => (t.text ++ t.lastBreak ++ t.emptyLines, c)

/-! ## 3. Plain scalars -/

/-- A word of a plain scalar.  It ends before white space, before a colon with white space
behind it, and in flow collections before their marks, which must not follow a colon. -/
def plainWord? (flow : Bool) : List Char → Option (List Char)
  | [] => some []
  | b :: rest =>
    if isSpace b then some []
    else if flow && b == ':' && rest.head?.any fun n => isFlowMark n || n == '?' then none
    else if (b == ':' && endsWord rest.head?) || (flow && isFlowMark b) then some []
    else (plainWord? flow rest).map (b :: ·)

/-- Reads the words of a plain scalar; `gap` is the white space passed since the last one.
Outside flow collections the scalar ends before a line that starts left of `floor`. -/
def plainText? (flow : Bool) (floor : Int) :
    Nat → String → Gap → Cursor → Option (String × Gap × Cursor)
  | 0, _, _, _ => none
  | fuel + 1, text, gap, c =>
    if c.atDocumentMarks || c.peek == some '#' then some (text, gap, c)
    else do
      let word ← plainWord? flow c.rest
      let c := c.skip word.length
      let (text, gap) :=
        if word.isEmpty then (text, gap) else (text ++ gap.folded ++ String.ofList word, {})
      if !c.peek.any isSpace then pure (text, gap, c)
      else
        let (gap, c) ← c.gap? floor gap
        if !flow && (c.column : Int) < floor then pure (text, gap, c)
        else plainText? flow floor fuel text gap c

/-- A plain scalar that starts here, inside a collection at column `outer`; says whether it
ended on a new line. -/
def plainScalar? (flow : Bool) (outer : Int) (c : Cursor) : Option (String × Bool × Cursor) :=
  (plainText? flow (outer + 1) (c.rest.length + 1) "" {} c).map fun (text, gap, c) =>
    (text, gap.broken, c)

end Backlog.Yaml
