/-
# Characters and places in YAML texts

A YAML text is read from front to back.  A `Cursor` is a place in it: what is left to read, and
the offset, the line and the column where that starts.  Lines end at any of five line breaks,
and a carriage return with a line feed behind it is one break.

* `isAllowed`, `isBreak`, `isSpacing`: the classes of characters;
* `Cursor.skip`, `Cursor.span`, `Cursor.lineBreak`: the ways to move on;
* `Gap`: the white space between two words of a scalar, and what it counts as (`Gap.folded`);
* `Cursor.gap?`: reads such white space.
-/

namespace Backlog.Yaml

/-! ## 1. Classes of characters -/

/-- The characters that a text may hold: no control characters but tabs and line breaks. -/
def isAllowed (c : Char) : Bool :=
  let n := c.toNat
  n == 0x09 || n == 0x0a || n == 0x0d || (0x20 ≤ n && n ≤ 0x7e) || n == 0x85 ||
    (0xa0 ≤ n && n ≤ 0xd7ff) || (0xe000 ≤ n && n ≤ 0xfffd) || 0x10000 ≤ n

def isBreak (c : Char) : Bool :=
  let n := c.toNat
  n == 0x0a || n == 0x0d || n == 0x85 || n == 0x2028 || n == 0x2029

/-- Spaces and tabs. -/
def isSpacing (c : Char) : Bool := c == ' ' || c == '\t'

def isSpace (c : Char) : Bool := isSpacing c || isBreak c

/-- Whether a word ends before this character, `none` being the end of the text. -/
def endsWord (c : Option Char) : Bool := c.all isSpace

/-- The characters of names: ASCII letters and digits, `_` and `-`. -/
def isNameChar (c : Char) : Bool := c.isAlphanum || c == '_' || c == '-'

/-- The characters that delimit flow collections. -/
def isFlowMark (c : Char) : Bool :=
  c == ',' || c == '[' || c == ']' || c == '\x7b' || c == '\x7d'

/-! ## 2. Places -/

/-- A place in a text. -/
structure Cursor where
  rest : List Char
  /-- The number of bytes in front of it. -/
  offset : Nat := 0
  line : Nat := 0
  column : Nat := 0

namespace Cursor

/-- The `n`-th character from here. -/
def peek (c : Cursor) (n : Nat := 0) : Option Char := c.rest[n]?

def isDone (c : Cursor) : Bool := c.rest.isEmpty

/-- How many bytes the next `n` characters take. -/
def bytes (c : Cursor) (n : Nat) : Nat := (c.rest.take n).foldl (fun sum b => sum + b.utf8Size) 0

/-- Passes `n` characters of a line. -/
def skip (c : Cursor) (n : Nat := 1) : Cursor :=
  { c with rest := c.rest.drop n, offset := c.offset + c.bytes n, column := c.column + n }

/-- Passes the characters of a line that satisfy `p`. -/
def span (p : Char → Bool) (c : Cursor) : String × Cursor :=
  let front := c.rest.takeWhile p
  (String.ofList front, c.skip front.length)

/-- Passes the first character of the next line, which starts after `n` characters. -/
def newLine (c : Cursor) (n : Nat) : Cursor :=
  { rest := c.rest.drop n, offset := c.offset + c.bytes n, line := c.line + 1, column := 0 }

/-- Passes a line break, if there is one here.  It counts as a line feed, unless it is one of
the two separators of lines and paragraphs. -/
def lineBreak (c : Cursor) : String × Cursor :=
  match c.rest with
  | '\r' :: '\n' :: _ => ("\n", c.newLine 2)
  | b :: _ =>
    if b.toNat == 0x2028 || b.toNat == 0x2029 then (b.toString, c.newLine 1)
    else if isBreak b then ("\n", c.newLine 1)
    else ("", c)
  | [] => ("", c)

/-- Whether the three marks of a document's start or end stand here, on their own at the start
of a line. -/
def atMarks (mark : Char) (c : Cursor) : Bool :=
  c.column == 0 && c.rest.take 3 == [mark, mark, mark] && endsWord (c.peek 3)

/-- Whether a document starts or ends here. -/
def atDocumentMarks (c : Cursor) : Bool := c.atMarks '-' || c.atMarks '.'

/-- Passes blanks and a comment up to the end of the line, and its break. -/
def endOfLine? (c : Cursor) : Option Cursor :=
  let (_, c) := c.span isSpacing
  let c := if c.peek == some '#' then (c.span (!isBreak ·)).2 else c
  if c.isDone || c.peek.any isBreak then some c.lineBreak.2 else none

end Cursor

/-! ## 3. White space inside scalars -/

/-- White space between two words: the blanks of the first line, the first line break and the
later ones.  `broken` says whether a line ended, if only by an escape. -/
structure Gap where
  blanks : String := ""
  firstBreak : String := ""
  laterBreaks : String := ""
  broken : Bool := false

/-- What white space counts as.  A single line feed is a space, and one that others follow is
nothing. -/
def Gap.folded (g : Gap) : String :=
  if !g.broken then g.blanks
  else if g.firstBreak == "\n" then (if g.laterBreaks.isEmpty then " " else g.laterBreaks)
  else g.firstBreak ++ g.laterBreaks

/-- Reads on over white space.  On a new line, no tab may stand left of the column `floor`. -/
def Cursor.gapFrom? (floor : Int) : Nat → Gap → Cursor → Option (Gap × Cursor)
  | 0, _, _ => none
  | fuel + 1, g, c =>
    match c.peek with
    | none => some (g, c)
    | some b =>
      if isSpacing b then
        if g.broken then
          if (c.column : Int) < floor && b == '\t' then none else gapFrom? floor fuel g c.skip
        else gapFrom? floor fuel { g with blanks := g.blanks.push b } c.skip
      else if isBreak b then
        let (text, c) := c.lineBreak
        if g.broken then
          gapFrom? floor fuel { g with laterBreaks := g.laterBreaks ++ text } c
        else gapFrom? floor fuel { firstBreak := text, broken := true } c
      else some (g, c)

/-- Reads white space.  Each step passes a character, so their number is enough fuel. -/
def Cursor.gap? (floor : Int) (g : Gap) (c : Cursor) : Option (Gap × Cursor) :=
  c.gapFrom? floor (c.rest.length + 1) g

end Backlog.Yaml
