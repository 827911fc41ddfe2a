/-
# Tokens of YAML texts

A text is a sequence of tokens.  The layout of the lines is made explicit: where a block
collection starts and ends there is a token for it, and a key that is only known by the colon
behind it has a token in front of it all the same.

* `Style`: how a scalar is written;
* `Tag`: what a tag says, which need not be a text;
* `Token`: the tokens.
-/

namespace Backlog.Yaml

/-! ## 1. Tags -/

/-- A tag: its bytes, which need not spell characters. -/
structure Tag where
  bytes : List UInt8
deriving DecidableEq, Repr

namespace Tag

def ofString (s : String) : Tag := ⟨s.toUTF8.data.toList⟩

/-- A tag that stands for the start of `t`, continued by `t`. -/
def append (start t : Tag) : Tag := ⟨start.bytes ++ t.bytes⟩

instance : Append Tag := ⟨append⟩

/-- The text that the bytes spell, if they do. -/
def text? (t : Tag) : Option String := String.fromUTF8? ⟨t.bytes.toArray⟩

/-- The tag `!`. -/
def bang : Tag := ofString "!"

end Tag

/-! ## 2. Tokens -/

/-- How a scalar is written. -/
inductive Style
  | plain
  | singleQuoted
  | doubleQuoted
  | literal
  | folded
deriving DecidableEq, Repr

inductive Token
  /-- The version of YAML that a document asks for. -/
  | version (major minor : Nat)
  /-- A handle that stands for the start of tags. -/
  | tagHandle (handle : String) (start : Tag)
  | documentStart
  | documentEnd
  | blockSequence
  | blockMapping
  /-- The end of the innermost block collection. -/
  | blockEnd
  | flowSequence
  | flowSequenceEnd
  | flowMapping
  | flowMappingEnd
  /-- The dash in front of an item. -/
  | blockEntry
  /-- The comma between two items. -/
  | flowEntry
  | key
  | value
  | reference (name : String)
  | anchor (name : String)
  /-- A tag: what its handle stands for, and what comes after it. -/
  | tag (handle : String) (rest : Tag)
  | scalar (style : Style) (text : String)
deriving DecidableEq, Repr

end Backlog.Yaml
