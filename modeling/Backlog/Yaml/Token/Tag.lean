/-
# Anchors, tags and directives

An anchor is a name behind `&`, and an alias is one behind `*`.  A tag is written in full
between angle brackets, or short with a handle in front.  A directive is a line of its own that
starts with `%`; there is one for the version and one that declares a handle.

* `anchorName?`, `tag?`, `directive?`: each reads one of them, the first character passed
  already or, for a tag, not.
-/
import Backlog.Text.Hex
import Backlog.Yaml.Cursor
import Backlog.Yaml.Token

namespace Backlog.Yaml

/-! ## 1. Anchors -/

/-- The name of an anchor or an alias. -/
def anchorName? (c : Cursor) : Option (String × Cursor) :=
  let (name, c) := c.span isNameChar
  let ends := endsWord c.peek || c.peek.any fun b => "?:,]\x7d%@`".contains b
  if name.isEmpty || !ends then none else some (name, c)

/-! ## 2. Tags -/

/-- The characters of short tags. -/
def isTagChar (c : Char) : Bool := isNameChar c || ";/?:@&=+$.!~*'()%".contains c

/-- The characters of full tags. -/
def isFullTagChar (c : Char) : Bool := isTagChar c || c == ',' || c == '[' || c == ']'

/-- How many bytes follow this one in a character that starts with it. -/
def followers? (byte : Nat) : Option Nat :=
  if byte < 0x80 then some 0
  else if byte / 0x20 = 0x6 then some 1
  else if byte / 0x10 = 0xe then some 2
  else if byte / 0x08 = 0x1e then some 3
  else none

/-- The bytes of a tag, escapes resolved.  An escape whose byte starts a longer character is
followed by as many escapes as that takes; whether there is such a character does not matter. -/
def unescaped? : Nat → List Char → Option (List UInt8)
  | 0, [] => some []
  | pending, '%' :: a :: b :: rest => do
    let byte ← Text.hexByte? a b
    let pending ←
      if pending = 0 then followers? byte.toNat
      else if byte.toNat / 0x40 = 0x2 then some (pending - 1)
      else none
    pure (byte :: (← unescaped? pending rest))
  | 0, c :: rest => if c == '%' then none else (unescaped? 0 rest).map (c.toNat.toUInt8 :: ·)
  | _, _ => none

/-- A tag as it is written.  It ends before a zero byte. -/
def writtenTag? (written : String) : Option Tag :=
  (unescaped? 0 written.toList).map fun bytes => ⟨bytes.takeWhile (· != 0)⟩

/-- A handle: `!`, a name and perhaps another `!`. -/
def tagHandle? (c : Cursor) : Option (String × Cursor) :=
  if c.peek != some '!' then none
  else
    let (name, c) := c.skip.span isNameChar
    if c.peek == some '!' then some ("!" ++ name ++ "!", c.skip) else some ("!" ++ name, c)

/-- A tag that is written in full. -/
def fullTag? (c : Cursor) : Option (Token × Cursor) := do
  let (written, c) := c.span isFullTagChar
  let t ← writtenTag? written
  if written.isEmpty || c.peek != some '>' then none else pure (.tag "" t, c.skip)

/-- A tag with a handle.  A single `!` in front is a handle by itself, and what looked like a
longer one belongs to the tag; nothing but `!` is the tag `!` itself. -/
def shortTag? (c : Cursor) : Option (Token × Cursor) := do
  let (handle, c) ← tagHandle? c
  let (written, c) := c.span isTagChar
  let t ← writtenTag? written
  if 1 < handle.length && handle.endsWith "!" then
    if written.isEmpty then none else pure (.tag handle t, c)
  else
    let t := .ofString (handle.drop 1).toString ++ t
    if t.bytes.isEmpty then pure (.tag "" .bang, c) else pure (.tag "!" t, c)

/-- A tag.  It ends before white space, or before a comma in a flow collection. -/
def tag? (flow : Bool) (c : Cursor) : Option (Token × Cursor) := do
  let (t, c) ← if c.peek 1 == some '<' then fullTag? (c.skip 2) else shortTag? c
  if endsWord c.peek || (flow && c.peek == some ',') then pure (t, c) else none

/-! ## 3. Directives -/

/-- A number of at most nine digits. -/
def versionNumber? (c : Cursor) : Option (Nat × Cursor) := do
  let (digits, c) := c.span Char.isDigit
  if digits.isEmpty || 9 < digits.length then none
  else pure (digits.foldl (fun n d => n * 10 + (d.toNat - '0'.toNat)) 0, c)

/-- The rest of a version directive. -/
def versionDirective? (c : Cursor) : Option (Token × Cursor) := do
  let (major, c) ← versionNumber? (c.span isSpacing).2
  if c.peek != some '.' then none
  else
    let (minor, c) ← versionNumber? c.skip
    pure (.version major minor, c)

/-- The rest of a directive that declares a handle. -/
def handleDirective? (c : Cursor) : Option (Token × Cursor) := do
  let (handle, c) ← tagHandle? (c.span isSpacing).2
  if handle != "!" && !handle.endsWith "!" then none
  else if !c.peek.any isSpacing then none
  else
    let (written, c) := (c.span isSpacing).2.span isFullTagChar
    let t ← writtenTag? written
    if written.isEmpty || !endsWord c.peek then none else pure (.tagHandle handle t, c)

/-- A directive, up to the end of its line. -/
def directive? (c : Cursor) : Option (Token × Cursor) := do
  let (name, c) := c.span isNameChar
  let (t, c) ←
    if !endsWord c.peek then none
    else if name == "YAML" then versionDirective? c
    else if name == "TAG" then handleDirective? c
    else none
  pure (t, ← c.endOfLine?)

end Backlog.Yaml
