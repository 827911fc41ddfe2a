/-
# Reading JSON texts

A JSON text is read from its bytes.  The grammar is strict: one value, with blanks around it
and nothing else, no comments, no trailing commas, no leading zeros.

* `Json.ofBytes?`, `Json.ofText?`: the value of a text, if it is well formed.

Each step of the reader consumes a byte or goes one level down, so twice the number of bytes is
enough fuel.
-/
import Backlog.Json.Number

namespace Backlog.Json

/-! ## 1. Bytes -/

/-- The byte of an ASCII character. -/
def byteOf (c : Char) : UInt8 := c.toNat.toUInt8

def isBlankByte (b : UInt8) : Bool := b == 0x20 || b == 0x0a || b == 0x0d || b == 0x09

def isDigitByte (b : UInt8) : Bool := 0x30 ≤ b && b ≤ 0x39

/-- The value of a hexadecimal digit of either case. -/
def hexValue? (b : UInt8) : Option Nat :=
  if isDigitByte b then some (b.toNat - 0x30)
  else if 0x61 ≤ b && b ≤ 0x66 then some (b.toNat - 0x61 + 10)
  else if 0x41 ≤ b && b ≤ 0x46 then some (b.toNat - 0x41 + 10)
  else none

/-- Drops the blanks in front. -/
def skipBlanks (bs : List UInt8) : List UInt8 := bs.dropWhile isBlankByte

/-- The rest after a fixed word in front. -/
def afterWord? : List Char → List UInt8 → Option (List UInt8)
  | [], bs => some bs
  | c :: cs, b :: bs => if b = byteOf c then afterWord? cs bs else none
  | _ :: _, [] => none

/-! ## 2. Strings -/

/-- A string read so far: its bytes, last one first, or `none` once it holds half of a
surrogate pair. -/
abbrev Collected := Option (List UInt8)

/-- Adds the bytes of a character. -/
def Collected.push (s : Collected) (code : Nat) : Collected :=
  s.map fun bytes => (String.singleton (Char.ofNat code)).toUTF8.toList.reverse ++ bytes

/-- Adds one byte. -/
def Collected.pushByte (s : Collected) (b : UInt8) : Collected := s.map (b :: ·)

/-- Four hexadecimal digits. -/
def hexFour? : List UInt8 → Option (Nat × List UInt8)
  | a :: b :: c :: d :: rest => do
    let a ← hexValue? a
    let b ← hexValue? b
    let c ← hexValue? c
    let d ← hexValue? d
    pure (((a * 16 + b) * 16 + c) * 16 + d, rest)
  | _ => none

/-- The low half of a surrogate pair, written as an escape. -/
def lowHalf? : List UInt8 → Option (Nat × List UInt8)
  | 0x5c :: 0x75 :: rest => do
    let (low, rest) ← hexFour? rest
    if 0xDC00 ≤ low && low ≤ 0xDFFF then pure (low, rest) else none
  | _ => none

/-- What a one-letter escape stands for. -/
def escapeOf? (b : UInt8) : Option UInt8 :=
  if b = byteOf '"' then some 0x22
  else if b = byteOf '\\' then some 0x5c
  else if b = byteOf '/' then some 0x2f
  else if b = byteOf 'b' then some 0x08
  else if b = byteOf 'f' then some 0x0c
  else if b = byteOf 'n' then some 0x0a
  else if b = byteOf 'r' then some 0x0d
  else if b = byteOf 't' then some 0x09
  else none

/-- Reads up to the closing quote. -/
def stringBody : Nat → Collected → List UInt8 → Option (Collected × List UInt8)
  | 0, _, _ => none
  | _ + 1, _, [] => none
  | fuel + 1, s, b :: rest =>
    if b = 0x22 then some (s, rest)
    else if b = 0x5c then
      match rest with
      | [] => none
      | e :: rest =>
        if e = 0x75 then do
          let (code, rest) ← hexFour? rest
          if code < 0xD800 || 0xDFFF < code then stringBody fuel (s.push code) rest
          else if code < 0xDC00 then
            match lowHalf? rest with
            | some (low, rest) =>
              stringBody fuel (s.push (0x10000 + (code - 0xD800) * 0x400 + (low - 0xDC00))) rest
            | none => stringBody fuel none rest
          else stringBody fuel none rest
        else do
          let byte ← escapeOf? e
          stringBody fuel (s.pushByte byte) rest
    else if b < 0x20 then none
    else stringBody fuel (s.pushByte b) rest

/-- The text that collected bytes spell, if they are well-formed UTF-8. -/
def Collected.text? (s : Collected) : Option String :=
  s.bind fun bytes => String.fromUTF8? ⟨bytes.reverse.toArray⟩

/-! ## 3. Numbers -/

/-- The digits in front, as numbers, and the rest. -/
def digitsOf (bs : List UInt8) : List Nat × List UInt8 :=
  ((bs.takeWhile isDigitByte).map fun b => b.toNat - 0x30, bs.dropWhile isDigitByte)

/-- The digits before the point: a single zero, or digits that do not start with one. -/
def wholePart? (bs : List UInt8) : Option (List Nat × List UInt8) :=
  match digitsOf bs with
  | ([], _) => none
  | (0 :: _ :: _, _) => none
  | (digits, rest) => some (digits, rest)

/-- A point and the digits after it, if there is a point. -/
def fractionPart? : List UInt8 → Option (Option (List Nat) × List UInt8)
  | 0x2e :: rest =>
    match digitsOf rest with
    | ([], _) => none
    | (digits, rest) => some (some digits, rest)
  | bs => some (none, bs)

/-- The letter of an exponent, its sign and its digits, if there is one. -/
def exponentPart? : List UInt8 → Option (Option (Bool × List Nat) × List UInt8)
  | b :: rest =>
    if b = byteOf 'e' || b = byteOf 'E' then
      let (down, rest) :=
        match rest with
        | 0x2b :: rest => (false, rest)
        | 0x2d :: rest => (true, rest)
        | rest => (false, rest)
      match digitsOf rest with
      | ([], _) => none
      | (digits, rest) => some (some (down, digits), rest)
    else some (none, b :: rest)
  | [] => some (none, [])

/-- A number. -/
def readNumber? (negative : Bool) (bs : List UInt8) : Option (Json × List UInt8) := do
  let (whole, rest) ← wholePart? bs
  let (fraction, rest) ← fractionPart? rest
  let (exponent, rest) ← exponentPart? rest
  pure (Literal.value { negative, whole, fraction, exponent }, rest)

/-! ## 4. Values -/

mutual

/-- A value, with blanks in front of it. -/
def readValue? : Nat → List UInt8 → Option (Json × List UInt8)
  | 0, _ => none
  | fuel + 1, bs =>
    match skipBlanks bs with
    | [] => none
    | b :: rest =>
      if b = byteOf '\x7b' then
        match skipBlanks rest with
        | 0x7d :: rest => some (object [], rest)
        | rest => do
          let (members, rest) ← readMembers? fuel rest
          -- one name that cannot be read spoils the object
          pure (match members.mapM fun (k, j) => k.map (·, j) with
            | some members => (object members, rest)
            | none => (unreadable, rest))
      else if b = byteOf '[' then
        match skipBlanks rest with
        | 0x5d :: rest => some (array [], rest)
        | rest => do
          let (items, rest) ← readItems? fuel rest
          pure (array items, rest)
      else if b = byteOf '"' then do
        let (s, rest) ← stringBody fuel (some []) rest
        pure ((s.text?.map string).getD unreadable, rest)
      else if b = byteOf '-' then readNumber? true rest
      else if isDigitByte b then readNumber? false (b :: rest)
      else if b = byteOf 'n' then (afterWord? ['u', 'l', 'l'] rest).map (null, ·)
      else if b = byteOf 't' then (afterWord? ['r', 'u', 'e'] rest).map (bool true, ·)
      else if b = byteOf 'f' then (afterWord? ['a', 'l', 's', 'e'] rest).map (bool false, ·)
      else none

/-- The items of an array up to its bracket. -/
def readItems? : Nat → List UInt8 → Option (List Json × List UInt8)
  | 0, _ => none
  | fuel + 1, bs => do
    let (j, rest) ← readValue? fuel bs
    match skipBlanks rest with
    | 0x2c :: rest => do
      let (more, rest) ← readItems? fuel rest
      pure (j :: more, rest)
    | 0x5d :: rest => pure ([j], rest)
    | _ => none

/-- The members of an object up to its brace. -/
def readMembers? : Nat → List UInt8 → Option (List (Option String × Json) × List UInt8)
  | 0, _ => none
  | fuel + 1, bs =>
    match skipBlanks bs with
    | 0x22 :: rest => do
      let (name, rest) ← stringBody fuel (some []) rest
      match skipBlanks rest with
      | 0x3a :: rest => do
        let (j, rest) ← readValue? fuel rest
        match skipBlanks rest with
        | 0x2c :: rest => do
          let (more, rest) ← readMembers? fuel rest
          pure ((name.text?, j) :: more, rest)
        | 0x7d :: rest => pure ([(name.text?, j)], rest)
        | _ => none
      | _ => none
    | _ => none

end

/-- The value of a text given by its bytes. -/
def ofBytes? (bytes : ByteArray) : Option Json :=
  let bs := bytes.data.toList
  match readValue? (2 * bs.length + 2) bs with
  | some (j, rest) => if (skipBlanks rest).isEmpty then some j else none
  | none => none

/-- The value of a text. -/
def ofText? (s : String) : Option Json := ofBytes? s.toUTF8

end Backlog.Json
