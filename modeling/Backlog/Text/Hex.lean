/-
# Hexadecimal digits

* `Text.hexDigit?`, `Text.hexByte?`: what digits of either case stand for;
* `Text.hexDigits`: the digits of a number, in lower case.
-/

namespace Backlog.Text

/-- The value of a hexadecimal digit of either case. -/
def hexDigit? (c : Char) : Option Nat :=
  if c.isDigit then some (c.toNat - '0'.toNat)
  else if 'a' ≤ c && c ≤ 'f' then some (c.toNat - 'a'.toNat + 10)
  else if 'A' ≤ c && c ≤ 'F' then some (c.toNat - 'A'.toNat + 10)
  else none

/-- The byte that two hexadecimal digits spell. -/
def hexByte? (a b : Char) : Option UInt8 := do
  let high ← hexDigit? a
  let low ← hexDigit? b
  pure (high * 16 + low).toUInt8

/-- The last `width` hexadecimal digits of `n`. -/
def hexDigits (width n : Nat) : List Char :=
  (List.range width).map fun i => Nat.digitChar ((n >>> (4 * (width - 1 - i))) % 16)

end Backlog.Text
