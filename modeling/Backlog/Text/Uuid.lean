/-
# Random identifiers

A random identifier has 122 free bits.  They are written as 32 hexadecimal digits in groups of
8, 4, 4, 4 and 12: the first digit of the third group is 4, and the first digit of the fourth
group is one of 8, 9, a and b.

* `Text.uuid`: the identifier with given bits.
-/
import Backlog.Text.Hex

namespace Backlog.Text

/-- The identifier whose free bits are the last 122 bits of `n`. -/
def uuid (n : Nat) : String :=
  let groups :=
    [hexDigits 8 (n >>> 90), hexDigits 4 (n >>> 74), '4' :: hexDigits 3 (n >>> 62),
      hexDigits 4 (0x8000 + (n >>> 48) % 0x4000), hexDigits 12 n]
  "-".intercalate (groups.map String.ofList)

end Backlog.Text
