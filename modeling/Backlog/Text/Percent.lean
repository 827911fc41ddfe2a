/-
# Bytes behind percent signs

In names that travel inside other texts, a percent sign and two hexadecimal digits stand for a
byte.

* `Text.percentDecoded`: the bytes of a text.
-/
import Backlog.Text.Hex

namespace Backlog.Text

/-- The bytes of a text.  A percent sign without two digits behind it stands for itself. -/
def percentDecoded : List Char → List UInt8
  | [] => []
  | c :: rest =>
    let byte? := match c, rest with
      | '%', a :: b :: _ => hexByte? a b
      | _, _ => none
    match byte? with
    | some byte => byte :: percentDecoded (rest.drop 2)
    | none => (String.singleton c).toUTF8.data.toList ++ percentDecoded rest
termination_by cs => cs.length
decreasing_by all_goals simp only [List.length_drop, List.length_cons]; omega

end Backlog.Text
