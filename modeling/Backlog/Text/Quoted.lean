/-
# Texts between quotes

A text is shown between double quotes.  Quotes, backslashes and the usual control characters
are written with a backslash and a letter, other characters that do not print as themselves by
their number in hexadecimal.
-/
import Backlog.Text.Printable

namespace Backlog.Text

/-- A character as it stands between quotes. -/
def shown (c : Char) : List Char :=
  match c with
  | '"' => ['\\', '"']
  | '\\' => ['\\', '\\']
  | '\n' => ['\\', 'n']
  | '\r' => ['\\', 'r']
  | '\t' => ['\\', 't']
  | '\x00' => ['\\', '0']
  | c =>
    if isPrintable c then [c]
    else ['\\', 'u', '\x7b'] ++ Nat.toDigits 16 c.toNat ++ ['\x7d']

/-- A text between quotes. -/
def quoted (s : String) : String := "\"" ++ String.ofList (s.toList.flatMap shown) ++ "\""

end Backlog.Text
