/-
# Blank texts

A character is blank if it is white space in any script: besides the space and the ASCII
controls these are the next-line character, the no-break space, the Ogham space mark, the
spaces from U+2000 to U+200A, the separators of lines and paragraphs, and three more.

* `Text.isBlankChar`, `Text.isBlank`: characters, and texts of nothing else.
-/

namespace Backlog.Text

def isBlankChar (c : Char) : Bool :=
  let n := c.toNat
  (0x09 ≤ n && n ≤ 0x0d) || n == 0x20 || n == 0x85 || n == 0xa0 || n == 0x1680 ||
    (0x2000 ≤ n && n ≤ 0x200a) || n == 0x2028 || n == 0x2029 || n == 0x202f || n == 0x205f ||
    n == 0x3000

/-- Every character that the ASCII test takes for white space is blank. -/
theorem isBlankChar_of_isWhitespace {c : Char} (h : c.isWhitespace = true) :
    isBlankChar c = true := by
  simp only [Char.isWhitespace, Bool.or_eq_true, decide_eq_true_eq] at h
  rcases h with ((rfl | rfl) | rfl) | rfl <;> decide

/-- Whether a text holds nothing but blanks. -/
def isBlank (s : String) : Bool := s.toList.all isBlankChar

end Backlog.Text
