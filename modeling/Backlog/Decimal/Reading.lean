/-
# Reading a decimal to the nearest float

A decimal has digits, perhaps with a point among them, and perhaps an exponent.  It stands for
the float nearest to it.

* `Written`, `Written.ofChars?`: a decimal as it stands in a text;
* `Written.value`: the float nearest to it.
-/

namespace Backlog.Decimal

/-- A decimal as it stands in a text: the sign, the digits before and after the point, and the
exponent. -/
structure Written where
  negative : Bool
  whole : List Char
  fraction : List Char
  exponent : Int

/-- The number that digits spell. -/
def ofDigits (digits : List Char) : Nat :=
  digits.foldl (fun n d => n * 10 + (d.toNat - '0'.toNat)) 0

/-- The sign in front, if there is one: whether it is negative, and what follows. -/
def signed : List Char → Bool × List Char
  | '-' :: rest => (true, rest)
  | '+' :: rest => (false, rest)
  | cs => (false, cs)

/-- The digits in front and what follows. -/
def digits (cs : List Char) : List Char × List Char :=
  (cs.takeWhile Char.isDigit, cs.dropWhile Char.isDigit)

/-- An exponent that makes up the whole rest. -/
def exponent? : List Char → Option Int
  | [] => some 0
  | e :: rest =>
    if e == 'e' || e == 'E' then
      let (down, rest) := signed rest
      match digits rest with
      | (d :: ds, []) => some ((if down then -1 else 1) * ofDigits (d :: ds))
      | _ => none
    else none

/-- A whole text as a decimal.  There is at least one digit besides the exponent, on either
side of the point. -/
def Written.ofChars? (cs : List Char) : Option Written := do
  let (negative, rest) := signed cs
  let (whole, rest) := digits rest
  let (fraction, rest) := match rest with
    | '.' :: rest => digits rest
    | rest => ([], rest)
  if whole.isEmpty && fraction.isEmpty then none
  else pure { negative, whole, fraction, exponent := ← exponent? rest }

/-- `n * 10 ^ e`, rounded to the nearest float.  Where `n` has so many digits that the result
is beyond all floats, or below them, the power is not computed. -/
def nearest (n : Nat) (e : Int) : Float :=
  let places := (Nat.toDigits 10 n).length + e
  if n = 0 || places < -400 then 0.0
  else if 400 < places then 1.0 / 0.0
  else if 0 ≤ e then .ofScientific n false e.toNat
  else .ofScientific n true (-e).toNat

/-- The float nearest to a decimal, infinite beyond the range of floats. -/
def Written.value (w : Written) : Float :=
  let x := nearest (ofDigits (w.whole ++ w.fraction)) (w.exponent - w.fraction.length)
  if w.negative then -x else x

end Backlog.Decimal
