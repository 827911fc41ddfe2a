/-
# Numbers in JSON texts

Reading: an integer that fits a 64-bit word is an integer; every other number is a float.  The
digits are collected in an unsigned 64-bit word.  Digits that do not fit any more are counted
before the point and dropped after it.  The word is then scaled by a power of ten in float
arithmetic, so the result may be off by a few units in the last place when the word has more
than fifteen digits or the power is large.

Writing: a float is written with the fewest digits that read back, positionally from `1e-5` to
below `1e16` and with an exponent elsewhere, which always has a sign.

* `Literal`, `Literal.value`: a number as it stands in the text, and what it stands for;
* `floatText`: the text of a finite float.
-/
import Backlog.Json
import Backlog.Decimal.Shortest

namespace Backlog.Json

/-! ## 1. Reading -/

/-- A number as it stands in a text: sign, digits before the point, digits after it if there
is one, and the exponent if there is one (its sign and its digits). -/
structure Literal where
  negative : Bool
  whole : List Nat
  fraction : Option (List Nat) := none
  exponent : Option (Bool × List Nat) := none
deriving Repr

/-- Collects digits in a word of 64 bits; returns the word and the digits that did not fit. -/
def collect (word : Nat) : List Nat → Nat × List Nat
  | [] => (word, [])
  | d :: rest =>
    if word * 10 + d < UInt64.size then collect (word * 10 + d) rest else (word, d :: rest)

/-- A power of ten up to `1e308`. -/
def tenTo (n : Nat) : Float := Float.ofScientific 1 false n

/-- `x / 10 ^ n`, in steps of at most `1e308`. -/
def divideByTens (x : Float) (n : Nat) : Float :=
  if n ≤ 308 then x / tenTo n else if x == 0.0 then x else divideByTens (x / 1e308) (n - 308)
termination_by n

/-- `word * 10 ^ e` with the given sign; `unreadable` beyond the range of floats. -/
def scaledFloat (negative : Bool) (word : Nat) (e : Int) : Json :=
  let x := Float.ofNat word
  let signed (y : Float) : Json := float (if negative then -y else y)
  if e < 0 then signed (divideByTens x (-e).toNat)
  else if e ≤ 308 then
    let y := x * tenTo e.toNat
    if y.isFinite then signed y else unreadable
  else if word = 0 then signed x else unreadable

/-- The exponent that digits spell, within a word of 31 bits; `none` if it does not fit. -/
def exponentOf (digits : List Nat) : Option Nat :=
  digits.foldlM (fun n d => if n * 10 + d < Nat.pow 2 31 then some (n * 10 + d) else none) 0

/-- The value of a number with a fraction or an exponent, or too long for an integer: the word
that holds its first digits, and the power of ten that goes with it. -/
def Literal.floatValue (l : Literal) (word : Nat) (power : Int) : Json :=
  match l.exponent with
  | none => scaledFloat l.negative word power
  | some (down, digits) =>
    match exponentOf digits with
    | some e =>
      let total :=
        if down then max (power - e) Int32.minValue.toInt
        else min (power + e) Int32.maxValue.toInt
      scaledFloat l.negative word total
    | none => if word ≠ 0 ∧ !down then unreadable else scaledFloat l.negative 0 0

/-- What a number stands for. -/
def Literal.value (l : Literal) : Json :=
  let (word, rest) := collect 0 l.whole
  match l.fraction with
  | some digits =>
    let (word', rest') := collect word digits
    l.floatValue word' ((rest.length : Int) - ((digits.length : Int) - rest'.length))
  | none =>
    if rest.isEmpty && l.exponent.isNone then
      if !l.negative then int word
      else if 0 < word ∧ word ≤ Nat.pow 2 63 then int (-word)
      else float (-(Float.ofNat word))
    else l.floatValue word rest.length

/-! ## 2. Writing -/

/-- `n` zeros. -/
def zeros (n : Nat) : String := String.ofList (List.replicate n '0')

/-- The decimal `digits * 10 ^ k`: positional if its leading digit stands between the fifth
place after the point and the sixteenth before it, else with a signed exponent. -/
def decimalText (digits : Nat) (k : Int) : String :=
  let text := toString digits
  let length := text.length
  let point := (length : Int) + k
  if 0 ≤ k ∧ point ≤ 16 then text ++ zeros k.toNat ++ ".0"
  else if 0 < point ∧ point ≤ 16 then
    (text.take point.toNat).toString ++ "." ++ (text.drop point.toNat).toString
  else if -5 < point ∧ point ≤ 0 then "0." ++ zeros (-point).toNat ++ text
  else
    let mantissa :=
      if length = 1 then text else (text.take 1).toString ++ "." ++ (text.drop 1).toString
    mantissa ++ (if 0 < point then "e+" else "e") ++ toString (point - 1)

/-- The text of a finite float. -/
def floatText (x : Float) : String :=
  let sign := if x.toBits.toNat < Nat.pow 2 63 then "" else "-"
  let v := Decimal.Dyadic.ofFloat x
  if v.mantissa = 0 then sign ++ "0.0"
  else
    let (d, k) := v.shortest
    sign ++ decimalText d k

end Backlog.Json
