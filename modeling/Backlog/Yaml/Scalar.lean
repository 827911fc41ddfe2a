/-
# What plain scalars stand for

A scalar without quotes stands for nothing at all, a truth value, a number or itself, by the
way it is written.  Integers are decimal without leading zeros, or hexadecimal, octal or binary
behind `0x`, `0o` and `0b`; any other number has a point, an exponent or a word of its own.

* `isNullWord`, `boolWord?`: the words for nothing and for truth values;
* `unsigned?`, `integer?`: integers of any size;
* `float?`: other numbers, and every integer.
-/
import Backlog.Decimal.Reading
import Backlog.Yaml.Token.Tag

namespace Backlog.Yaml

/-! ## 1. Words -/

def isNullWord (s : String) : Bool := ["null", "Null", "NULL", "~"].contains s

def boolWord? (s : String) : Option Bool :=
  if ["true", "True", "TRUE"].contains s then some true
  else if ["false", "False", "FALSE"].contains s then some false
  else none

/-! ## 2. Integers -/

/-- The number that digits spell in a base of at most sixteen. -/
def inBase? (base : Nat) (cs : List Char) : Option Nat :=
  if cs.isEmpty then none
  else
    cs.foldlM (fun n c => (Text.hexDigit? c).bind fun d =>
      if d < base then some (n * base + d) else none) 0

/-- Digits with a zero in front of others: no number, however they are read. -/
def hasLeadingZero (cs : List Char) : Bool :=
  let (_, digits) := Decimal.signed cs
  1 < digits.length && digits.head? == some '0' && digits.all Char.isDigit

/-- The number that `cs` spells without a sign.  A decimal with leading zeros is none. -/
def magnitude? : List Char → Option Nat
  | '0' :: 'x' :: rest => inBase? 16 rest
  | '0' :: 'o' :: rest => inBase? 8 rest
  | '0' :: 'b' :: rest => inBase? 2 rest
  | cs => if hasLeadingZero cs then none else inBase? 10 cs

/-- An integer without a minus sign. -/
def unsigned? (s : String) : Option Nat :=
  match s.toList with
  | '+' :: cs => magnitude? cs
  | cs => magnitude? cs

/-- An integer. -/
def integer? (s : String) : Option Int :=
  match s.toList with
  | '-' :: cs => (magnitude? cs).map fun n => -(n : Int)
  | _ => (unsigned? s).map Int.ofNat

/-! ## 3. Other numbers -/

/-- A float.  A decimal has to be within the range of floats. -/
def float? (s : String) : Option Float :=
  let positive := match s.toList with
    | '+' :: rest => rest
    | cs => cs
  let unsigned := String.ofList positive
  if [".inf", ".Inf", ".INF"].contains unsigned then some (1.0 / 0.0)
  else if ["-.inf", "-.Inf", "-.INF"].contains s then some (-1.0 / 0.0)
  else if [".nan", ".NaN", ".NAN"].contains s then some (0.0 / 0.0)
  else if s.startsWith "+" && (unsigned.startsWith "+" || unsigned.startsWith "-") then none
  else
    match Decimal.Written.ofChars? positive with
    | some w => if w.value.isFinite then some w.value else none
    | none => none

end Backlog.Yaml
