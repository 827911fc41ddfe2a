/-
# The shortest decimal that reads back as a float

A finite float stands for `m * 2 ^ q`.  All reals in an interval around it round to it: half
way to each neighbour, the ends included when `m` is even.  Its shortest decimal is the one of
fewest digits in that interval, and of several the nearest to the float.

Everything is computed in natural numbers: the float is kept as a fraction, and a decimal
`d * 10 ^ k` is compared with the ends of the interval after clearing denominators.

* `Dyadic`: a positive float as `m` and `q`;
* `Dyadic.holds`: whether a decimal lies in the interval;
* `Dyadic.shortest`: the digits and the exponent of the shortest decimal.
-/

namespace Backlog.Decimal

/-- The positive number `mantissa * 2 ^ exponent`, read off a float. -/
structure Dyadic where
  mantissa : Nat
  exponent : Int
deriving DecidableEq, Repr

/-- The absolute value of a finite float. -/
def Dyadic.ofFloat (x : Float) : Dyadic :=
  let bits := x.toBits.toNat
  let fraction : Nat := bits % Nat.pow 2 52
  let biased : Nat := bits / Nat.pow 2 52 % Nat.pow 2 11
  if biased = 0 then ⟨fraction, -1074⟩ else ⟨Nat.pow 2 52 + fraction, (biased : Int) - 1075⟩

/-- `n * b ^ e` as a numerator and a denominator. -/
def power (b : Nat) (n : Nat) (e : Int) : Nat × Nat :=
  if 0 ≤ e then (n * Nat.pow b e.toNat, 1) else (n, Nat.pow b (-e).toNat)

namespace Dyadic

/-- The number plus `offset` quarters of its last place, as a fraction. -/
def quartered (v : Dyadic) (offset : Int) : Nat × Nat :=
  power 2 (4 * (v.mantissa : Int) + offset).toNat (v.exponent - 2)

/-- The lower end of the interval is half a place below, but a quarter where the float below
is twice as near. -/
def below (v : Dyadic) : Nat × Nat :=
  v.quartered (if v.mantissa = Nat.pow 2 52 ∧ -1074 < v.exponent then -1 else -2)

/-- The upper end of the interval is half a place above. -/
def above (v : Dyadic) : Nat × Nat := v.quartered 2

/-- Whether the fraction `a` is less than `b`, or equal to it if `closed`. -/
def under (closed : Bool) (a b : Nat × Nat) : Bool :=
  let l := a.1 * b.2
  let r := b.1 * a.2
  decide (l < r) || (closed && decide (l = r))

/-- Whether `d * 10 ^ k` rounds to the float. -/
def holds (v : Dyadic) (d : Nat) (k : Int) : Bool :=
  let closed := v.mantissa % 2 = 0
  let x := power 10 d k
  under closed v.below x && under closed x v.above

/-- The number of digits before the decimal point of `num / den`, which is at least `1 / den`;
negative for zeros after the point.  `guess` is a first guess, corrected step by step. -/
def pointOf (num den : Nat) : Nat → Int → Int
  | 0, guess => guess
  | fuel + 1, guess =>
    let (tn, td) := power 10 1 guess
    -- at least 10 ^ guess: one more place
    if tn * den ≤ num * td then pointOf num den fuel (guess + 1)
    else
      let (ln, ld) := power 10 1 (guess - 1)
      if num * ld < ln * den then pointOf num den fuel (guess - 1) else guess

/-- The nearer of the two decimals `d * 10 ^ k` and `(d + 1) * 10 ^ k`; of two equally near
the even one. -/
def nearer (v : Dyadic) (d : Nat) (k : Int) : Nat :=
  let (vn, vd) := v.quartered 0
  let (hn, hd) := power 10 (2 * d + 1) k
  -- compare the number with the point half way between the two
  let l := 2 * vn * hd
  let r := hn * vd
  if l < r then d else if r < l then d + 1 else if d % 2 = 0 then d else d + 1

/-- The decimal of `n` digits or fewer, tried for `n` up to 17. -/
def search (v : Dyadic) (point : Int) : Nat → Nat → Nat × Int
  | 0, _ => (0, 0)
  | fuel + 1, n =>
    let k := point - n
    let (vn, vd) := v.quartered 0
    let (un, ud) := power 10 1 k
    let d := vn * ud / (vd * un)
    match v.holds d k && decide (0 < d), v.holds (d + 1) k with
    | true, true => (v.nearer d k, k)
    | true, false => (d, k)
    | false, true => (d + 1, k)
    | false, false => search v point fuel (n + 1)

/-- Drops the zeros at the end of the digits. -/
def trimZeros : Nat → Nat → Int → Nat × Int
  | 0, d, k => (d, k)
  | fuel + 1, d, k => if d % 10 = 0 ∧ d ≠ 0 then trimZeros fuel (d / 10) (k + 1) else (d, k)

/-- The digits and the exponent of the shortest decimal of a positive number. -/
def shortest (v : Dyadic) : Nat × Int :=
  let (vn, vd) := v.quartered 0
  let bitsBefore := (vn.log2 : Int) - vd.log2
  let guess := bitsBefore * 30103 / 100000 + 1
  let (d, k) := v.search (pointOf vn vd 8 guess) 17 1
  trimZeros 20 d k

end Dyadic

end Backlog.Decimal
