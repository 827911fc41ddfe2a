/-
# Fixed-width sums that stop at the ends of the range

Times and attempt counters are machine words.  Where a sum of two of them would leave the
range, the scheduler keeps the nearest word instead of wrapping around, so a due time far in
the future stays in the future and an attempt counter never turns negative.

* `clamp64`, `clamp32`: the integer within the range that is nearest to a given one;
* `addClamped`: the sum of two 64-bit words, held within the range;
* `succClamped`, `predClamped`: one up and one down, held within the range.

Each comes with its value over the integers (`toInt_addClamped`, `toInt_succClamped`,
`toInt_predClamped`).
-/

namespace Backlog

/-! ## 1. Holding an integer within the range -/

/-- The integer between `lo` and `hi` that is nearest to `n`. -/
def clamp (lo hi n : Int) : Int := max lo (min hi n)

theorem clamp_of_mem {lo hi n : Int} (hlo : lo ≤ n) (hhi : n ≤ hi) : clamp lo hi n = n := by
  unfold clamp; omega

theorem le_clamp {lo hi n : Int} : lo ≤ clamp lo hi n := by
  unfold clamp; omega

theorem clamp_le {lo hi n : Int} (h : lo ≤ hi) : clamp lo hi n ≤ hi := by
  unfold clamp; omega

theorem clamp_mono {lo hi m n : Int} (h : m ≤ n) : clamp lo hi m ≤ clamp lo hi n := by
  unfold clamp; omega

/-! ## 2. 64-bit times -/

/-- The integer nearest to `n` that a 64-bit word can hold. -/
def clamp64 (n : Int) : Int := clamp Int64.minValue.toInt Int64.maxValue.toInt n

/-- The sum of two 64-bit words, held within the range. -/
def addClamped (a b : Int64) : Int64 := .ofInt (clamp64 (a.toInt + b.toInt))

theorem toInt_ofInt_clamp64 (n : Int) : (Int64.ofInt (clamp64 n)).toInt = clamp64 n :=
  Int64.toInt_ofInt_of_le le_clamp
    (Int.lt_of_le_of_lt (clamp_le (by decide)) (by decide : Int64.maxValue.toInt < _))

theorem toInt_addClamped (a b : Int64) :
    (addClamped a b).toInt = clamp64 (a.toInt + b.toInt) :=
  toInt_ofInt_clamp64 _

/-! ## 3. 32-bit counters -/

/-- The integer nearest to `n` that a 32-bit word can hold. -/
def clamp32 (n : Int) : Int := clamp Int32.minValue.toInt Int32.maxValue.toInt n

/-- One more, but never past the largest 32-bit word. -/
def succClamped (a : Int32) : Int32 := .ofInt (clamp32 (a.toInt + 1))

/-- One less, but never below the least 32-bit word. -/
def predClamped (a : Int32) : Int32 := .ofInt (clamp32 (a.toInt - 1))

theorem toInt_ofInt_clamp32 (n : Int) : (Int32.ofInt (clamp32 n)).toInt = clamp32 n :=
  Int32.toInt_ofInt_of_le le_clamp
    (Int.lt_of_le_of_lt (clamp_le (by decide)) (by decide : Int32.maxValue.toInt < _))

theorem toInt_succClamped (a : Int32) : (succClamped a).toInt = clamp32 (a.toInt + 1) :=
  toInt_ofInt_clamp32 _

theorem toInt_predClamped (a : Int32) : (predClamped a).toInt = clamp32 (a.toInt - 1) :=
  toInt_ofInt_clamp32 _

end Backlog
