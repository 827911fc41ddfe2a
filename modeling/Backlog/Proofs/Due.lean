/-
# When the next attempt is due

A delay is a whole number of milliseconds, and a due time is a signed word.  The sum of the two is
held within the range of words, but before that the delay itself is read as a signed word, and that
reading wraps around.

* `toInt_asSigned`: a delay is read as what it is exactly if it is below `2 ^ 63`; from there up to
  `2 ^ 64` it is read as negative;
* `toInt_dueAfter`: the due time over the integers;
* `Backoff.nextDue_window`: **a due time is never further out than the longest backoff; it is no
  earlier than now exactly if the delay is not read as negative; and it is now plus the delay
  exactly if the delay is read as what it is**, times at the ends of the range apart;
* `Backoff.overlong_due_early`: an overlong delay is due in the past.
-/
import Backlog.Backoff
import Mathlib

namespace Backlog

/-! ## 1. Delays as signed words -/

theorem toInt_asSigned (millis : Nat) : (asSigned millis).toInt = (millis : Int).bmod (2 ^ 64) :=
  Int64.toInt_ofInt

theorem asSigned_nonneg_iff (millis : Nat) :
    0 ≤ (asSigned millis).toInt ↔ millis % 2 ^ 64 < 2 ^ 63 := by
  rw [toInt_asSigned, Int.bmod_def]
  omega

/-- A delay is read as what it is only if it is short enough. -/
theorem toInt_asSigned_eq_iff (millis : Nat) :
    (asSigned millis).toInt = millis ↔ millis < 2 ^ 63 := by
  rw [toInt_asSigned, Int.bmod_def]
  omega

theorem toInt_min (a b : Int64) : (min a b).toInt = min a.toInt b.toInt := by
  have hmin : min a b = if a ≤ b then a else b := rfl
  rw [hmin, min_def]
  by_cases h : a ≤ b
  · rw [if_pos h, if_pos (Int64.le_iff_toInt_le.mp h)]
  · rw [if_neg h, if_neg (mt Int64.le_iff_toInt_le.mpr h)]

/-! ## 2. Due times -/

/-- How far from now an attempt is due. -/
def waitWithin (delay : Nat) (maxBackoff : Int64) : Int :=
  if 0 ≤ maxBackoff.toInt then min (asSigned delay).toInt maxBackoff.toInt
  else (asSigned delay).toInt

theorem toInt_dueAfter (now : Int64) (delay : Nat) (maxBackoff : Int64) :
    (dueAfter now delay maxBackoff).toInt = clamp64 (now.toInt + waitWithin delay maxBackoff) := by
  have hzero : (0 : Int64) ≤ maxBackoff ↔ 0 ≤ maxBackoff.toInt := Int64.le_iff_toInt_le
  rw [dueAfter, toInt_addClamped, waitWithin]
  by_cases h : 0 ≤ maxBackoff.toInt
  · rw [if_pos (hzero.mpr h), if_pos h, toInt_min]
  · rw [if_neg (mt hzero.mp h), if_neg h]

/-- A time is reached by going on exactly if one goes on, or starts at the very first time. -/
theorem le_clamp64_add_iff (now : Int64) (wait : Int) :
    now.toInt ≤ clamp64 (now.toInt + wait) ↔ 0 ≤ wait ∨ now = Int64.minValue := by
  have hlo := now.minValue_le_toInt
  have hhi := now.toInt_le
  rw [← Int64.toInt_inj, clamp64, clamp]
  omega

/-- Two sums that are held within the range agree exactly if they are equal or both beyond it. -/
theorem clamp64_eq_iff_of_lt {m n : Int} (h : m < n) (hn : Int64.minValue.toInt < n) :
    clamp64 m = clamp64 n ↔ Int64.maxValue.toInt ≤ m := by
  have hrange : Int64.minValue.toInt < Int64.maxValue.toInt := by decide
  rw [clamp64, clamp64, clamp, clamp]
  omega

/-- A cap does not turn a wait into going back. -/
theorem waitWithin_nonneg_iff (delay : Nat) (maxBackoff : Int64) :
    0 ≤ waitWithin delay maxBackoff ↔ 0 ≤ (asSigned delay).toInt := by
  unfold waitWithin
  split <;> omega

/-! ## 3. The window -/

namespace Backoff

variable (p : Backoff) (now : Int64) (attempt : Int32) (maxBackoff : Int64) (draw : Float)

theorem toInt_nextDue :
    (p.nextDue now attempt maxBackoff draw).toInt
      = clamp64 (now.toInt + waitWithin (p.delay attempt draw) maxBackoff) :=
  toInt_dueAfter _ _ _

/-- **A due time lies within its window, as far as the delay is read as what it is**, for every
policy and whatever chance draws: it is never further out than the longest backoff; it is no earlier
than now exactly if the delay is not read as negative (or now is the very first time); a delay below
`2 ^ 63` is waited for up to the longest backoff; and where there is no longest backoff, only such a
delay is (unless the sum is beyond all times either way). -/
theorem nextDue_window :
    (0 ≤ maxBackoff → p.nextDue now attempt maxBackoff draw ≤ addClamped now maxBackoff) ∧
    (now ≤ p.nextDue now attempt maxBackoff draw ↔
      p.delay attempt draw % 2 ^ 64 < 2 ^ 63 ∨ now = Int64.minValue) ∧
    (0 ≤ maxBackoff → p.delay attempt draw < 2 ^ 63 →
      (p.nextDue now attempt maxBackoff draw).toInt
        = clamp64 (now.toInt + min (p.delay attempt draw : Int) maxBackoff.toInt)) ∧
    (maxBackoff < 0 →
      ((p.nextDue now attempt maxBackoff draw).toInt
          = clamp64 (now.toInt + p.delay attempt draw) ↔
        p.delay attempt draw < 2 ^ 63 ∨
          Int64.maxValue.toInt ≤ now.toInt + (asSigned (p.delay attempt draw)).toInt)) := by
  simp only [Int64.le_iff_toInt_le, Int64.lt_iff_toInt_lt, toInt_nextDue, toInt_addClamped]
  have hzero : (0 : Int64).toInt = 0 := rfl
  rw [hzero]
  refine ⟨fun hmax => ?_, ?_, fun hmax hdelay => ?_, fun hmax => ?_⟩
  · rw [waitWithin, if_pos hmax]
    exact clamp_mono (by omega)
  · rw [le_clamp64_add_iff, waitWithin_nonneg_iff, asSigned_nonneg_iff]
  · rw [waitWithin, if_pos hmax, (toInt_asSigned_eq_iff _).mpr hdelay]
  · rw [waitWithin, if_neg (not_le.mpr hmax)]
    by_cases hdelay : p.delay attempt draw < 2 ^ 63
    · rw [(toInt_asSigned_eq_iff _).mpr hdelay]
      exact ⟨fun _ => .inl hdelay, fun _ => rfl⟩
    · -- what is read of such a delay is less than the delay, which leads beyond the first half
      have hread := (asSigned (p.delay attempt draw)).toInt_lt
      have hnow := now.minValue_le_toInt
      have hmin : Int64.minValue.toInt = -2 ^ 63 := by decide
      rw [clamp64_eq_iff_of_lt (by omega) (by omega)]
      exact ⟨.inr, fun h => h.resolve_left hdelay⟩

/-- A minute is waited for if five seconds are not the most, and due times are within the window. -/
theorem nextDue_window_minute :
    (fixed 60000).delay 1 0.0 < 2 ^ 63 ∧
      (fixed 60000).nextDue 1000 1 5000 0.0 ≤ addClamped 1000 5000 ∧
      1000 ≤ (fixed 60000).nextDue 1000 1 5000 0.0 ∧
      ((fixed 60000).nextDue 1000 1 5000 0.0).toInt = 6000 ∧
      ((fixed 60000).nextDue 1000 1 (-1) 0.0).toInt = 61000 := by
  have hdelay : (fixed 60000).delay 1 0.0 = 60000 := rfl
  have hshort : (fixed 60000).delay 1 0.0 < 2 ^ 63 := by rw [hdelay]; decide
  obtain ⟨hlatest, hearliest, hcapped, -⟩ := nextDue_window (fixed 60000) 1000 1 5000 0.0
  obtain ⟨-, -, -, huncapped⟩ := nextDue_window (fixed 60000) 1000 1 (-1) 0.0
  refine ⟨hshort, hlatest (by decide), hearliest.mpr (.inl (by rw [hdelay]; decide)), ?_, ?_⟩
  · rw [hcapped (by decide) hshort, hdelay]
    decide
  · rw [(huncapped (by decide)).mpr (.inl hshort), hdelay]
    decide

/-- A policy that waits for as long as there are words is due a millisecond ago, and far too early
for what it says. -/
theorem overlong_due_early :
    (fixed 18446744073709551615).delay 1 0.0 = 18446744073709551615 ∧
      (fixed 18446744073709551615).nextDue 1000 1 (-1) 0.0 = 999 ∧
      clamp64 (1000 + 18446744073709551615) = Int64.maxValue.toInt ∧
      (fixed 18446744073709551615).nextDue 1000 1 30000 0.0 = 999 :=
  ⟨rfl, rfl, by decide, rfl⟩

end Backoff

end Backlog
