/-
# Arithmetic on floats that are read

The reader scales a word of digits in float arithmetic.  A product is checked for overflow, but a
quotient is not: it cannot overflow, because a power of ten is never small.

A finite float is a mantissa of at most 53 bits and an exponent, so bounds on exponents decide.

* `AtMost`, `AtLeast`: numbers with a bound on their exponent, or on their size;
* `atMost_roundWithAccuracy`, `exists_roundWithAccuracy`: rounding adds one to an exponent at most,
  and it keeps 53 bits of a mantissa that has them;
* `atMost_unpack_pack`, `atLeast_unpack_pack`: packing respects both bounds;
* `atMost_neg`, `atMost_mul`, `atMost_div`: what arithmetic makes of them;
* `atMost_ofNat`, `atLeast_tenTo`, `atMost_divideByTens`: words, powers of ten, and **words divided
  by powers of ten, however large.**
-/
import Backlog.Json.Number
import Mathlib

namespace Backlog

open Float.Model UnpackedFloat

/-! ## 1. Mantissas under shifts and rounding -/

theorem mantissa_shiftRight (em : ExtendedMantissa) (k : Nat) :
    (em >>> k).mantissa = em.mantissa / 2 ^ k := by
  have hrepeat : ∀ k, (k.repeat ExtendedMantissa.shiftRightOne em).mantissa
      = em.mantissa / 2 ^ k := by
    intro k
    induction k with
    | zero => simp [Nat.repeat]
    | succ k ih =>
      rw [Nat.repeat, ExtendedMantissa.shiftRightOne, ih, Nat.div_div_eq_div_mul, ← pow_succ]
  exact hrepeat k

theorem roundedMantissa_le (em : ExtendedMantissa) :
    em.mantissa ≤ em.roundedMantissa ∧ em.roundedMantissa ≤ em.mantissa + 1 := by
  obtain ⟨m, round, sticky⟩ := em
  cases round <;> cases sticky <;>
    simp only [ExtendedMantissa.roundedMantissa, ExtendedMantissa.accuracy,
      Accuracy.roundToNearestEven] <;> omega

theorem mantissa_ofMantissaAndAccuracy (m : Nat) (acc : Accuracy) :
    (ExtendedMantissa.ofMantissaAndAccuracy m acc).mantissa = m := by
  match acc with
  | .exact | .inexact .lt | .inexact .eq | .inexact .gt => rfl

/-- What is left of a mantissa after a shift to its target exponent. -/
theorem mantissa_shiftToTargetExponent (m : Nat) (e : Int) (acc : Accuracy) :
    (shiftToTargetExponent Format.binary64 m e acc).1.mantissa
      = m / 2 ^ (max (m.log2 + 1 + e - 53) (-1074) - e).toNat := by
  rw [shiftToTargetExponent, shiftToExponent, mantissa_shiftRight, mantissa_ofMantissaAndAccuracy]
  rfl

theorem exponent_shiftToTargetExponent (m : Nat) (e : Int) (acc : Accuracy) :
    (shiftToTargetExponent Format.binary64 m e acc).2
      = max e (max (m.log2 + 1 + e - 53) (-1074)) := by
  have htarget : Format.binary64.targetExponent (totalExponent m e)
      = max (m.log2 + 1 + e - 53) (-1074) := rfl
  rw [shiftToTargetExponent, shiftToExponent, htarget]
  simp only
  omega

/-! ## 2. Bounds on exponents -/

/-- A number of finite size whose exponent is at most `k`. -/
inductive AtMost (k : Int) : UnpackedFloat → Prop
  | zero (s : Sign) : AtMost k (zero s)
  | finite {s : Sign} {m : Nat} {e : Int} {hm : 0 < m} (he : e ≤ k) : AtMost k (finite s m e hm)

/-- A number, or infinity, whose size is `2 ^ (k - 1)` or more. -/
inductive AtLeast (k : Int) : UnpackedFloat → Prop
  | infinity (s : Sign) : AtLeast k (infinity s)
  | finite {s : Sign} {m : Nat} {e : Int} {hm : 0 < m} (he : k ≤ totalExponent m e) :
      AtLeast k (finite s m e hm)

instance (k : Int) : DecidablePred (AtMost k)
  | zero s => .isTrue (.zero s)
  | finite _ _ e _ => decidable_of_iff (e ≤ k) ⟨.finite, fun | .finite he => he⟩
  | infinity _ | notANumber => .isFalse nofun

instance (k : Int) : DecidablePred (AtLeast k)
  | infinity s => .isTrue (.infinity s)
  | finite _ m e _ => decidable_of_iff (k ≤ totalExponent m e) ⟨.finite, fun | .finite he => he⟩
  | zero _ | notANumber => .isFalse nofun

theorem AtMost.mono {k k' : Int} {u : UnpackedFloat} (h : AtMost k u) (hk : k ≤ k') :
    AtMost k' u := by
  cases h with
  | zero s => exact .zero s
  | finite he => exact .finite (he.trans hk)

theorem AtLeast.mono {k k' : Int} {u : UnpackedFloat} (h : AtLeast k u) (hk : k' ≤ k) :
    AtLeast k' u := by
  cases h with
  | infinity s => exact .infinity s
  | finite he => exact .finite (hk.trans he)

theorem AtMost.isFinite {k : Int} {u : UnpackedFloat} (h : AtMost k u) : u.isFinite = true := by
  cases h <;> rfl

/-! ## 3. Rounding -/

/-- After the first shift a mantissa has at most 53 bits, so that rounding it up takes one more. -/
theorem mantissa_lt_of_targetExponent (m : Nat) (e : Int) :
    m / 2 ^ (max (m.log2 + 1 + e - 53) (-1074) - e).toNat < 2 ^ 53 := by
  have hbits : m.log2 + 1 ≤ 53 + (max (m.log2 + 1 + e - 53) (-1074) - e).toNat := by omega
  refine Nat.div_lt_of_lt_mul ?_
  calc m < 2 ^ (m.log2 + 1) := Nat.lt_log2_self
    _ ≤ 2 ^ (53 + (max (m.log2 + 1 + e - 53) (-1074) - e).toNat) :=
        Nat.pow_le_pow_right (by decide) hbits
    _ = 2 ^ (max (m.log2 + 1 + e - 53) (-1074) - e).toNat * 2 ^ 53 := by rw [pow_add, mul_comm]

theorem log2_le_of_le_two_pow {m k : Nat} (h : m ≤ 2 ^ k) : m.log2 ≤ k := by
  rcases Nat.eq_zero_or_pos m with rfl | hm
  · exact Nat.zero_le k
  · exact (Nat.pow_le_pow_iff_right (by decide)).mp ((Nat.log2_self_le hm.ne').trans h)

/-- Rounding adds one to the exponent at most. -/
theorem atMost_roundWithAccuracy (s : Sign) (m : Nat) (e : Int) (acc : Accuracy) :
    AtMost (max e (max (m.log2 + 1 + e - 53) (-1074)) + 1)
      (roundWithAccuracy Format.binary64 s m e acc) := by
  have hmantissa := mantissa_shiftToTargetExponent m e acc
  have hexponent := exponent_shiftToTargetExponent m e acc
  rw [roundWithAccuracy]
  generalize shiftToTargetExponent Format.binary64 m e acc = first at *
  have hrounded : first.1.roundedMantissa.log2 ≤ 53 := by
    have hlt := mantissa_lt_of_targetExponent m e
    have hle := (roundedMantissa_le first.1).2
    exact log2_le_of_le_two_pow (by omega)
  have hfinal := exponent_shiftToTargetExponent first.1.roundedMantissa first.2 .exact
  simp only
  generalize shiftToTargetExponent _ first.1.roundedMantissa first.2 .exact = final at *
  split
  · exact .zero s
  · exact .finite (by omega)

/-- A mantissa that was rounded to `2 ^ 53` loses its last bit, any other one is left alone. -/
theorem log2_mantissa_shiftToTargetExponent {m : Nat} {e : Int} (hlow : 2 ^ 52 ≤ m)
    (hhigh : m ≤ 2 ^ 53) (he : -1074 ≤ e) :
    (shiftToTargetExponent Format.binary64 m e .exact).1.mantissa.log2 = 52 := by
  rw [mantissa_shiftToTargetExponent]
  rcases Nat.lt_or_eq_of_le hhigh with hlt | rfl
  · have hbits : m.log2 = 52 := (Nat.log2_eq_iff (by omega)).mpr ⟨hlow, hlt⟩
    have hnone : (max (m.log2 + 1 + e - 53) (-1074) - e).toNat = 0 := by omega
    rw [hnone, pow_zero, Nat.div_one, hbits]
  · have hbits : (2 ^ 53 : Nat).log2 = 53 := Nat.log2_two_pow
    have hone : (max ((2 ^ 53 : Nat).log2 + 1 + e - 53) (-1074) - e).toNat = 1 := by omega
    rw [hone]
    exact Nat.log2_two_pow (n := 52)

/-- A mantissa of 53 bits or more becomes one of 53 bits, unless the size is subnormal. -/
theorem exists_roundWithAccuracy {m : Nat} {e : Int} (hm : 52 ≤ m.log2)
    (he : -1074 ≤ m.log2 + 1 + e - 53) (s : Sign) (acc : Accuracy) :
    ∃ m' e' h, roundWithAccuracy Format.binary64 s m e acc = finite s m' e' h ∧
      m'.log2 = 52 ∧ m.log2 + 1 + e - 53 ≤ e' := by
  have hmantissa := mantissa_shiftToTargetExponent m e acc
  have hexponent := exponent_shiftToTargetExponent m e acc
  have hcut : (max (m.log2 + 1 + e - 53) (-1074) - e).toNat = m.log2 - 52 := by omega
  have hhigh := mantissa_lt_of_targetExponent m e
  rw [hcut] at hmantissa hhigh
  have hlow : 2 ^ 52 ≤ m / 2 ^ (m.log2 - 52) := by
    refine (Nat.le_div_iff_mul_le (Nat.two_pow_pos _)).mpr ?_
    rw [← pow_add, Nat.add_sub_cancel' hm]
    exact Nat.log2_self_le fun h0 => by simp [h0] at hm
  rw [roundWithAccuracy]
  generalize shiftToTargetExponent Format.binary64 m e acc = first at *
  obtain ⟨hge, hle⟩ := roundedMantissa_le first.1
  have hbits := log2_mantissa_shiftToTargetExponent (m := first.1.roundedMantissa) (e := first.2)
    (by omega) (by omega) (by omega)
  have hfinal := exponent_shiftToTargetExponent first.1.roundedMantissa first.2 .exact
  have hne : (shiftToTargetExponent Format.binary64 first.1.roundedMantissa first.2
      .exact).1.mantissa ≠ 0 := fun h0 => by simp [h0] at hbits
  simp only [dif_neg hne]
  exact ⟨_, _, Nat.pos_of_ne_zero hne, rfl, hbits, by omega⟩

/-! ## 4. Packing -/

theorem bias_binary64 : (Format.binary64.exponentBias : Int)
    + Format.binary64.mantissaBitsWithoutImplicit = 1075 := by decide

theorem unpack_packedInfinity (s : Sign) : UnpackedFloat.unpack Format.binary64
    (packedInfinity Format.binary64 s) = infinity (Sign.ofBitVec s.toBitVec) := by
  simp [packedInfinity, UnpackedFloat.unpack]

/-- Unless all bits of the exponent are set, they say how large it is; there is a least one. -/
theorem atMost_unpack {bits : BitVec Format.binary64.numBits}
    (h : unpackExponent bits ≠ -(BitVec.ofNat Format.binary64.exponentBits 1)) :
    AtMost (max ((unpackExponent bits).toNat - 1075) (-1074))
      (UnpackedFloat.unpack Format.binary64 bits) := by
  rw [UnpackedFloat.unpack, if_neg h]
  simp only
  split
  next hzero =>
    split
    · exact .zero _
    · refine .finite ?_
      rw [hzero]
      decide
  · exact .finite (le_max_left _ _)

/-- There are 52 bits for the mantissa, and the one in front of them. -/
theorem mantissa_lt_of_unpack {bits : BitVec Format.binary64.numBits} {s : Sign} {m : Nat}
    {e : Int} {hm : 0 < m}
    (h : UnpackedFloat.unpack Format.binary64 bits = finite s m e hm) : m < 2 ^ 53 := by
  rw [UnpackedFloat.unpack] at h
  simp only at h
  split at h
  · split at h <;> cases h
  · split at h
    · split at h
      · cases h
      · cases h
        exact lt_trans (BitVec.isLt _) (by decide)
    · cases h
      exact lt_of_lt_of_le (BitVec.isLt _) (by decide)

/-- The bits that hold an exponent which is not too large. -/
theorem toNat_biasedExponent {e : Int} (hfits : e ≤ 971) :
    (BitVec.ofNat Format.binary64.exponentBits (e + 1075).toNat).toNat = (e + 1075).toNat ∧
      BitVec.ofNat Format.binary64.exponentBits (e + 1075).toNat
        ≠ -(BitVec.ofNat Format.binary64.exponentBits 1) := by
  have hbits : (BitVec.ofNat Format.binary64.exponentBits (e + 1075).toNat).toNat
      = (e + 1075).toNat := by
    rw [BitVec.toNat_ofNat]
    exact Nat.mod_eq_of_lt (show _ < 2 ^ 11 by omega)
  refine ⟨hbits, fun hall => ?_⟩
  have hmax : (-(BitVec.ofNat Format.binary64.exponentBits 1)).toNat = 2047 := rfl
  rw [hall, hmax] at hbits
  omega

theorem atMost_unpack_pack {k : Int} {u : UnpackedFloat} (h : AtMost k u) (hlow : -1074 ≤ k)
    (hhigh : k ≤ 971) : AtMost k (Float.Model.pack u).unpack := by
  change AtMost k (UnpackedFloat.unpack Format.binary64 (UnpackedFloat.pack Format.binary64 u))
  cases h with
  | zero s =>
    rw [UnpackedFloat.pack, unpack_packedZero]
    exact .zero s
  | @finite s m e hm he =>
    obtain ⟨hbits, hne⟩ := toNat_biasedExponent (le_trans he hhigh)
    have hfits : (e + 1075).toNat + 1 < 2 ^ Format.binary64.exponentBits := by
      show _ < 2 ^ 11
      omega
    rw [UnpackedFloat.pack.eq_4, add_assoc, bias_binary64, if_neg (Nat.not_le_of_lt hfits)]
    split
    · refine (atMost_unpack ?_).mono ?_
      · rwa [unpackExponent_packComponents]
      · rw [unpackExponent_packComponents, hbits]
        omega
    · refine (atMost_unpack ?_).mono ?_
      · rw [unpackExponent_packComponents]
        decide
      · rw [unpackExponent_packComponents]
        show max (((0 : Nat) : Int) - 1075) (-1074) ≤ k
        omega

/-- A mantissa of 53 bits stays one, unless the exponent is too large. -/
theorem atLeast_unpack_pack {s : Sign} {m : Nat} {e : Int} {hm : 0 < m} (hbits : m.log2 = 52)
    (he : -1074 ≤ e) : AtLeast (53 + e) (Float.Model.pack (finite s m e hm)).unpack := by
  change AtLeast _ (UnpackedFloat.unpack _ (UnpackedFloat.pack _ (finite s m e hm)))
  have hnormal : m.log2 + 1 = Format.binary64.mantissaBits := by rw [hbits]; rfl
  rw [UnpackedFloat.pack.eq_4, add_assoc, bias_binary64, if_pos hnormal]
  split
  · rw [unpack_packedInfinity]
    exact .infinity _
  next hfits =>
    have hfits' : e ≤ 971 := by
      have : ¬2 ^ 11 ≤ (e + 1075).toNat + 1 := hfits
      omega
    obtain ⟨hexponent, hne⟩ := toNat_biasedExponent hfits'
    have hzero : BitVec.ofNat Format.binary64.exponentBits (e + 1075).toNat
        ≠ BitVec.ofNat Format.binary64.exponentBits 0 := by
      intro h0
      rw [h0] at hexponent
      have : (0 : Nat) = (e + 1075).toNat := hexponent
      omega
    simp only [UnpackedFloat.unpack, unpackExponent_packComponents,
      unpackMantissa_packComponents, if_neg hne, if_neg hzero]
    set mantissa := (1#1 ++ BitVec.ofNat Format.binary64.mantissaBitsWithoutImplicit m).toNat
    have hmantissa : 2 ^ 52 ≤ mantissa := by
      refine le_trans ?_ (le_of_le_of_eq Nat.left_le_or (BitVec.toNat_append _ _).symm)
      decide
    have hlog : 52 ≤ mantissa.log2 := (Nat.le_log2 (by omega)).mpr hmantissa
    refine .finite (?_ : 53 + e ≤ mantissa.log2 + 1 + (_ - (_ + _)))
    rw [bias_binary64, hexponent]
    omega

/-! ## 5. Arithmetic -/

theorem isFinite_of_atMost {k : Int} {x : Float} (h : AtMost k x.toModel.unpack) :
    x.isFinite = true := h.isFinite

theorem atMost_of_isFinite {x : Float} (h : x.isFinite = true) : AtMost 971 x.toModel.unpack := by
  set bits : BitVec Format.binary64.numBits := x.toModel.toBits.toBitVec
  by_cases hall : unpackExponent bits = -(BitVec.ofNat Format.binary64.exponentBits 1)
  · change (UnpackedFloat.unpack Format.binary64 bits).isFinite = true at h
    rw [UnpackedFloat.unpack, if_pos hall] at h
    split at h <;> cases h
  · refine (atMost_unpack hall).mono ?_
    have hlt := (unpackExponent bits).isLt
    have hne : (unpackExponent bits).toNat ≠ 2047 := fun h => hall (BitVec.eq_of_toNat_eq h)
    have hlt' : (unpackExponent bits).toNat < 2 ^ 11 := hlt
    omega

theorem atMost_neg {k : Int} {x : Float} (h : AtMost k x.toModel.unpack) (hlow : -1074 ≤ k)
    (hhigh : k ≤ 971) : AtMost k (-x).toModel.unpack := by
  refine atMost_unpack_pack ?_ hlow hhigh
  generalize x.toModel.unpack = u at h
  cases h with
  | zero s => exact .zero (-s)
  | finite he => exact .finite he

theorem isFinite_neg {x : Float} (h : x.isFinite = true) : (-x).isFinite = true :=
  isFinite_of_atMost (atMost_neg (atMost_of_isFinite h) (by decide) (by decide))

theorem atMost_mul {k l : Int} {x y : Float} (hx : AtMost k x.toModel.unpack)
    (hy : AtMost l y.toModel.unpack) (hlow : -1127 ≤ k + l) (hhigh : k + l ≤ 917) :
    AtMost (k + l + 54) (x * y).toModel.unpack := by
  refine atMost_unpack_pack ?_ (by omega) (by omega)
  generalize hu : x.toModel.unpack = u at *
  generalize hv : y.toModel.unpack = v at *
  cases hx with
  | zero s => cases hy <;> exact .zero _
  | @finite s₁ m₁ e₁ _ he₁ =>
    cases hy with
    | zero s => exact .zero _
    | @finite s₂ m₂ e₂ _ he₂ =>
    have hm₁ := mantissa_lt_of_unpack hu
    have hm₂ := mantissa_lt_of_unpack hv
    have hm : (m₁ * m₂).log2 < 106 := by
      refine (Nat.log2_lt (by positivity)).mpr ?_
      exact (Nat.mul_lt_mul_of_lt_of_lt hm₁ hm₂).trans_eq (by decide)
    refine (atMost_roundWithAccuracy (s₁ * s₂) (m₁ * m₂) (e₁ + e₂) .exact).mono ?_
    omega

/-- The quotient of two mantissas has about the size of the quotient, as far as it is not cut. -/
theorem divCore_le (m₁ : Nat) {m₂ : Nat} (e₁ e₂ : Int) (h₂ : 0 < m₂) :
    let q := divCore Format.binary64 m₁ e₁ m₂ e₂
    let t := totalExponent m₁ e₁ - totalExponent m₂ e₂
    q.2.1 ≤ max (t - 53) (-1074) ∧ q.1.log2 + 1 + q.2.1 ≤ max (t + 1) (-1073) := by
  intro q t
  have ht : t = m₁.log2 + 1 + e₁ - (m₂.log2 + 1 + e₂) := rfl
  have hexponent : q.2.1 = min (e₁ - e₂) (max (t - 53) (-1074)) := rfl
  have hmantissa : q.1 = m₁ <<< (e₁ - e₂ - q.2.1).toNat / m₂ := rfl
  refine ⟨by omega, ?_⟩
  set shift := (e₁ - e₂ - q.2.1).toNat
  rcases Nat.eq_zero_or_pos q.1 with hzero | hpos
  · rw [hzero, Nat.log2_zero]
    omega
  · have hprod : 2 ^ (q.1.log2 + m₂.log2) < 2 ^ (m₁.log2 + 1 + shift) :=
      calc 2 ^ (q.1.log2 + m₂.log2) = 2 ^ q.1.log2 * 2 ^ m₂.log2 := pow_add ..
        _ ≤ q.1 * m₂ :=
            Nat.mul_le_mul (Nat.log2_self_le hpos.ne') (Nat.log2_self_le h₂.ne')
        _ ≤ m₁ * 2 ^ shift := by
            rw [hmantissa, Nat.shiftLeft_eq]
            exact Nat.div_mul_le_self _ _
        _ < 2 ^ (m₁.log2 + 1) * 2 ^ shift :=
            Nat.mul_lt_mul_of_pos_right Nat.lt_log2_self (Nat.two_pow_pos _)
        _ = 2 ^ (m₁.log2 + 1 + shift) := (pow_add ..).symm
    have hsum := (Nat.pow_lt_pow_iff_right (by decide)).mp hprod
    omega

theorem atMost_div {j k l : Int} {x y : Float} (hx : AtMost k x.toModel.unpack)
    (hy : AtLeast j y.toModel.unpack) (hl : k + 2 - j ≤ l) (hlow : -1073 ≤ l) (hhigh : l ≤ 971) :
    AtMost l (x / y).toModel.unpack := by
  refine atMost_unpack_pack ?_ (by omega) (by omega)
  generalize hu : x.toModel.unpack = u at *
  generalize y.toModel.unpack = v at *
  cases hx with
  | zero s => cases hy <;> exact .zero _
  | @finite s₁ m₁ e₁ h₁ he₁ =>
    cases hy with
    | infinity s => exact .zero _
    | @finite s₂ m₂ e₂ h₂ ht₂ =>
    have hm₁ := mantissa_lt_of_unpack hu
    have hlog : m₁.log2 < 53 := (Nat.log2_lt h₁.ne').mpr hm₁
    have ht₁ : totalExponent m₁ e₁ = m₁.log2 + 1 + e₁ := rfl
    obtain ⟨hexponent, htotal⟩ := divCore_le m₁ e₁ e₂ h₂
    change AtMost l (roundWithAccuracy _ _ (divCore Format.binary64 m₁ e₁ m₂ e₂).1
      (divCore Format.binary64 m₁ e₁ m₂ e₂).2.1 (divCore Format.binary64 m₁ e₁ m₂ e₂).2.2)
    generalize divCore Format.binary64 m₁ e₁ m₂ e₂ = q at *
    refine (atMost_roundWithAccuracy ..).mono ?_
    omega

/-! ## 6. Words and powers of ten -/

/-- Any mantissa below `2 ^ l`, cut to its last bits. -/
theorem atMost_roundWithAccuracy_of_lt {s : Sign} {m l : Nat} {e k : Int} (hm : m < 2 ^ l)
    (hfew : e < k) (hsize : l + e - 53 < k) (hlow : -1074 < k) (acc : Accuracy) :
    AtMost k (roundWithAccuracy Format.binary64 s m e acc) := by
  refine (atMost_roundWithAccuracy s m e acc).mono ?_
  have hlog : m.log2 + 1 ≤ l ∨ m.log2 = 0 := by
    rcases Nat.eq_zero_or_pos m with rfl | hpos
    · exact .inr Nat.log2_zero
    · exact .inl ((Nat.log2_lt hpos.ne').mpr hm)
  omega

/-- A decimal without places after the point is scaled up before it is rounded. -/
theorem ofScientific_ofNat {m n : Nat} (hm : m ≠ 0) (hn : n ≤ 2048) :
    UnpackedFloat.ofScientific Format.binary64 m (Int.ofNat n)
      = roundWithAccuracy Format.binary64 .positive (m <<< 53 * 10 ^ n) (-53) .exact := by
  have hfits : ¬Int.ofNat n > 2 ^ Format.binary64.exponentBits := by
    show ¬(n : Int) > 2 ^ 11
    omega
  have hpos : ¬Int.ofNat n < -(2 ^ Format.binary64.exponentBits + (m.log2 : Int)) := by
    show ¬(n : Int) < -(2 ^ 11 + (m.log2 : Int))
    omega
  have hnat : 0 ≤ Int.ofNat n := Int.natCast_nonneg n
  rw [UnpackedFloat.ofScientific, dif_neg hm, if_neg hfits, if_neg hpos, if_pos hnat]
  rfl

/-- A word is first scaled up to 53 bits if it has less, and then rounded. -/
theorem atMost_ofUInt64 (w : UInt64) : AtMost 12 w.toFloat.toModel.unpack := by
  refine atMost_unpack_pack ?_ (by decide) (by decide)
  show AtMost 12 (normalize Format.binary64 w.toNat 0 .positive)
  have hw := w.toNat_lt
  unfold UnpackedFloat.normalize
  split
  next hneg =>
    have := Int.compare_eq_lt.mp hneg
    omega
  · exact .zero _
  next hpos =>
    have hne : 0 < w.toNat := by
      have := Int.compare_eq_gt.mp hpos
      omega
    have hbits : w.toNat.log2 < 64 := (Nat.log2_lt hne.ne').mpr hw
    have htarget : Format.binary64.targetExponent (totalExponent w.toNat 0)
        = max ((w.toNat.log2 : Int) + 1 + 0 - 53) (-1074) := rfl
    show AtMost 12 (roundWithAccuracy Format.binary64 .positive
      (w.toNat <<< ((0 : Int) - Format.binary64.targetExponent (totalExponent w.toNat 0)).toNat)
      ((0 : Int) - (0 - Format.binary64.targetExponent (totalExponent w.toNat 0)).toNat) .exact)
    rw [htarget]
    set shift := (0 - max ((w.toNat.log2 : Int) + 1 + 0 - 53) (-1074)).toNat
    refine atMost_roundWithAccuracy_of_lt (l := 64 + shift) ?_ (by omega) (by omega) (by omega) _
    rw [Nat.shiftLeft_eq, pow_add]
    exact Nat.mul_lt_mul_of_pos_right hw (Nat.two_pow_pos _)

namespace Json

/-- The word of digits as a float. -/
theorem atMost_ofNat {n : Nat} (hn : n < UInt64.size) :
    AtMost 14 (Float.ofNat n).toModel.unpack := by
  show AtMost 14 (Float.ofScientific n false 0).toModel.unpack
  rw [Float.ofScientific]
  split
  · have hone : AtMost (-52) Float.exactlyRepresentablePowersOfTen[0].toModel.unpack := by decide
    exact atMost_mul (atMost_ofUInt64 n.toUInt64) hone (by decide) (by decide)
  next hslow =>
    have hne : n ≠ 0 := by
      rintro rfl
      exact hslow (by decide)
    refine atMost_unpack_pack ?_ (by decide) (by decide)
    rw [if_neg (by decide), ofScientific_ofNat hne (by decide)]
    refine atMost_roundWithAccuracy_of_lt (l := 64 + 53) ?_ (by decide) (by decide) (by decide) _
    rw [Nat.shiftLeft_eq, pow_zero, mul_one, pow_add]
    exact Nat.mul_lt_mul_of_pos_right hn (Nat.two_pow_pos _)

/-- A power of ten is not made smaller than it is by more than its last bits. -/
theorem atLeast_tenTo {n : Nat} (hn : n ≤ 308) :
    AtLeast ((10 ^ n).log2 + 1) (tenTo n).toModel.unpack := by
  rcases Nat.lt_or_ge n 23 with hfew | hmany
  · -- the first powers are constants, and all others are computed
    have htable : ∀ n < 23, AtLeast ((10 ^ n).log2 + 1) (tenTo n).toModel.unpack := by decide
    exact htable n hfew
  · rw [tenTo, Float.ofScientific, dif_neg (by omega)]
    have hmantissa : 2 ^ (53 + (10 ^ n).log2) ≤ (1 <<< 53) * 10 ^ n := by
      rw [pow_add]
      exact Nat.mul_le_mul (by decide) (Nat.log2_self_le (by positivity))
    have hlog := (Nat.le_log2 (by simp)).mpr hmantissa
    obtain ⟨m, e, hm, hround, hbits, he⟩ := exists_roundWithAccuracy (m := (1 <<< 53) * 10 ^ n)
      (e := -53) (by omega) (by omega) .positive .exact
    show AtLeast _ (Float.Model.pack (UnpackedFloat.ofScientific _ 1 (Int.ofNat n))).unpack
    rw [ofScientific_ofNat (by decide) (by omega), hround]
    exact (atLeast_unpack_pack hbits (by omega)).mono (by omega)

theorem two_le_tenTo {n : Nat} (hpos : 0 < n) (hn : n ≤ 308) :
    AtLeast 2 (tenTo n).toModel.unpack := by
  refine (atLeast_tenTo hn).mono ?_
  have hlog : 1 ≤ (10 ^ n).log2 :=
    (Nat.le_log2 (by positivity)).mpr
      (le_trans (by decide) (Nat.pow_le_pow_right (by decide) hpos : 10 ^ 1 ≤ 10 ^ n))
  omega

/-- However many divisions there are, the exponent grows by one at most: a division by `1e308` does
not raise it, so that only the last one may. -/
theorem atMost_divideByTens {k : Int} (hlow : -1073 ≤ k) (hhigh : k ≤ 970) (x : Float) (n : Nat)
    (hx : AtMost k x.toModel.unpack) : AtMost (k + 1) (divideByTens x n).toModel.unpack := by
  induction x, n using divideByTens.induct with
  | case1 x n hn =>
    rw [divideByTens, if_pos hn]
    exact atMost_div hx (atLeast_tenTo hn) (by omega) (by omega) (by omega)
  | case2 x n hn hzero =>
    rw [divideByTens, if_neg hn, if_pos hzero]
    exact hx.mono (by omega)
  | case3 x n hn hzero ih =>
    rw [divideByTens, if_neg hn, if_neg hzero]
    have hliteral : (1e308 : Float) = tenTo 308 := rfl
    rw [hliteral] at ih ⊢
    have hbig := two_le_tenTo (n := 308) (by decide) le_rfl
    have hstep : AtMost k (x / tenTo 308).toModel.unpack :=
      atMost_div hx hbig (by omega) (by omega) (by omega)
    exact ih hstep

end Json

end Backlog
