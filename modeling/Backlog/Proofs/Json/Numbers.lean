/-
# Integers are read back

An integer is printed in decimal digits, perhaps behind a sign.  A reader takes all digits that it
finds, so what follows a number matters: behind a value there is nothing, or the byte that ends an
item, an array or an object (`endsValue`).

* `readNumber?_append`: whatever is read of a number is read of it wherever a value may end behind
  it;
* `wholePart?_repr`: the digits of a number are taken as they are, since none but zero starts with a
  zero (`head?_toDigits`);
* `readNumber?_repr`, `value_decimalDigits`, `value_decimalDigits_negative`: **an integer is read
  back if it fits a word**.
-/
import Backlog.Proofs.Json.Strings

namespace Backlog.Json

/-! ## 1. What follows a number -/

/-- What may stand right behind a value: nothing, or the byte that ends an item, an array or an
object. -/
def endsValue : List UInt8 → Bool
  | [] => true
  | b :: _ => b == 0x2c || b == 0x5d || b == 0x7d

theorem endsValue_cons {b : UInt8} {rest : List UInt8} (h : endsValue (b :: rest) = true) :
    b = 0x2c ∨ b = 0x5d ∨ b = 0x7d := by
  simpa [endsValue, or_assoc] using h

theorem digitsOf_append {tail : List UInt8} (htail : endsValue tail = true) (bs : List UInt8) :
    digitsOf (bs ++ tail) = ((digitsOf bs).1, (digitsOf bs).2 ++ tail) := by
  have hnone : tail.takeWhile isDigitByte = [] ∧ tail.dropWhile isDigitByte = tail := by
    cases tail with
    | nil => exact ⟨rfl, rfl⟩
    | cons b rest =>
      have hb : isDigitByte b = false := by
        rcases endsValue_cons htail with rfl | rfl | rfl <;> rfl
      simp [hb]
  induction bs with
  | nil => simp [digitsOf, hnone]
  | cons b bs ih =>
    simp only [digitsOf, List.cons_append, Prod.mk.injEq] at ih ⊢
    cases hb : isDigitByte b with
    | true => simpa [hb] using ih
    | false => simp [hb]

theorem wholePart?_append {tail : List UInt8} (htail : endsValue tail = true) {bs rest : List UInt8}
    {digits : List Nat} (h : wholePart? bs = some (digits, rest)) :
    wholePart? (bs ++ tail) = some (digits, rest ++ tail) := by
  unfold wholePart? at h ⊢
  rw [digitsOf_append htail]
  generalize digitsOf bs = parts at h ⊢
  -- no digits, a single zero, a zero too many, and the two ways not to start with a zero
  obtain ⟨_ | ⟨_ | d, _ | ⟨e, ds⟩⟩, after⟩ := parts
  all_goals cases h
  all_goals rfl

theorem fractionPart?_append {tail : List UInt8} (htail : endsValue tail = true)
    {bs rest : List UInt8} {digits : Option (List Nat)}
    (h : fractionPart? bs = some (digits, rest)) :
    fractionPart? (bs ++ tail) = some (digits, rest ++ tail) := by
  have hother : ∀ {cs : List UInt8}, cs.head? ≠ some 0x2e → fractionPart? cs = some (none, cs) := by
    intro cs hcs
    unfold fractionPart?
    split
    · exact absurd rfl hcs
    · rfl
  by_cases hpoint : bs.head? = some 0x2e
  · obtain ⟨after, rfl⟩ := List.head?_eq_some_iff.mp hpoint
    simp only [fractionPart?, List.cons_append, digitsOf_append htail] at h ⊢
    generalize digitsOf after = parts at h ⊢
    obtain ⟨_ | ⟨d, ds⟩, after⟩ := parts
    all_goals cases h
    rfl
  · have hpoint' : (bs ++ tail).head? ≠ some 0x2e := by
      cases bs with
      | cons b bs => simpa using hpoint
      | nil =>
        cases tail with
        | nil => simp
        | cons b rest => rcases endsValue_cons htail with rfl | rfl | rfl <;> simp
    rw [hother hpoint] at h
    obtain ⟨rfl, rfl⟩ := Prod.mk.inj (Option.some.inj h)
    exact hother hpoint'

/-- The sign of an exponent, and what follows it. -/
def exponentSign : List UInt8 → Bool × List UInt8
  | 0x2b :: rest => (false, rest)
  | 0x2d :: rest => (true, rest)
  | rest => (false, rest)

theorem exponentPart?_cons (b : UInt8) (rest : List UInt8) :
    exponentPart? (b :: rest) =
      if b = byteOf 'e' || b = byteOf 'E' then
        match digitsOf (exponentSign rest).2 with
        | ([], _) => none
        | (digits, after) => some (some ((exponentSign rest).1, digits), after)
      else some (none, b :: rest) := rfl

theorem exponentSign_append (b : UInt8) (bs tail : List UInt8) :
    exponentSign (b :: bs ++ tail)
      = ((exponentSign (b :: bs)).1, (exponentSign (b :: bs)).2 ++ tail) := by
  unfold exponentSign
  split
  · rename_i heq
    obtain ⟨rfl, rfl⟩ := List.cons.inj heq
    rfl
  · rename_i heq
    obtain ⟨rfl, rfl⟩ := List.cons.inj heq
    rfl
  · rename_i hplus hminus
    split
    · rename_i heq
      exact absurd (by rw [(List.cons.inj heq).1]; rfl) (hplus (_ ++ tail))
    · rename_i heq
      exact absurd (by rw [(List.cons.inj heq).1]; rfl) (hminus (_ ++ tail))
    · rfl

theorem exponentPart?_append {tail : List UInt8} (htail : endsValue tail = true)
    {bs rest : List UInt8} {exponent : Option (Bool × List Nat)}
    (h : exponentPart? bs = some (exponent, rest)) :
    exponentPart? (bs ++ tail) = some (exponent, rest ++ tail) := by
  cases bs with
  | nil =>
    obtain ⟨rfl, rfl⟩ := Prod.mk.inj (Option.some.inj h)
    cases tail with
    | nil => rfl
    | cons b rest => rcases endsValue_cons htail with rfl | rfl | rfl <;> rfl
  | cons b bs =>
    rw [List.cons_append, exponentPart?_cons] at *
    split at h
    · rename_i he
      rw [if_pos he]
      cases bs with
      | nil => simp [exponentSign, digitsOf] at h
      | cons c bs =>
        rw [exponentSign_append, digitsOf_append htail]
        generalize digitsOf (exponentSign (c :: bs)).2 = parts at h ⊢
        obtain ⟨_ | ⟨d, ds⟩, after⟩ := parts
        all_goals cases h
        rfl
    · rename_i he
      rw [if_neg he]
      obtain ⟨rfl, rfl⟩ := Prod.mk.inj (Option.some.inj h)
      rfl

/-- What is read of a number is read of it wherever a value may end behind it. -/
theorem readNumber?_append {tail : List UInt8} (htail : endsValue tail = true) {negative : Bool}
    {bs rest : List UInt8} {j : Json} (h : readNumber? negative bs = some (j, rest)) :
    readNumber? negative (bs ++ tail) = some (j, rest ++ tail) := by
  simp only [readNumber?, Option.bind_eq_bind, Option.bind_eq_some_iff, Prod.exists] at h ⊢
  obtain ⟨whole, bs₁, h₁, fraction, bs₂, h₂, exponent, bs₃, h₃, hvalue⟩ := h
  obtain ⟨rfl, rfl⟩ := Prod.mk.inj (Option.some.inj hvalue)
  exact ⟨whole, _, wholePart?_append htail h₁, fraction, _, fractionPart?_append htail h₂, exponent,
    _, exponentPart?_append htail h₃, rfl⟩

/-! ## 2. Integers -/

/-- The digits of a natural number, as numbers. -/
def decimalDigits (n : Nat) : List Nat := (Nat.toDigits 10 n).map fun c => c.toNat - 0x30

theorem digitByte_of_isDigit {c : Char} (h : c.isDigit = true) :
    ∃ b : UInt8, String.utf8EncodeChar c = [b] ∧ isDigitByte b = true ∧
      b.toNat - 0x30 = c.toNat - 0x30 := by
  have hrange : 0x30 ≤ c.val.toNat ∧ c.val.toNat ≤ 0x39 := by
    simpa [Char.isDigit, UInt32.le_iff_toNat_le] using h
  have hbyte : (UInt8.ofNat c.val.toNat).toNat = c.val.toNat := by
    rw [UInt8.toNat_ofNat']
    omega
  refine ⟨.ofNat c.val.toNat, ?_, ?_, by rw [hbyte]; rfl⟩
  · simp only [String.utf8EncodeChar, if_pos (show c.val.toNat ≤ 127 by omega)]
  · simp only [isDigitByte, UInt8.le_iff_toNat_le, hbyte, Bool.and_eq_true, decide_eq_true_eq]
    exact hrange

theorem digitsOf_digits {tail : List UInt8} (htail : endsValue tail = true) {cs : List Char}
    (h : ∀ c ∈ cs, c.isDigit = true) :
    digitsOf (cs.flatMap String.utf8EncodeChar ++ tail)
      = (cs.map fun c => c.toNat - 0x30, tail) := by
  rw [digitsOf_append htail]
  induction cs with
  | nil => rfl
  | cons c cs ih =>
    obtain ⟨b, hc, hb, hvalue⟩ := digitByte_of_isDigit (h c List.mem_cons_self)
    have hrest := ih fun d hd => h d (List.mem_cons_of_mem _ hd)
    simp only [digitsOf, Prod.mk.injEq] at hrest ⊢
    simpa [hc, hb, hvalue] using hrest

/-- Only zero is written with a zero in front. -/
theorem head?_toDigits {n : Nat} (h : 0 < n) : (Nat.toDigits 10 n).head? ≠ some '0' := by
  induction n using Nat.strongRecOn with
  | _ n ih =>
    rw [Nat.toDigits_eq_if (by decide)]
    split
    · rename_i hlt
      simpa [Nat.digitChar_eq_zero] using Nat.pos_iff_ne_zero.mp h
    · rename_i hge
      rw [List.head?_append_of_ne_nil _ (Nat.toDigits_ne_nil)]
      exact ih (n / 10) (by omega) (by omega)

theorem textBytes_repr (n : Nat) :
    textBytes n.repr = (Nat.toDigits 10 n).flatMap String.utf8EncodeChar := by
  rw [Nat.repr_eq_ofList_toDigits, textBytes_ofList]

theorem wholePart?_of_digitsOf {bs rest : List UInt8} {d : Nat} {ds : List Nat}
    (hzero : d = 0 → ds = []) (h : digitsOf bs = (d :: ds, rest)) :
    wholePart? bs = some (d :: ds, rest) := by
  rw [wholePart?, h]
  cases ds with
  | nil => cases d <;> rfl
  | cons e ds =>
    cases d with
    | zero => exact absurd (hzero rfl) (by simp)
    | succ d => rfl

theorem wholePart?_repr {tail : List UInt8} (htail : endsValue tail = true) (n : Nat) :
    wholePart? (textBytes n.repr ++ tail) = some (decimalDigits n, tail) := by
  have hisDigit : ∀ c ∈ Nat.toDigits 10 n, c.isDigit = true := fun c hc =>
    Nat.isDigit_of_mem_toDigits (by decide) (by decide) hc
  have hdigits := digitsOf_digits htail hisDigit
  rw [← textBytes_repr, ← decimalDigits] at hdigits
  cases hcs : Nat.toDigits 10 n with
  | nil => exact absurd hcs Nat.toDigits_ne_nil
  | cons c cs =>
    rw [decimalDigits, hcs, List.map_cons] at hdigits ⊢
    refine wholePart?_of_digitsOf (fun hvalue => ?_) hdigits
    have hc : c.isDigit = true := hisDigit c (hcs ▸ List.mem_cons_self)
    have hzero : c = '0' := by
      have hlow : 0x30 ≤ c.val.toNat := by
        have hrange := hc
        simp only [Char.isDigit, Bool.and_eq_true, decide_eq_true_eq] at hrange
        exact UInt32.le_iff_toNat_le.mp hrange.1
      have hval : c.val.toNat = 0x30 := le_antisymm (Nat.sub_eq_zero_iff_le.mp hvalue) hlow
      exact Char.ext (UInt32.toNat_inj.mp hval)
    -- only zero itself starts with a zero, and it has no other digit
    rcases Nat.eq_zero_or_pos n with rfl | hpos
    · rw [Nat.toDigits_zero] at hcs
      rw [← (List.cons.inj hcs).2, List.map_nil]
    · exact absurd (by rw [hcs, hzero]; rfl) (head?_toDigits hpos)

theorem le_foldl_digits (ds : List Nat) (w : Nat) : w ≤ ds.foldl (fun w d => w * 10 + d) w := by
  induction ds generalizing w with
  | nil => exact le_rfl
  | cons d ds ih => exact le_trans (by omega) (ih (w * 10 + d))

/-- Digits that fit in a word are all collected. -/
theorem collect_eq (ds : List Nat) (w : Nat)
    (h : ds.foldl (fun w d => w * 10 + d) w < UInt64.size) :
    collect w ds = (ds.foldl (fun w d => w * 10 + d) w, []) := by
  induction ds generalizing w with
  | nil => rfl
  | cons d ds ih =>
    have hfits : w * 10 + d < UInt64.size := lt_of_le_of_lt (le_foldl_digits ds _) h
    rw [collect, if_pos hfits, ih _ h]
    rfl

theorem foldl_decimalDigits (n : Nat) :
    (decimalDigits n).foldl (fun w d => w * 10 + d) 0 = n := by
  have hvalue := Nat.ofDigitChars_ten_toDigits (n := n)
  rw [Nat.ofDigitChars_eq_foldl] at hvalue
  rw [decimalDigits, List.foldl_map]
  simpa [Nat.mul_comm] using hvalue

/-- The digits of a word are read back, whatever the sign in front of them. -/
theorem readNumber?_repr {tail : List UInt8} (htail : endsValue tail = true) (negative : Bool)
    (n : Nat) :
    readNumber? negative (textBytes n.repr ++ tail)
      = some (Literal.value { negative, whole := decimalDigits n }, tail) := by
  have hfraction : fractionPart? ([] ++ tail) = some (none, [] ++ tail) :=
    fractionPart?_append htail rfl
  have hexponent : exponentPart? ([] ++ tail) = some (none, [] ++ tail) :=
    exponentPart?_append htail rfl
  rw [List.nil_append] at hfraction hexponent
  simp only [readNumber?, wholePart?_repr htail, Option.bind_eq_bind, Option.bind_some, hfraction,
    hexponent]
  rfl

theorem value_decimalDigits {n : Nat} (h : n < UInt64.size) :
    Literal.value { negative := false, whole := decimalDigits n } = int n := by
  have hcollect := collect_eq (decimalDigits n) 0 (by rwa [foldl_decimalDigits])
  rw [foldl_decimalDigits] at hcollect
  simp [Literal.value, hcollect]

theorem value_decimalDigits_negative {n : Nat} (hpos : 0 < n) (h : n ≤ Nat.pow 2 63) :
    Literal.value { negative := true, whole := decimalDigits n } = int (-n) := by
  have hsize : n < UInt64.size := lt_of_le_of_lt h (by decide)
  have hcollect := collect_eq (decimalDigits n) 0 (by rwa [foldl_decimalDigits])
  rw [foldl_decimalDigits] at hcollect
  simp only [Literal.value, hcollect]
  simp [hpos, h]

end Backlog.Json
