/-
# What is printed is read back

A JSON value is printed without blanks and read by a strict grammar.  Reading what was printed gives
the value back, with two provisos: an integer has to fit a 64-bit word, and a float has to be one
whose own text is read back, since the reader scales digits in float arithmetic and may miss the
last place.

* `ReadInPlace`: the text of a value is read as this value wherever a value may stand, and the
  reader stops at what follows or at blanks in front of it.  This is what is carried from the parts
  of a value to the whole;
* `readValue?_eq_float`: a float is read where a number starts, so that what is read of its text
  alone is read of it in place too (`ReadsBack.inPlace`);
* `Printable`, `Printable.readsBack`: **values whose floats are read back are read back.**
-/
import Backlog.Proofs.Json.Numbers

namespace Backlog.Json

/-! ## 1. Blanks and first bytes -/

theorem skipBlanks_of_not_blank {b : UInt8} (h : isBlankByte b = false) (rest : List UInt8) :
    skipBlanks (b :: rest) = b :: rest := by
  simp [skipBlanks, h]

theorem skipBlanks_of_endsValue {tail : List UInt8} (h : endsValue tail = true) :
    skipBlanks tail = tail := by
  cases tail with
  | nil => rfl
  | cons b rest => rcases endsValue_cons h with rfl | rfl | rfl <;> rfl

theorem skipBlanks_skipBlanks (bs : List UInt8) : skipBlanks (skipBlanks bs) = skipBlanks bs :=
  List.dropWhile_idempotent _ _

theorem readValue?_skipBlanks (fuel : Nat) (bs : List UInt8) :
    readValue? fuel (skipBlanks bs) = readValue? fuel bs := by
  cases fuel with
  | zero => rfl
  | succ fuel => simp only [readValue?, skipBlanks_skipBlanks]

theorem readItems?_skipBlanks (fuel : Nat) (bs : List UInt8) :
    readItems? fuel (skipBlanks bs) = readItems? fuel bs := by
  cases fuel with
  | zero => rfl
  | succ fuel => simp only [readItems?, readValue?_skipBlanks]

theorem readValue?_null (fuel : Nat) (rest : List UInt8) :
    readValue? (fuel + 1) (textBytes "null" ++ rest) = some (null, rest) := by
  have hbytes : textBytes "null" = [0x6e, 0x75, 0x6c, 0x6c] := by decide
  rw [hbytes]
  rfl

theorem readValue?_bool (fuel : Nat) (b : Bool) (rest : List UInt8) :
    readValue? (fuel + 1) (textBytes (bool b).compact ++ rest) = some (bool b, rest) := by
  cases b with
  | true =>
    have hbytes : textBytes (bool true).compact = [0x74, 0x72, 0x75, 0x65] := by decide
    rw [hbytes]
    rfl
  | false =>
    have hbytes : textBytes (bool false).compact = [0x66, 0x61, 0x6c, 0x73, 0x65] := by decide
    rw [hbytes]
    rfl

theorem readValue?_quote (fuel : Nat) (rest : List UInt8) :
    readValue? (fuel + 1) (0x22 :: rest) =
      (stringBody fuel (some []) rest).bind fun (s, rest) =>
        some ((s.text?.map string).getD unreadable, rest) := rfl

theorem readValue?_minus (fuel : Nat) (rest : List UInt8) :
    readValue? (fuel + 1) (0x2d :: rest) = readNumber? true rest := rfl

theorem readValue?_digit (fuel : Nat) {b : UInt8} (h : isDigitByte b = true) (rest : List UInt8) :
    readValue? (fuel + 1) (b :: rest) = readNumber? false (b :: rest) := by
  have hne : ∀ c, isDigitByte c = false → b ≠ c := by
    rintro c hc rfl
    exact absurd (h.symm.trans hc) (by decide)
  have hblank : isBlankByte b = false := by
    simp [isBlankByte, hne 0x20 rfl, hne 0x0a rfl, hne 0x0d rfl, hne 0x09 rfl]
  simp only [readValue?, skipBlanks_of_not_blank hblank, if_neg (hne (byteOf '\x7b') rfl),
    if_neg (hne (byteOf '[') rfl), if_neg (hne (byteOf '"') rfl), if_neg (hne (byteOf '-') rfl), h,
    if_true]

theorem readValue?_bracket (fuel : Nat) (rest : List UInt8) :
    readValue? (fuel + 1) (0x5b :: rest) =
      match skipBlanks rest with
      | 0x5d :: rest => some (array [], rest)
      | rest => (readItems? fuel rest).bind fun (items, rest) => some (array items, rest) := rfl

theorem readValue?_brace_quote (fuel : Nat) (rest : List UInt8) :
    readValue? (fuel + 1) (0x7b :: 0x22 :: rest) =
      (readMembers? fuel (0x22 :: rest)).bind fun (members, rest) =>
        some (match members.mapM fun (k, j) => k.map (·, j) with
          | some members => (object members, rest)
          | none => (unreadable, rest)) := rfl

/-- The reader takes a number only if it starts with a sign or a digit. -/
theorem readValue?_eq_float {fuel : Nat} {bs rest : List UInt8} {x : Float}
    (h : readValue? (fuel + 1) bs = some (float x, rest)) :
    ∃ b after, skipBlanks bs = b :: after ∧
      (b = 0x2d ∧ readNumber? true after = some (float x, rest) ∨
        isDigitByte b = true ∧ readNumber? false (b :: after) = some (float x, rest)) := by
  rw [← readValue?_skipBlanks] at h
  cases hbs : skipBlanks bs with
  | nil => rw [hbs] at h; exact absurd h (by simp [readValue?, skipBlanks])
  | cons b after =>
    refine ⟨b, after, rfl, ?_⟩
    have hblank : isBlankByte b = false := by
      have hhead := List.head?_dropWhile_not isBlankByte bs
      rwa [← skipBlanks, hbs] at hhead
    rw [hbs] at h
    by_cases hdigit : isDigitByte b = true
    · rw [readValue?_digit fuel hdigit] at h
      exact .inr ⟨hdigit, h⟩
    by_cases hminus : b = 0x2d
    · subst hminus
      exact .inl ⟨rfl, h⟩
    have hminus' : ¬b = byteOf '-' := hminus
    simp only [readValue?, skipBlanks_of_not_blank hblank, if_neg hminus', if_neg hdigit] at h
    exfalso
    -- every other byte starts a value of another kind, or none
    split at h
    · split at h
      · simp at h
      · obtain ⟨⟨members, after'⟩, -, heq⟩ := Option.bind_eq_some_iff.mp h
        have heq' := congrArg Prod.fst (Option.some.inj heq)
        simp only at heq'
        split at heq' <;> cases heq'
    · split at h
      · split at h
        · simp at h
        · obtain ⟨⟨items, after'⟩, -, heq⟩ := Option.bind_eq_some_iff.mp h
          cases congrArg Prod.fst (Option.some.inj heq)
      · split at h
        · obtain ⟨⟨s, after'⟩, -, heq⟩ := Option.bind_eq_some_iff.mp h
          have heq' := congrArg Prod.fst (Option.some.inj heq)
          cases hs : s.text? with
          | none => simp [hs] at heq'
          | some text => simp [hs] at heq'
        · split at h
          · simp at h
          · split at h
            · simp at h
            · split at h <;> simp at h

/-! ## 2. What is read back -/

/-- The text of a value stands for this value. -/
def ReadsBack (j : Json) : Prop := ofText? j.compact = some j

/-- The same wherever a value may stand: with more fuel and with something behind it.  What is left
is what follows, up to blanks. -/
def ReadInPlace (j : Json) : Prop :=
  ∀ (fuel : Nat) (tail : List UInt8), 2 * (textBytes j.compact).length ≤ fuel →
    endsValue tail = true →
    ∃ rest, readValue? fuel (textBytes j.compact ++ tail) = some (j, rest) ∧
      skipBlanks rest = tail

theorem ofText?_eq (s : String) :
    ofText? s =
      match readValue? (2 * (textBytes s).length + 2) (textBytes s) with
      | some (j, rest) => if (skipBlanks rest).isEmpty then some j else none
      | none => none := rfl

theorem skipBlanks_append (bs tail : List UInt8) :
    skipBlanks (bs ++ tail) =
      if (skipBlanks bs).isEmpty then skipBlanks tail else skipBlanks bs ++ tail :=
  List.dropWhile_append

theorem ReadInPlace.readsBack {j : Json} (h : ReadInPlace j) : ReadsBack j := by
  obtain ⟨rest, hread, hrest⟩ := h (2 * (textBytes j.compact).length + 2) [] (by omega) rfl
  rw [List.append_nil] at hread
  rw [ReadsBack, ofText?_eq, hread]
  simp [hrest]

/-- A float that is read back by itself is read back in place. -/
theorem ReadsBack.inPlace {x : Float} (h : ReadsBack (float x)) : ReadInPlace (float x) := by
  intro fuel tail hfuel htail
  rw [ReadsBack, ofText?_eq] at h
  generalize textBytes (float x).compact = bs at h hfuel ⊢
  split at h
  · rename_i j rest hread
    split at h
    · rename_i hblank
      obtain rfl := Option.some.inj h
      obtain ⟨b, after, hbs, hnumber⟩ := readValue?_eq_float hread
      have hskip : skipBlanks (bs ++ tail) = b :: (after ++ tail) := by
        simp [skipBlanks_append, hbs]
      have hrest : skipBlanks (rest ++ tail) = tail := by
        rw [skipBlanks_append, if_pos hblank, skipBlanks_of_endsValue htail]
      have hpos : 0 < bs.length := List.length_pos_of_ne_nil (by rintro rfl; cases hbs)
      obtain ⟨more, rfl⟩ : ∃ more, fuel = more + 1 := ⟨fuel - 1, by omega⟩
      refine ⟨rest ++ tail, ?_, hrest⟩
      rw [← readValue?_skipBlanks, hskip]
      rcases hnumber with ⟨rfl, hnumber⟩ | ⟨hdigit, hnumber⟩
      · exact readNumber?_append htail hnumber
      · rw [readValue?_digit more hdigit]
        exact readNumber?_append htail hnumber
    · simp at h
  · simp at h

theorem readInPlace_null : ReadInPlace null := by
  intro fuel tail hfuel htail
  have hlength : (textBytes (null).compact).length = 4 := by decide
  obtain ⟨more, rfl⟩ : ∃ more, fuel = more + 1 := ⟨fuel - 1, by omega⟩
  exact ⟨tail, readValue?_null more tail, skipBlanks_of_endsValue htail⟩

theorem readInPlace_bool (b : Bool) : ReadInPlace (bool b) := by
  intro fuel tail hfuel htail
  have hlength : 0 < (textBytes (bool b).compact).length := by
    cases b <;> decide
  obtain ⟨more, rfl⟩ : ∃ more, fuel = more + 1 := ⟨fuel - 1, by omega⟩
  exact ⟨tail, readValue?_bool more b tail, skipBlanks_of_endsValue htail⟩

theorem readInPlace_string (s : String) : ReadInPlace (string s) := by
  intro fuel tail hfuel htail
  rw [compact, textBytes_quoted] at hfuel ⊢
  simp only [List.length_cons, List.length_append, List.length_nil] at hfuel
  obtain ⟨more, rfl⟩ : ∃ more, fuel = more + 1 := ⟨fuel - 1, by omega⟩
  obtain ⟨bytes, hbody, htext⟩ := stringBody_quoted s more tail (by omega)
  refine ⟨tail, ?_, skipBlanks_of_endsValue htail⟩
  rw [List.cons_append, List.append_assoc, List.singleton_append, readValue?_quote, hbody]
  simp [htext]

theorem textBytes_repr_eq_cons (n : Nat) :
    ∃ b bs, isDigitByte b = true ∧ textBytes n.repr = b :: bs := by
  rw [textBytes_repr]
  cases hcs : Nat.toDigits 10 n with
  | nil => exact absurd hcs Nat.toDigits_ne_nil
  | cons c cs =>
    obtain ⟨b, hc, hb, -⟩ := digitByte_of_isDigit
      (Nat.isDigit_of_mem_toDigits (by decide) (by decide) (hcs ▸ List.mem_cons_self))
    exact ⟨b, _, hb, by rw [List.flatMap_cons, hc, List.singleton_append]⟩

theorem readInPlace_int {n : Int} (hlo : Int64.minValue.toInt ≤ n) (hhi : n < UInt64.size) :
    ReadInPlace (int n) := by
  intro fuel tail hfuel htail
  refine ⟨tail, ?_, skipBlanks_of_endsValue htail⟩
  cases n with
  | ofNat n =>
    have htext : (int (.ofNat n)).compact = n.repr := rfl
    have hword : n < UInt64.size := Int.ofNat_lt.mp hhi
    have hread := readNumber?_repr htail false n
    rw [value_decimalDigits hword] at hread
    obtain ⟨b, bs, hb, hbytes⟩ := textBytes_repr_eq_cons n
    rw [htext, hbytes] at hfuel ⊢
    rw [hbytes] at hread
    obtain ⟨more, rfl⟩ : ∃ more, fuel = more + 1 := ⟨fuel - 1, by simp at hfuel; omega⟩
    rw [List.cons_append, readValue?_digit more hb]
    exact hread
  | negSucc n =>
    have htext : (int (.negSucc n)).compact = "-" ++ (n + 1).repr := rfl
    have hsign : textBytes "-" = [0x2d] := by decide
    have hword : n + 1 ≤ Nat.pow 2 63 := by
      have hmin : Int64.minValue.toInt = -(Nat.pow 2 63 : Nat) := by decide
      omega
    rw [htext, textBytes_append, hsign] at hfuel ⊢
    simp only [List.length_append, List.length_singleton] at hfuel
    obtain ⟨more, rfl⟩ : ∃ more, fuel = more + 1 := ⟨fuel - 1, by omega⟩
    rw [List.append_assoc, List.singleton_append, readValue?_minus, readNumber?_repr htail,
      value_decimalDigits_negative (Nat.succ_pos n) hword]
    rfl

/-! ## 3. Arrays and objects -/

theorem textBytes_comma : textBytes "," = [0x2c] := by decide

theorem compactItems_cons_cons (j k : Json) (rest : List Json) :
    compactItems (j :: k :: rest) = j.compact ++ "," ++ compactItems (k :: rest) := rfl

theorem compactMembers_cons_cons (m n : String × Json) (rest : List (String × Json)) :
    compactMembers (m :: n :: rest)
      = quoted m.1 ++ ":" ++ m.2.compact ++ "," ++ compactMembers (n :: rest) := rfl

theorem readItems?_succ (fuel : Nat) (bs : List UInt8) :
    readItems? (fuel + 1) bs = (readValue? fuel bs).bind fun (j, rest) =>
      match skipBlanks rest with
      | 0x2c :: rest => (readItems? fuel rest).bind fun (more, rest) => some (j :: more, rest)
      | 0x5d :: rest => some ([j], rest)
      | _ => none := rfl

theorem readItems?_compactItems : ∀ (items : List Json), items ≠ [] →
    (∀ j ∈ items, ReadInPlace j) → ∀ (fuel : Nat) (rest : List UInt8),
    2 * (textBytes (compactItems items)).length < fuel →
    readItems? fuel (textBytes (compactItems items) ++ 0x5d :: rest) = some (items, rest)
  | [], hne, _, _, _, _ => absurd rfl hne
  | [j], _, h, fuel, rest, hfuel => by
    obtain ⟨more, rfl⟩ : ∃ more, fuel = more + 1 := ⟨fuel - 1, by omega⟩
    have htext : compactItems [j] = j.compact := rfl
    rw [htext] at hfuel ⊢
    obtain ⟨after, hread, hskip⟩ :=
      h j List.mem_cons_self more (0x5d :: rest) (by omega) rfl
    rw [readItems?_succ, hread, Option.bind_some]
    simp only [hskip]
  | j :: k :: items, _, h, fuel, rest, hfuel => by
    rw [compactItems_cons_cons, textBytes_append, textBytes_append, textBytes_comma] at hfuel ⊢
    simp only [List.length_append, List.length_singleton] at hfuel
    obtain ⟨more, rfl⟩ : ∃ more, fuel = more + 1 := ⟨fuel - 1, by omega⟩
    rw [List.append_assoc, List.append_assoc, List.singleton_append]
    obtain ⟨after, hread, hskip⟩ := h j List.mem_cons_self more
      (0x2c :: (textBytes (compactItems (k :: items)) ++ 0x5d :: rest)) (by omega) rfl
    have hrest := readItems?_compactItems (k :: items) (by simp)
      (fun i hi => h i (List.mem_cons_of_mem _ hi)) more rest (by omega)
    rw [readItems?_succ, hread, Option.bind_some]
    simp only [hskip, hrest, Option.bind_some]

theorem readItems?_bracket (fuel : Nat) (rest : List UInt8) :
    readItems? fuel (0x5d :: rest) = none := by
  match fuel with
  | 0 => rfl
  | 1 => rfl
  | fuel + 2 => rfl

theorem readInPlace_array {items : List Json} (h : ∀ j ∈ items, ReadInPlace j) :
    ReadInPlace (array items) := by
  intro fuel tail hfuel htail
  refine ⟨tail, ?_, skipBlanks_of_endsValue htail⟩
  have hopen : textBytes "[" = [0x5b] := by decide
  have hclose : textBytes "]" = [0x5d] := by decide
  rw [compact, textBytes_append, textBytes_append, hopen, hclose] at hfuel ⊢
  simp only [List.length_append, List.length_singleton] at hfuel
  obtain ⟨more, rfl⟩ : ∃ more, fuel = more + 1 := ⟨fuel - 1, by omega⟩
  rw [List.append_assoc, List.append_assoc, List.singleton_append, List.singleton_append,
    readValue?_bracket]
  cases items with
  | nil => rfl
  | cons j items =>
    have hread := readItems?_compactItems (j :: items) (by simp) h more tail (by omega)
    rw [← readItems?_skipBlanks] at hread
    generalize skipBlanks (textBytes (compactItems (j :: items)) ++ 0x5d :: tail) = bs at hread ⊢
    split
    · exact absurd (hread.symm.trans (readItems?_bracket more _)) (by simp)
    · rw [hread]
      rfl

theorem readMembers?_quote (fuel : Nat) (rest : List UInt8) :
    readMembers? (fuel + 1) (0x22 :: rest) =
      (stringBody fuel (some []) rest).bind fun (name, rest) =>
        match skipBlanks rest with
        | 0x3a :: rest => (readValue? fuel rest).bind fun (j, rest) =>
          match skipBlanks rest with
          | 0x2c :: rest => (readMembers? fuel rest).bind fun (more, rest) =>
            some ((name.text?, j) :: more, rest)
          | 0x7d :: rest => some ([(name.text?, j)], rest)
          | _ => none
        | _ => none := rfl

/-- The bytes of a member, up to its value. -/
theorem textBytes_name (k : String) (s : String) :
    textBytes (quoted k ++ ":" ++ s) = 0x22 :: (quotedBytes k ++ 0x22 :: 0x3a :: textBytes s) := by
  have hcolon : textBytes ":" = [0x3a] := by decide
  rw [textBytes_append, textBytes_append, textBytes_quoted, hcolon]
  simp

/-- A member is read, and then what follows it decides. -/
theorem readMembers?_name (k : String) {j : Json} (hj : ReadInPlace j) {fuel : Nat}
    (tail : List UInt8) (hfuel : 2 * (textBytes (quoted k ++ ":" ++ j.compact)).length ≤ fuel) :
    endsValue tail = true →
    readMembers? (fuel + 1) (textBytes (quoted k ++ ":" ++ j.compact) ++ tail) =
      match tail with
      | 0x2c :: rest => (readMembers? fuel rest).bind fun (more, rest) =>
        some ((some k, j) :: more, rest)
      | 0x7d :: rest => some ([(some k, j)], rest)
      | _ => none := by
  intro htail
  rw [textBytes_name] at hfuel ⊢
  simp only [List.length_append, List.length_cons] at hfuel
  obtain ⟨name, hname, hk⟩ := stringBody_quoted k fuel
    (0x3a :: (textBytes j.compact ++ tail)) (by omega)
  obtain ⟨after, hread, hskip⟩ := hj fuel tail (by omega) htail
  have hcolon : skipBlanks (0x3a :: (textBytes j.compact ++ tail))
      = 0x3a :: (textBytes j.compact ++ tail) := rfl
  rw [List.cons_append, List.append_assoc, List.cons_append, List.cons_append, readMembers?_quote,
    hname, Option.bind_some]
  simp only [hcolon, hread, Option.bind_some, hskip, hk]

theorem readMembers?_compactMembers : ∀ (members : List (String × Json)), members ≠ [] →
    (∀ m ∈ members, ReadInPlace m.2) → ∀ (fuel : Nat) (rest : List UInt8),
    2 * (textBytes (compactMembers members)).length < fuel →
    readMembers? fuel (textBytes (compactMembers members) ++ 0x7d :: rest)
      = some (members.map fun m => (some m.1, m.2), rest)
  | [], hne, _, _, _, _ => absurd rfl hne
  | [m], _, h, fuel, rest, hfuel => by
    obtain ⟨more, rfl⟩ : ∃ more, fuel = more + 1 := ⟨fuel - 1, by omega⟩
    have htext : compactMembers [m] = quoted m.1 ++ ":" ++ m.2.compact := rfl
    rw [htext] at hfuel ⊢
    exact readMembers?_name m.1 (h m List.mem_cons_self) (0x7d :: rest) (by omega) rfl
  | m :: n :: members, _, h, fuel, rest, hfuel => by
    rw [compactMembers_cons_cons, textBytes_append, textBytes_append _ ",", textBytes_comma]
      at hfuel ⊢
    simp only [List.length_append, List.length_singleton] at hfuel
    obtain ⟨more, rfl⟩ : ∃ more, fuel = more + 1 := ⟨fuel - 1, by omega⟩
    have hrest := readMembers?_compactMembers (n :: members) (by simp)
      (fun i hi => h i (List.mem_cons_of_mem _ hi)) more rest (by omega)
    rw [List.append_assoc, List.append_assoc, List.singleton_append,
      readMembers?_name m.1 (h m List.mem_cons_self) _ (by omega) rfl]
    simp only [hrest, Option.bind_some]
    rfl

theorem mapM_named (members : List (String × Json)) :
    (members.map fun m => (some m.1, m.2)).mapM (fun (k, j) => k.map (·, j)) = some members := by
  induction members with
  | nil => rfl
  | cons m members ih =>
    rw [List.map_cons, List.mapM_cons, ih]
    rfl

theorem compactMembers_eq_cons (m : String × Json) (members : List (String × Json)) :
    ∃ bs, textBytes (compactMembers (m :: members)) = 0x22 :: bs := by
  cases members with
  | nil => exact ⟨_, textBytes_name m.1 m.2.compact⟩
  | cons n members =>
    have htext : compactMembers (m :: n :: members)
        = quoted m.1 ++ ":" ++ (m.2.compact ++ "," ++ compactMembers (n :: members)) := by
      simp only [compactMembers_cons_cons, String.append_assoc]
    exact ⟨_, by rw [htext, textBytes_name]⟩

theorem readInPlace_object {members : List (String × Json)} (h : ∀ m ∈ members, ReadInPlace m.2) :
    ReadInPlace (object members) := by
  intro fuel tail hfuel htail
  refine ⟨tail, ?_, skipBlanks_of_endsValue htail⟩
  have hopen : textBytes "\x7b" = [0x7b] := by decide
  have hclose : textBytes "\x7d" = [0x7d] := by decide
  rw [compact, textBytes_append, textBytes_append, hopen, hclose] at hfuel ⊢
  simp only [List.length_append, List.length_singleton] at hfuel
  obtain ⟨more, rfl⟩ : ∃ more, fuel = more + 1 := ⟨fuel - 1, by omega⟩
  rw [List.append_assoc, List.append_assoc, List.singleton_append, List.singleton_append]
  cases members with
  | nil => rfl
  | cons m members =>
    have hread := readMembers?_compactMembers (m :: members) (by simp) h more tail (by omega)
    obtain ⟨bs, hbs⟩ := compactMembers_eq_cons m members
    rw [hbs, List.cons_append] at hread ⊢
    rw [readValue?_brace_quote, hread, Option.bind_some]
    simp only [mapM_named]

/-! ## 4. Every value -/

/-- The values that are read back as a whole: every integer fits a word, and every float is read
back by itself. -/
inductive Printable : Json → Prop
  | null : Printable null
  | bool (b : Bool) : Printable (bool b)
  | int {n : Int} : Int64.minValue.toInt ≤ n → n < UInt64.size → Printable (int n)
  | float {x : Float} : ReadsBack (float x) → Printable (float x)
  | string (s : String) : Printable (string s)
  | array {items : List Json} : (∀ j ∈ items, Printable j) → Printable (array items)
  | object {members : List (String × Json)} : (∀ m ∈ members, Printable m.2) →
    Printable (object members)

theorem Printable.inPlace {j : Json} (h : Printable j) : ReadInPlace j := by
  induction h with
  | null => exact readInPlace_null
  | bool b => exact readInPlace_bool b
  | int hlo hhi => exact readInPlace_int hlo hhi
  | float hx => exact hx.inPlace
  | string s => exact readInPlace_string s
  | array _ ih => exact readInPlace_array ih
  | object _ ih => exact readInPlace_object ih

/-- **A value is read back from its text.** -/
theorem Printable.readsBack {j : Json} (h : Printable j) : ReadsBack j := h.inPlace.readsBack

end Backlog.Json
