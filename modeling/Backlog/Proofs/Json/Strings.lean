/-
# Strings are read back

A string is printed between quotes, with a backslash in front of what cannot stand there by itself,
and read byte by byte.

* `textBytes`: the bytes of a text, which is what a reader sees;
* `isPlainByte_of_mem`: a character that is printed as it stands has no byte that means something
  else to the reader, since all bytes of a character beyond ASCII are beyond ASCII;
* `stringBody_escapedBytes`: each character is read as what it is, by no more steps than it has
  bytes;
* `stringBody_quoted`: **a string is read back, whatever follows it**, by induction on its
  characters.
-/
import Backlog.Json.Printer
import Backlog.Json.Reader
import Mathlib

namespace Backlog.Json

/-! ## 1. Bytes of texts -/

/-- The bytes of a text. -/
def textBytes (s : String) : List UInt8 := s.toUTF8.data.toList

@[simp] theorem textBytes_append (s t : String) :
    textBytes (s ++ t) = textBytes s ++ textBytes t := by
  simp [textBytes, String.toUTF8, String.toByteArray_append, ByteArray.data_append]

@[simp] theorem textBytes_ofList (cs : List Char) :
    textBytes (.ofList cs) = cs.flatMap String.utf8EncodeChar := by
  simp [textBytes, String.toUTF8, List.utf8Encode]

theorem textBytes_eq_flatMap (s : String) :
    textBytes s = s.toList.flatMap String.utf8EncodeChar := by
  rw [← textBytes_ofList, String.ofList_toList]

theorem text?_textBytes (s : String) : Collected.text? (some (textBytes s).reverse) = some s := by
  have hbytes : (⟨((textBytes s).reverse.reverse).toArray⟩ : ByteArray) = s.toByteArray := by
    simp [textBytes, String.toUTF8]
  simp only [Collected.text?, Option.bind_some, hbytes]
  exact dif_pos s.isValidUTF8

theorem toList_loop_eq (bs : ByteArray) (i : Nat) (acc : List UInt8) :
    ByteArray.toList.loop bs i acc = acc.reverse ++ bs.data.toList.drop i := by
  fun_induction ByteArray.toList.loop bs i acc with
  | case1 i acc h ih =>
    have hi : i < bs.data.toList.length := by simpa using h
    rw [ih, List.drop_eq_getElem_cons hi]
    simp [ByteArray.get!, h]
  | case2 i acc h =>
    have hi : bs.data.toList.length ≤ i := by simpa using h
    simp [List.drop_eq_nil_of_le hi]

theorem toList_eq_data (bs : ByteArray) : bs.toList = bs.data.toList := by
  simp [ByteArray.toList, toList_loop_eq]

/-! ## 2. Strings -/

/-- The bytes that stand for themselves in a string. -/
def isPlainByte (b : UInt8) : Bool := b != 0x22 && b != 0x5c && 0x20 ≤ b

theorem stringBody_plain : ∀ (bs : List UInt8) (fuel : Nat) (acc rest : List UInt8),
    (∀ b ∈ bs, isPlainByte b = true) →
    stringBody (fuel + bs.length) (some acc) (bs ++ rest)
      = stringBody fuel (some (bs.reverse ++ acc)) rest
  | [], _, _, _, _ => rfl
  | b :: bs, fuel, acc, rest, h => by
    have hb := h b List.mem_cons_self
    simp only [isPlainByte, Bool.and_eq_true, bne_iff_ne, ne_eq, decide_eq_true_eq] at hb
    obtain ⟨⟨hquote, hslash⟩, hcontrol⟩ := hb
    have hlow : ¬b < 0x20 := UInt8.not_lt.mpr hcontrol
    rw [List.length_cons, ← Nat.add_assoc, List.cons_append]
    simp only [stringBody, if_neg hquote, if_neg hslash, if_neg hlow, Collected.pushByte,
      Option.map_some]
    rw [stringBody_plain bs fuel (b :: acc) rest fun c hc => h c (List.mem_cons_of_mem _ hc)]
    simp

/-- A character is written as one plain byte, or as bytes that are beyond ASCII. -/
theorem isPlainByte_of_mem {c : Char} (hquote : c ≠ '"') (hslash : c ≠ '\\')
    (hcontrol : ¬c.toNat < 0x20) {b : UInt8} (hb : b ∈ String.utf8EncodeChar c) :
    isPlainByte b = true := by
  have hq : c.val.toNat ≠ 0x22 := fun h => hquote (Char.ext (UInt32.toNat_inj.mp h))
  have hs : c.val.toNat ≠ 0x5c := fun h => hslash (Char.ext (UInt32.toNat_inj.mp h))
  have hc : ¬c.val.toNat < 0x20 := hcontrol
  have hnat : b.toNat ≠ 0x22 ∧ b.toNat ≠ 0x5c ∧ 0x20 ≤ b.toNat := by
    simp only [String.utf8EncodeChar] at hb
    split at hb
    · obtain rfl := List.mem_singleton.mp hb
      rw [UInt8.toNat_ofNat']
      omega
    · have hhigh : 0x80 ≤ b.toNat := by
        split at hb
        · simp only [List.mem_cons, List.not_mem_nil, or_false] at hb
          rcases hb with rfl | rfl <;> rw [UInt8.toNat_ofNat'] <;> omega
        · split at hb
          · simp only [List.mem_cons, List.not_mem_nil, or_false] at hb
            rcases hb with rfl | rfl | rfl <;> rw [UInt8.toNat_ofNat'] <;> omega
          · simp only [List.mem_cons, List.not_mem_nil, or_false] at hb
            rcases hb with rfl | rfl | rfl | rfl <;> rw [UInt8.toNat_ofNat'] <;> omega
      omega
  simp only [isPlainByte, Bool.and_eq_true, bne_iff_ne, ne_eq, decide_eq_true_eq]
  refine ⟨⟨fun h => hnat.1 (h ▸ rfl), fun h => hnat.2.1 (h ▸ rfl)⟩, ?_⟩
  exact UInt8.le_iff_toNat_le.mpr hnat.2.2

/-- The bytes of a character as it stands in a string. -/
def escapedBytes (c : Char) : List UInt8 := (escaped c).flatMap String.utf8EncodeChar

theorem hexValue?_hexDigit : ∀ n < 16, ∃ b, String.utf8EncodeChar (hexDigit n) = [b] ∧
    hexValue? b = some n := by
  decide

/-- One step of the reader takes a character that is written with a backslash. -/
theorem stringBody_escape {e b : UInt8} (fuel : Nat) (acc rest : List UInt8) (hu : e ≠ 0x75)
    (he : escapeOf? e = some b) :
    stringBody (fuel + 1) (some acc) (0x5c :: e :: rest)
      = stringBody fuel (some (b :: acc)) rest := by
  simp [stringBody, hu, he, Collected.pushByte]

/-- One step takes a control character that is written by its number. -/
theorem stringBody_control {c : Char} (hc : c.toNat < 0x20) {h l : UInt8} (fuel : Nat)
    (acc rest : List UInt8) (hh : hexValue? h = some (c.toNat / 16))
    (hl : hexValue? l = some (c.toNat % 16)) :
    stringBody (fuel + 1) (some acc) (0x5c :: 0x75 :: 0x30 :: 0x30 :: h :: l :: rest)
      = stringBody fuel (some ((String.utf8EncodeChar c).reverse ++ acc)) rest := by
  have hzero : hexValue? 0x30 = some 0 := by decide
  have hcode : ((0 * 16 + 0) * 16 + c.toNat / 16) * 16 + c.toNat % 16 = c.toNat := by omega
  have hfour : hexFour? (0x30 :: 0x30 :: h :: l :: rest) = some (c.toNat, rest) := by
    simp only [hexFour?, hzero, hh, hl, Option.bind_eq_bind, Option.bind_some, hcode]
    rfl
  have hlow : c.toNat < 0xD800 := by omega
  have hbytes : (String.singleton c).toUTF8.toList = String.utf8EncodeChar c := by
    rw [String.toUTF8_eq_toByteArray, String.toByteArray_singleton, List.utf8Encode_singleton,
      toList_eq_data, List.data_toByteArray]
  simp only [stringBody, Option.bind_eq_bind, hfour, Option.bind_some, hlow, Collected.push,
    Char.ofNat_toNat, hbytes, Option.map_some]
  rfl

/-- However a character is written, the reader takes it as what it is, and it takes no more steps
than it is written with bytes. -/
theorem stringBody_escapedBytes (c : Char) (fuel : Nat) (acc rest : List UInt8) :
    ∃ more, stringBody (fuel + (escapedBytes c).length) (some acc) (escapedBytes c ++ rest)
      = stringBody (fuel + more) (some ((String.utf8EncodeChar c).reverse ++ acc)) rest := by
  by_cases hspecial : c ∈ ['"', '\\', '\n', '\r', '\t', '\x08', '\x0c']
  · simp only [List.mem_cons, List.not_mem_nil, or_false] at hspecial
    refine ⟨1, ?_⟩
    rcases hspecial with rfl | rfl | rfl | rfl | rfl | rfl | rfl <;>
      exact stringBody_escape (fuel + 1) acc rest (by decide) (by decide)
  · simp only [List.mem_cons, List.not_mem_nil, or_false, not_or] at hspecial
    obtain ⟨hq, hs, hn, hr, ht, hb, hf⟩ := hspecial
    have hescaped : escaped c = if c.toNat < 0x20
        then ['\\', 'u', '0', '0', hexDigit (c.toNat / 16), hexDigit (c.toNat % 16)] else [c] := by
      unfold escaped
      split <;> first | contradiction | rfl
    by_cases hcontrol : c.toNat < 0x20
    · obtain ⟨h, hhigh, hh⟩ := hexValue?_hexDigit (c.toNat / 16) (by omega)
      obtain ⟨l, hlow, hl⟩ := hexValue?_hexDigit (c.toNat % 16) (by omega)
      have hbytes : escapedBytes c = [0x5c, 0x75, 0x30, 0x30, h, l] := by
        rw [escapedBytes, hescaped, if_pos hcontrol]
        simp only [List.flatMap_cons, hhigh, hlow, List.flatMap_nil]
        rfl
      rw [hbytes]
      exact ⟨5, stringBody_control hcontrol (fuel + 5) acc rest hh hl⟩
    · have hbytes : escapedBytes c = String.utf8EncodeChar c := by
        rw [escapedBytes, hescaped, if_neg hcontrol, List.flatMap_singleton]
      rw [hbytes]
      refine ⟨0, stringBody_plain _ fuel acc rest fun b hbyte => ?_⟩
      exact isPlainByte_of_mem hq hs hcontrol hbyte

theorem stringBody_escaped : ∀ (cs : List Char) (fuel : Nat) (acc rest : List UInt8),
    (cs.flatMap escapedBytes).length < fuel →
    stringBody fuel (some acc) (cs.flatMap escapedBytes ++ 0x22 :: rest)
      = some (some ((cs.flatMap String.utf8EncodeChar).reverse ++ acc), rest)
  | [], 0, _, _, h => absurd h (Nat.not_lt_zero _)
  | [], _ + 1, _, _, _ => by simp [stringBody]
  | c :: cs, fuel, acc, rest, h => by
    rw [List.flatMap_cons, List.length_append] at h
    obtain ⟨spare, rfl⟩ : ∃ spare, fuel = spare + (escapedBytes c).length :=
      ⟨fuel - (escapedBytes c).length, by omega⟩
    obtain ⟨more, hstep⟩ :=
      stringBody_escapedBytes c spare acc (cs.flatMap escapedBytes ++ 0x22 :: rest)
    rw [List.flatMap_cons, List.append_assoc, hstep,
      stringBody_escaped cs (spare + more) _ rest (by omega)]
    simp

/-- The bytes of a string behind its first quote. -/
def quotedBytes (s : String) : List UInt8 := s.toList.flatMap escapedBytes

theorem textBytes_quoted (s : String) :
    textBytes (quoted s) = 0x22 :: (quotedBytes s ++ [0x22]) := by
  have hquote : textBytes "\"" = [0x22] := by decide
  rw [quoted, textBytes_append, textBytes_append, hquote,
    textBytes_ofList (s.toList.flatMap escaped), List.flatMap_assoc]
  rfl

/-- A string is read back, whatever follows it. -/
theorem stringBody_quoted (s : String) (fuel : Nat) (rest : List UInt8)
    (h : (quotedBytes s).length < fuel) :
    ∃ bytes, stringBody fuel (some []) (quotedBytes s ++ 0x22 :: rest) = some (bytes, rest) ∧
      bytes.text? = some s := by
  refine ⟨_, stringBody_escaped s.toList fuel [] rest h, ?_⟩
  rw [List.append_nil, ← textBytes_eq_flatMap, text?_textBytes]

end Backlog.Json
