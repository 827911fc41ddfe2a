/-
# What is read is in range

An integer that is read fits a word of 64 bits, and a float that is read is finite.  So a field that
is taken for a float, integers included, gives a finite one.

* `Ranged`: values all of whose numbers are in range;
* `ranged_value`: what a number of the text stands for;
* `ReadsRanged`: what the reader gives with some fuel.  One more unit of fuel goes through the same
  three functions once more (`ReadsRanged.succ`);
* `ranged_of_ofText?`: **what a text stands for is in range;**
* `isFinite_of_required`: and a float that is read off a record of it is finite.
-/
import Backlog.Json.Decode
import Backlog.Json.Reader
import Backlog.Proofs.Json.Floats

namespace Backlog.Json

/-- A value all of whose numbers are in range. -/
inductive Ranged : Json → Prop
  | null : Ranged null
  | bool (b : Bool) : Ranged (bool b)
  | int {n : Int} (hn : n.natAbs < UInt64.size) : Ranged (int n)
  | float {x : Float} (hx : x.isFinite = true) : Ranged (float x)
  | string (s : String) : Ranged (string s)
  | array {items : List Json} (h : ∀ j ∈ items, Ranged j) : Ranged (array items)
  | object {members : List (String × Json)} (h : ∀ m ∈ members, Ranged m.2) :
      Ranged (object members)
  | unreadable : Ranged unreadable

/-! ## 1. Numbers -/

theorem isFinite_ofNat {n : Nat} (hn : n < UInt64.size) : (Float.ofNat n).isFinite = true :=
  isFinite_of_atMost (atMost_ofNat hn)

theorem isFinite_ofInt {n : Int} (hn : n.natAbs < UInt64.size) :
    (Float.ofInt n).isFinite = true := by
  cases n with
  | ofNat n => exact isFinite_ofNat hn
  | negSucc n => exact isFinite_neg (isFinite_ofNat hn)

theorem collect_lt : ∀ (digits : List Nat) {word : Nat}, word < UInt64.size →
    (collect word digits).1 < UInt64.size
  | [], _, hword => hword
  | d :: rest, word, hword => by
    rw [collect]
    split
    next hfits => exact collect_lt rest hfits
    next => exact hword

theorem ranged_signed {x : Float} (negative : Bool) (hx : x.isFinite = true) :
    Ranged (float (if negative then -x else x)) := by
  cases negative
  · exact .float hx
  · exact .float (isFinite_neg hx)

theorem ranged_scaledFloat (negative : Bool) {word : Nat} (hword : word < UInt64.size) (e : Int) :
    Ranged (scaledFloat negative word e) := by
  rw [scaledFloat]
  simp only
  split
  · refine ranged_signed negative (isFinite_of_atMost (k := 15) ?_)
    exact atMost_divideByTens (by decide) (by decide) _ _ (atMost_ofNat hword)
  · split
    · split
      next hfinite => exact ranged_signed negative hfinite
      next => exact .unreadable
    · split
      · exact ranged_signed negative (isFinite_ofNat hword)
      · exact .unreadable

theorem ranged_floatValue (l : Literal) {word : Nat} (hword : word < UInt64.size) (power : Int) :
    Ranged (l.floatValue word power) := by
  rw [Literal.floatValue]
  split
  · exact ranged_scaledFloat _ hword _
  · split
    · exact ranged_scaledFloat _ hword _
    · split
      · exact .unreadable
      · exact ranged_scaledFloat _ (by decide) _

theorem ranged_value (l : Literal) : Ranged l.value := by
  have hzero : 0 < UInt64.size := by decide
  have hword := collect_lt l.whole hzero
  rw [Literal.value]
  generalize collect 0 l.whole = collected at hword
  obtain ⟨word, rest⟩ := collected
  simp only at hword ⊢
  split
  · exact ranged_floatValue l (collect_lt _ hword) _
  · split
    · split
      · exact .int (by omega)
      · split
        · exact .int (by omega)
        · exact .float (isFinite_neg (isFinite_ofNat hword))
    · exact ranged_floatValue l hword _

theorem ranged_of_readNumber? {negative : Bool} {bs rest : List UInt8} {j : Json}
    (h : readNumber? negative bs = some (j, rest)) : Ranged j := by
  obtain ⟨⟨whole, bs₁⟩, -, h⟩ := Option.bind_eq_some_iff.mp h
  obtain ⟨⟨fraction, bs₂⟩, -, h⟩ := Option.bind_eq_some_iff.mp h
  obtain ⟨⟨exponent, bs₃⟩, -, h⟩ := Option.bind_eq_some_iff.mp h
  cases h
  exact ranged_value _

/-! ## 2. Texts -/

/-- What is read with this much fuel is in range. -/
structure ReadsRanged (fuel : Nat) : Prop where
  value : ∀ {bs rest : List UInt8} {j : Json}, readValue? fuel bs = some (j, rest) → Ranged j
  items : ∀ {bs rest : List UInt8} {items : List Json}, readItems? fuel bs = some (items, rest) →
    ∀ j ∈ items, Ranged j
  members : ∀ {bs rest : List UInt8} {members : List (Option String × Json)},
    readMembers? fuel bs = some (members, rest) → ∀ m ∈ members, Ranged m.2

theorem exists_of_mapM_eq_some {α β : Type} {f : α → Option β} : ∀ {as : List α} {bs : List β},
    as.mapM f = some bs → ∀ b ∈ bs, ∃ a ∈ as, f a = some b
  | [], _, h, b, hb => by cases h; cases hb
  | a :: as, bs, h, b, hb => by
    rw [List.mapM_cons] at h
    obtain ⟨c, hc, h⟩ := Option.bind_eq_some_iff.mp h
    obtain ⟨cs, hcs, h⟩ := Option.bind_eq_some_iff.mp h
    cases h
    rcases List.mem_cons.mp hb with rfl | hb
    · exact ⟨a, List.mem_cons_self, hc⟩
    · obtain ⟨a', ha', hf⟩ := exists_of_mapM_eq_some hcs b hb
      exact ⟨a', List.mem_cons_of_mem a ha', hf⟩

/-- An object one of whose names cannot be read is not kept. -/
theorem ranged_named {members : List (Option String × Json)} {bs rest : List UInt8} {j : Json}
    (h : ∀ m ∈ members, Ranged m.2)
    (hj : (match members.mapM fun (k, j) => k.map (·, j) with
      | some members => (object members, bs)
      | none => (unreadable, bs)) = (j, rest)) : Ranged j := by
  split at hj
  next named hnamed =>
    cases hj
    refine .object fun m hm => ?_
    obtain ⟨⟨k, j⟩, hmem, hk⟩ := exists_of_mapM_eq_some hnamed m hm
    obtain ⟨name, -, rfl⟩ := Option.map_eq_some_iff.mp hk
    exact h _ hmem
  next =>
    cases hj
    exact .unreadable

theorem ReadsRanged.zero : ReadsRanged 0 := ⟨nofun, nofun, nofun⟩

theorem ReadsRanged.succ {fuel : Nat} (ih : ReadsRanged fuel) : ReadsRanged (fuel + 1) where
  value := by
    intro bs rest j h
    rw [readValue?] at h
    split at h
    · cases h
    · split at h
      · split at h
        · cases h
          exact .object (by simp)
        · obtain ⟨⟨members, bs₁⟩, hmembers, h⟩ := Option.bind_eq_some_iff.mp h
          exact ranged_named (ih.members hmembers) (Option.some.inj h)
      · split_ifs at h
        · split at h
          · cases h
            exact .array (by simp)
          · obtain ⟨⟨items, bs₁⟩, hitems, h⟩ := Option.bind_eq_some_iff.mp h
            cases h
            exact .array (ih.items hitems)
        · obtain ⟨⟨s, bs₁⟩, -, h⟩ := Option.bind_eq_some_iff.mp h
          cases hs : s.text? <;> simp only [hs] at h <;> cases h
          · exact .unreadable
          · exact .string _
        · exact ranged_of_readNumber? h
        · exact ranged_of_readNumber? h
        · obtain ⟨bs₁, -, h⟩ := Option.map_eq_some_iff.mp h
          cases h
          exact .null
        · obtain ⟨bs₁, -, h⟩ := Option.map_eq_some_iff.mp h
          cases h
          exact .bool true
        · obtain ⟨bs₁, -, h⟩ := Option.map_eq_some_iff.mp h
          cases h
          exact .bool false
  items := by
    intro bs rest items h
    rw [readItems?] at h
    obtain ⟨⟨j, bs₁⟩, hj, h⟩ := Option.bind_eq_some_iff.mp h
    have hvalue := ih.value hj
    simp only at h
    split at h
    · obtain ⟨⟨more, bs₂⟩, hmore, h⟩ := Option.bind_eq_some_iff.mp h
      cases h
      exact List.forall_mem_cons.mpr ⟨hvalue, ih.items hmore⟩
    · cases h
      exact List.forall_mem_singleton.mpr hvalue
    · cases h
  members := by
    intro bs rest members h
    rw [readMembers?] at h
    split at h
    · obtain ⟨⟨name, bs₁⟩, -, h⟩ := Option.bind_eq_some_iff.mp h
      simp only at h
      split at h
      · obtain ⟨⟨j, bs₂⟩, hj, h⟩ := Option.bind_eq_some_iff.mp h
        have hvalue := ih.value hj
        simp only at h
        split at h
        · obtain ⟨⟨more, bs₃⟩, hmore, h⟩ := Option.bind_eq_some_iff.mp h
          cases h
          exact List.forall_mem_cons.mpr ⟨hvalue, ih.members hmore⟩
        · cases h
          exact List.forall_mem_singleton.mpr hvalue
        · cases h
      · cases h
    · cases h

theorem readsRanged (fuel : Nat) : ReadsRanged fuel := by
  induction fuel with
  | zero => exact .zero
  | succ fuel ih => exact ih.succ

theorem ranged_of_ofText? {text : String} {j : Json} (h : ofText? text = some j) : Ranged j := by
  rw [ofText?, ofBytes?] at h
  split at h
  next k rest hread =>
    split at h
    · cases h
      exact (readsRanged _).value hread
    · cases h
  next => cases h

end Backlog.Json

namespace Backlog

/-! ## 3. Records -/

/-- The values of the fields, whatever they are called. -/
def Fields.values : Fields → List Json
  | keyed entries => entries.map Prod.snd
  | placed items => items

theorem Fields.mem_values_of_members? {names : List String} {fields : Fields} {m : Members}
    (h : fields.members? names = some m) : ∀ e ∈ m.entries, e.2 ∈ fields.values := by
  cases fields with
  | keyed entries =>
    obtain ⟨found, hfound, h⟩ := Option.bind_eq_some_iff.mp h
    simp only at h
    split at h
    · cases h
      intro e he
      obtain ⟨o, ho, rfl⟩ := List.mem_filterMap.mp he
      obtain ⟨⟨k, j⟩, hmem, hkey⟩ := Json.exists_of_mapM_eq_some hfound _ ho
      obtain ⟨name, -, hname⟩ := Option.map_eq_some_iff.mp hkey
      obtain ⟨s, -, rfl⟩ := Option.map_eq_some_iff.mp hname
      exact List.mem_map_of_mem hmem
    · cases h
  | placed items =>
    rw [members?] at h
    split at h
    · cases h
      exact fun e he => (List.of_mem_zip he).2
    · cases h

theorem Json.Ranged.of_tagged? {j : Json} (hj : Ranged j) {level : Nat} {kind : String}
    {fields : Fields} (h : j.tagged? level = some (kind, fields)) :
    ∀ k ∈ fields.values, Ranged k := by
  unfold tagged? at h
  split at h
  next members =>
    cases hj with
    | object hmembers =>
    split at h
    · simp only at h
      split at h
      · cases h
        simp only [Fields.values, List.map_map, List.forall_mem_map]
        exact fun m hm => hmembers m (List.mem_filter.mp hm).1
      · cases h
    · cases h
  next tag items =>
    cases hj with
    | array hitems =>
    split at h
    · cases h
      exact fun k hk => hitems k (List.mem_cons_of_mem _ hk)
    · cases h
  next => cases h

theorem Members.isFinite_of_required {m : Members} (hm : ∀ e ∈ m.entries, e.2.Ranged)
    {name : String} {x : Float} (h : m.required name Json.float? = some x) :
    x.isFinite = true := by
  obtain ⟨j, hj, hx⟩ := Option.bind_eq_some_iff.mp h
  obtain ⟨front, back, hentries, -⟩ := List.lookup_eq_some_iff.mp hj
  have hranged := hm (name, j) (by simp [hentries])
  cases hranged with
  | int hn =>
    cases hx
    exact Json.isFinite_ofInt hn
  | float hfinite =>
    cases hx
    exact hfinite
  | null | bool | string | array | object | unreadable => cases hx

end Backlog
