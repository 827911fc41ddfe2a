/-
# Reading records and variants that were written

A record is written as an object whose members are its fields in order, and a variant as one whose
first member names its kind.  The readers take them apart again.

* `int64?_toInt` and so on, `list?_map`, `nullable?_ofOption`: the values of fields;
* `object_bind`, `required_bind` and so on: the fields of a record, one after the other;
* `tagged?_bind`: the kind of a variant and its fields;
* `Flat`: values without arrays or objects in them, all that a variant has for fields here.
-/
import Backlog.Proofs.Json.Printed
import Backlog.Json.Decode

namespace Backlog.Json

/-! ## 1. Plain values -/

theorem int64?_toInt (n : Int64) : (int n.toInt).int64? = some n := by
  have hlo := n.minValue_le_toInt
  have hhi := n.toInt_le
  rw [int64?, intFrom?, if_pos ⟨hlo, hhi⟩, Option.map_some, Int64.ofInt_toInt]

theorem int32?_toInt (n : Int32) : (int n.toInt).int32? = some n := by
  have hlo := n.minValue_le_toInt
  have hhi := n.toInt_le
  rw [int32?, intFrom?, if_pos ⟨hlo, hhi⟩, Option.map_some, Int32.ofInt_toInt]

theorem word64?_toNat (w : UInt64) : (int w.toNat).word64? = some w := by
  have hw := w.toNat_lt
  have hrange : (0 : Int) ≤ w.toNat ∧ (w.toNat : Int) ≤ UInt64.size - 1 := by
    constructor
    · omega
    · have hsize : UInt64.size = 2 ^ 64 := rfl
      omega
  rw [word64?, intFrom?, if_pos hrange, Option.map_some, Int.toNat_natCast, UInt64.ofNat_toNat]

theorem byte?_toNat (b : UInt8) : (int b.toNat).byte? = some b := by
  have hb := b.toNat_lt
  have hrange : (0 : Int) ≤ b.toNat ∧ (b.toNat : Int) ≤ 255 := by omega
  rw [byte?, intFrom?, if_pos hrange, Option.map_some, Int.toNat_natCast, UInt8.ofNat_toNat]

theorem printable_int64 (n : Int64) : Printable (int n.toInt) := by
  have hlo := n.minValue_le_toInt
  have hhi := n.toInt_le
  have hmax : Int64.maxValue.toInt < UInt64.size := by decide
  exact .int hlo (by omega)

theorem printable_int32 (n : Int32) : Printable (int n.toInt) := by
  have hlo := n.minValue_le_toInt
  have hhi := n.toInt_le
  have hmin : Int64.minValue.toInt ≤ Int32.minValue.toInt := by decide
  have hmax : Int32.maxValue.toInt < UInt64.size := by decide
  exact .int (by omega) (by omega)

theorem printable_nat {n : Nat} (h : n < UInt64.size) : Printable (int n) := by
  have hmin : Int64.minValue.toInt ≤ 0 := by decide
  exact .int (by omega) (by omega)

theorem printable_word64 (w : UInt64) : Printable (int w.toNat) := printable_nat w.toNat_lt

/-! ## 2. Lists and options -/

section

variable {α : Type} {f : Json → Option α} {g : α → Json}

theorem mapM_map_some : ∀ {as : List α}, (∀ a ∈ as, f (g a) = some a) →
    (as.map g).mapM f = some as
  | [], _ => rfl
  | a :: as, h => by
    have ha := h a List.mem_cons_self
    have has := mapM_map_some fun b hb => h b (List.mem_cons_of_mem a hb)
    rw [List.map_cons, List.mapM_cons, ha, has]
    rfl

theorem list?_map {as : List α} (h : ∀ a ∈ as, f (g a) = some a) :
    (array (as.map g)).list? f = some as := mapM_map_some h

/-- A value that is written as `null` would be read as none. -/
theorem nullable?_ofOption (h : ∀ a, f (g a) = some a) (hnull : ∀ a, g a ≠ null)
    (o : Option α) : (ofOption g o).nullable? f = some o := by
  cases o with
  | none => rfl
  | some a =>
    have hsome : ∀ j : Json, j ≠ null → j.nullable? f = (f j).map some := by
      intro j hj
      cases j <;> first | rfl | exact absurd rfl hj
    rw [ofOption, hsome _ (hnull a), h a]
    rfl

theorem printable_ofOption (h : ∀ a, Printable (g a)) (o : Option α) :
    Printable (ofOption g o) := by
  cases o with
  | none => exact .null
  | some a => exact h a

theorem printable_array_map {as : List α} (h : ∀ a ∈ as, Printable (g a)) :
    Printable (array (as.map g)) :=
  .array (List.forall_mem_map.mpr h)

end

/-! ## 3. Records -/

theorem mapM_named_keys {names : List String} : ∀ {members : List (String × Json)},
    (∀ m ∈ members, m.1 ∈ names) →
    (members.map fun m => (FieldKey.name m.1, m.2)).mapM
        (fun (k, j) => (k.nameAmong? names).map (·.map (·, j))) = some (members.map some)
  | [], _ => rfl
  | m :: members, h => by
    have hm : (FieldKey.name m.1).nameAmong? names = some (some m.1) := by
      simp [FieldKey.nameAmong?, h m List.mem_cons_self]
    have hrest := mapM_named_keys fun n hn => h n (List.mem_cons_of_mem m hn)
    simp only [List.map_cons, List.mapM_cons, hrest, hm]
    rfl

/-- Fields that are written under their names are all read. -/
theorem members?_keyed {names : List String} {members : List (String × Json)}
    (hnames : members.map Prod.fst = names) (h : names.Nodup) :
    (Fields.keyed (members.map fun m => (.name m.1, m.2))).members? names
      = some ⟨false, members⟩ := by
  have hmem : ∀ m ∈ members, m.1 ∈ names := fun m hm => hnames ▸ List.mem_map_of_mem hm
  simp [Fields.members?, mapM_named_keys hmem, List.filterMap_map, hnames, h]

end Backlog.Json

namespace Backlog.Members

variable {α β : Type} {m : Members} {name : String} {j : Json} {f : Json → Option α} {a : α} {b : β}

/-- One field of a record is read, and the next ones go on. -/
theorem required_bind {next : α → Option β} (h : m.entries.lookup name = some j)
    (hf : f j = some a) (hnext : next a = some b) : m.required name f >>= next = some b := by
  rw [required, h, Option.bind_some, hf]
  exact hnext

theorem optional_bind {o : Option α} {next : Option α → Option β}
    (h : m.entries.lookup name = some j) (hf : j.nullable? f = some o)
    (hnext : next o = some b) : m.optional name f >>= next = some b := by
  rw [optional, h]
  simp only [hf]
  exact hnext

theorem defaulted_bind {d : α} {next : α → Option β} (h : m.entries.lookup name = some j)
    (hf : f j = some a) (hnext : next a = some b) : m.defaulted name d f >>= next = some b := by
  rw [defaulted, h]
  simp only [hf]
  exact hnext

end Backlog.Members

namespace Backlog.Json

/-- The fields of a record that was written, and what is read off them. -/
theorem keyed_bind {β : Type} {names : List String} {members : List (String × Json)}
    {next : Members → Option β} {b : β} (hnames : members.map Prod.fst = names) (h : names.Nodup)
    (hnext : next ⟨false, members⟩ = some b) :
    (Fields.keyed (members.map fun m => (.name m.1, m.2))).members? names >>= next = some b := by
  rw [members?_keyed hnames h]
  exact hnext

theorem object_bind {β : Type} {names : List String} {members : List (String × Json)}
    {next : Members → Option β} {b : β} (hnames : members.map Prod.fst = names) (h : names.Nodup)
    (hnext : next ⟨false, members⟩ = some b) :
    (object members).members? names >>= next = some b := keyed_bind hnames h hnext

/-! ## 4. Variants -/

/-- A value without arrays or objects in it. -/
def Flat : Json → Prop
  | array _ | object _ | unreadable => False
  | _ => True

theorem Flat.keepable {j : Json} (h : Flat j) {level : Nat} (hlevel : level ≤ depthLimit) :
    j.keepable level = true := by
  cases j <;> simp_all [Flat, Json.keepable, readable, depth]

/-- A variant whose fields are flat is read as what it is, wherever it stands. -/
theorem tagged?_object {level : Nat} (hlevel : level < depthLimit) (tag : String)
    {members : List (String × Json)} (hflat : ∀ m ∈ members, Flat m.2)
    (htype : ∀ m ∈ members, m.1 ≠ "type") :
    (object (("type", string tag) :: members)).tagged? level
      = some (tag, .keyed (members.map fun m => (.name m.1, m.2))) := by
  have htagged : members.filter (·.1 == "type") = [] := by
    simpa [List.filter_eq_nil_iff] using htype
  have hrest : members.filter (·.1 != "type") = members := by
    simpa [List.filter_eq_self] using htype
  have hkeep : members.all (fun m => m.2.keepable (level + 1)) = true :=
    List.all_eq_true.mpr fun m hm => (hflat m hm).keepable hlevel
  simp [tagged?, htagged, hrest, hkeep]

theorem tagged?_bind {β : Type} {level : Nat} (hlevel : level < depthLimit) {tag : String}
    (members : List (String × Json)) {next : String × Fields → Option β} {b : β}
    (hflat : ∀ m ∈ members, Flat m.2) (htype : ∀ m ∈ members, m.1 ≠ "type")
    (hnext : next (tag, .keyed (members.map fun m => (.name m.1, m.2))) = some b) :
    (object (("type", string tag) :: members)).tagged? level >>= next = some b := by
  rw [tagged?_object hlevel tag hflat htype]
  exact hnext

end Backlog.Json
