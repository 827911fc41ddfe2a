/-
# Reading records and variants off JSON values

A record is read off an object by the names of its fields, in any order, or off an array by
their positions.  A variant is an object with a member `type`, or an array that starts with the
name of the variant.

* `Fields`: the fields of a record as they are written;
* `Members`, `Fields.members?`: the fields by their names.  Unknown members of an object are
  passed over; a known one may not come twice, and an array may not be too long;
* `Members.required`, `Members.optional`, `Members.defaulted`: the three kinds of fields;
* `Json.tagged?`: the name of a variant and what else is there.
-/
import Backlog.Json

namespace Backlog

/-! ## 1. Plain values -/

namespace Json

def text? : Json → Option String
  | string s => some s
  | _ => none

def bool? : Json → Option Bool
  | bool b => some b
  | _ => none

/-- An integer from `lo` to `hi`. -/
def intFrom? (lo hi : Int) : Json → Option Int
  | int n => if lo ≤ n ∧ n ≤ hi then some n else none
  | _ => none

def int64? (j : Json) : Option Int64 :=
  (j.intFrom? Int64.minValue.toInt Int64.maxValue.toInt).map Int64.ofInt

def int32? (j : Json) : Option Int32 :=
  (j.intFrom? Int32.minValue.toInt Int32.maxValue.toInt).map Int32.ofInt

def word64? (j : Json) : Option UInt64 :=
  (j.intFrom? 0 (UInt64.size - 1)).map (.ofNat ·.toNat)

def byte? (j : Json) : Option UInt8 := (j.intFrom? 0 255).map (.ofNat ·.toNat)

/-- A number as a float.  Integers are accepted. -/
def float? : Json → Option Float
  | int n => some (Float.ofInt n)
  | float x => some x
  | _ => none

/-- The items of an array. -/
def list? {α : Type} (f : Json → Option α) : Json → Option (List α)
  | array items => items.mapM f
  | _ => none

/-- `null` for none. -/
def nullable? {α : Type} (f : Json → Option α) : Json → Option (Option α)
  | null => some none
  | j => (f j).map some

end Json

/-! ## 2. Fields -/

/-- How a field is called. -/
inductive FieldKey
  | name (s : String)
  /-- By the number of the field, counted from 0. -/
  | place (n : Nat)
  /-- By nothing that calls a field. -/
  | other
deriving DecidableEq

/-- The fields of a record as they are written: in any order, each with its key, or all in
their places. -/
inductive Fields
  | keyed (entries : List (FieldKey × Json))
  | placed (items : List Json)

/-- The fields of a record that are there, and whether they were given by position. -/
structure Members where
  positional : Bool
  entries : List (String × Json)

/-- The field that a key calls, of those called `names`: `some none` for none of them, and
`none` if no field is called like that. -/
def FieldKey.nameAmong? (names : List String) : FieldKey → Option (Option String)
  | name s => some (if names.contains s then some s else none)
  | place n => some names[n]?
  | other => none

namespace Fields

/-- The fields called `names`. -/
def members? (names : List String) : Fields → Option Members
  | keyed entries => do
    let found ← entries.mapM fun (k, j) => (k.nameAmong? names).map (·.map (·, j))
    let known := found.filterMap id
    if (known.map Prod.fst).Nodup then pure ⟨false, known⟩ else none
  | placed items => if items.length ≤ names.length then some ⟨true, names.zip items⟩ else none

/-- Whether nothing is given by position: all that a variant without fields asks for. -/
def isFieldless : Fields → Bool
  | keyed _ => true
  | placed items => items.isEmpty

end Fields

/-- The fields that an object or an array holds. -/
def Json.fields? : Json → Option Fields
  | object members => some (.keyed (members.map fun m => (.name m.1, m.2)))
  | array items => some (.placed items)
  | _ => none

/-- Reads the fields called `names`. -/
def Json.members? (names : List String) (j : Json) : Option Members :=
  j.fields?.bind (Fields.members? names)

namespace Members

variable {α : Type}

/-- A field that has to be there. -/
def required (m : Members) (name : String) (f : Json → Option α) : Option α :=
  (m.entries.lookup name).bind f

/-- A field that may be `null`, and may be left out where fields are given by name. -/
def optional (m : Members) (name : String) (f : Json → Option α) : Option (Option α) :=
  match m.entries.lookup name with
  | some j => j.nullable? f
  | none => if m.positional then none else some none

/-- A field that takes a value of its own when it is left out. -/
def defaulted (m : Members) (name : String) (d : α) (f : Json → Option α) : Option α :=
  match m.entries.lookup name with
  | some j => f j
  | none => some d

end Members

/-! ## 3. Variants -/

/-- The deepest nesting that is read. -/
def Json.depthLimit : Nat := 127

/-- Whether a value that stands inside `level` arrays and objects can be kept for later. -/
def Json.keepable (level : Nat) (j : Json) : Bool := j.readable && j.depth + level ≤ depthLimit

/-- The name of a variant, and its fields: the other members of the object, or the other items
of the array.  The variant itself stands inside `level` arrays and objects. -/
def Json.tagged? (level : Nat) : Json → Option (String × Fields)
  | object members =>
    match members.filter (·.1 == "type") with
    | [(_, string tag)] =>
      let rest := members.filter (·.1 != "type")
      if rest.all fun m => m.2.keepable (level + 1) then
        some (tag, .keyed (rest.map fun m => (.name m.1, m.2)))
      else none
    | _ => none
  | array (string tag :: items) =>
    if items.all (keepable (level + 1)) then some (tag, .placed items) else none
  | _ => none

end Backlog
