/-
# Values of YAML documents

A `Value` is what a node stands for when nothing is known about it beforehand.  A mapping is a
list of pairs, and both sides may be any values.  A tag that is the document's own business is
kept.

* `Value.same`: whether two values count as one key;
* `Value.hasDistinctKeys`: whether no mapping has a key twice;
* `Value.isUntagged`: whether no part keeps a tag;
* `Value.toJson?`: the value as JSON, where every key is a text;
* `Value.ofJson?`: the value that a JSON value is.
-/
import Backlog.Json.Number

namespace Backlog.Yaml

inductive Value
  | null
  | bool (b : Bool)
  /-- An integer within the range of signed or of unsigned 64-bit words. -/
  | int (n : Int)
  | float (x : Float)
  | string (s : String)
  | sequence (items : List Value)
  | mapping (pairs : List (Value × Value))
  | tagged (tag : String) (v : Value)

namespace Value

instance : Inhabited Value := ⟨null⟩

/-! ## 1. Keys -/

/-- A tag without the mark in front. -/
def bareTag (tag : String) : String :=
  if tag.startsWith "!" && tag.length != 1 then (tag.drop 1).toString else tag

/-- Whether two floats count as one key: not a number does. -/
def sameFloat (x y : Float) : Bool := (x.isNaN && y.isNaN) || x == y

mutual

/-- Whether two values count as one key.  The order of pairs does not matter. -/
def same : Value → Value → Bool
  | null, null => true
  | bool a, bool b => a == b
  | int m, int n => m == n
  | float x, float y => sameFloat x y
  | string s, string t => s == t
  | sequence xs, sequence ys => sameItems xs ys
  | mapping ps, mapping qs => ps.length == qs.length && pairsWithin ps qs
  | tagged s v, tagged t w => bareTag s == bareTag t && v.same w
  | _, _ => false

def sameItems : List Value → List Value → Bool
  | [], [] => true
  | v :: vs, w :: ws => v.same w && sameItems vs ws
  | _, _ => false

/-- Whether each of the first pairs is among the second ones. -/
def pairsWithin : List (Value × Value) → List (Value × Value) → Bool
  | [], _ => true
  | (k, v) :: rest, qs => qs.any (fun q => k.same q.1 && v.same q.2) && pairsWithin rest qs

end

/-- Whether no key comes twice. -/
def distinct : List (Value × Value) → Bool
  | [] => true
  | (k, _) :: rest => !rest.any (fun q => k.same q.1) && distinct rest

mutual

/-- Whether no mapping has a key twice. -/
def hasDistinctKeys : Value → Bool
  | sequence items => distinctInItems items
  | mapping pairs => distinct pairs && distinctInPairs pairs
  | tagged _ v => v.hasDistinctKeys
  | _ => true

def distinctInItems : List Value → Bool
  | [] => true
  | v :: rest => v.hasDistinctKeys && distinctInItems rest

def distinctInPairs : List (Value × Value) → Bool
  | [] => true
  | (k, v) :: rest => k.hasDistinctKeys && v.hasDistinctKeys && distinctInPairs rest

end

/-! ## 2. Tags -/

mutual

/-- Whether no part keeps a tag. -/
def isUntagged : Value → Bool
  | sequence items => untaggedItems items
  | mapping pairs => untaggedPairs pairs
  | tagged _ _ => false
  | _ => true

def untaggedItems : List Value → Bool
  | [] => true
  | v :: rest => v.isUntagged && untaggedItems rest

def untaggedPairs : List (Value × Value) → Bool
  | [] => true
  | (k, v) :: rest => k.isUntagged && v.isUntagged && untaggedPairs rest

end

/-! ## 3. JSON -/

/-- The text of a key, if it has one: texts, truth values and numbers that are finite. -/
def keyText? : Value → Option String
  | string s => some s
  | bool b => some (if b then "true" else "false")
  | int n => some (toString n)
  | float x => if x.isFinite then some (Json.floatText x) else none
  | _ => none

mutual

/-- A value as JSON.  A tag becomes the name of the only member of an object. -/
def toJson? : Value → Option Json
  | null => some .null
  | bool b => some (.bool b)
  | int n => some (.int n)
  | float x => some (.ofFloat x)
  | string s => some (.string s)
  | sequence items => (itemsToJson? items).map .array
  | mapping pairs => (pairsToJson? pairs).map .object
  | tagged tag v => v.toJson?.map fun j => .object [("!" ++ bareTag tag, j)]

def itemsToJson? : List Value → Option (List Json)
  | [] => some []
  | v :: rest => do
    let j ← v.toJson?
    let js ← itemsToJson? rest
    pure (j :: js)

def pairsToJson? : List (Value × Value) → Option (List (String × Json))
  | [] => some []
  | (k, v) :: rest => do
    let name ← k.keyText?
    let j ← v.toJson?
    let js ← pairsToJson? rest
    pure ((name, j) :: js)

end

mutual

/-- The value that a JSON value is.  No object may have a name twice. -/
def ofJson? : Json → Option Value
  | .null => some null
  | .bool b => some (bool b)
  | .int n => some (int n)
  | .float x => some (float x)
  | .string s => some (string s)
  | .array items => (ofItems? items).map sequence
  | .object members =>
    if (members.map Prod.fst).Nodup then (ofMembers? members).map mapping else none
  | .unreadable => none

def ofItems? : List Json → Option (List Value)
  | [] => some []
  | j :: rest => do
    let v ← ofJson? j
    let vs ← ofItems? rest
    pure (v :: vs)

def ofMembers? : List (String × Json) → Option (List (Value × Value))
  | [] => some []
  | (name, j) :: rest => do
    let v ← ofJson? j
    let vs ← ofMembers? rest
    pure ((string name, v) :: vs)

end

end Value

end Backlog.Yaml
