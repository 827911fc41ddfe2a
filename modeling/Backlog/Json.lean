/-
# JSON values

A `Json` value is what a JSON text stands for, except that members of an object keep their
order and may repeat a name.  Integers within the range of 64-bit words are kept apart from
other numbers, and a text may hold parts that are well formed and yet stand for no value: a
string with half of a surrogate pair, or a number beyond the range of floats.  Such parts are
`unreadable`; they do no harm where they are skipped.

* `Json.depth`: how deeply arrays and objects are nested;
* `Json.readable`: whether no part is unreadable;
* `Json.ofFloat`: a float as JSON, `null` if it is not finite.
-/

namespace Backlog

inductive Json
  | null
  | bool (b : Bool)
  /-- An integer within the range of signed or of unsigned 64-bit words. -/
  | int (n : Int)
  /-- Any other number. -/
  | float (x : Float)
  | string (s : String)
  | array (items : List Json)
  | object (members : List (String × Json))
  /-- Well formed, but without a value. -/
  | unreadable

namespace Json

instance : Inhabited Json := ⟨null⟩

/-- A float as JSON.  Infinities and what is not a number become `null`. -/
def ofFloat (x : Float) : Json := if x.isFinite then float x else null

/-- An optional value as JSON: `null` for none. -/
def ofOption {α : Type} (f : α → Json) : Option α → Json
  | none => null
  | some a => f a

mutual

/-- How deeply arrays and objects are nested in a value. -/
def depth : Json → Nat
  | array items => depthOfItems items + 1
  | object members => depthOfMembers members + 1
  | _ => 0

def depthOfItems : List Json → Nat
  | [] => 0
  | j :: rest => max j.depth (depthOfItems rest)

def depthOfMembers : List (String × Json) → Nat
  | [] => 0
  | (_, j) :: rest => max j.depth (depthOfMembers rest)

end

mutual

/-- Whether every part of a value can be read. -/
def readable : Json → Bool
  | unreadable => false
  | array items => readableItems items
  | object members => readableMembers members
  | _ => true

def readableItems : List Json → Bool
  | [] => true
  | j :: rest => j.readable && readableItems rest

def readableMembers : List (String × Json) → Bool
  | [] => true
  | (_, j) :: rest => j.readable && readableMembers rest

end

end Json

end Backlog
