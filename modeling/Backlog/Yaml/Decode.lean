/-
# Reading records and variants off YAML documents

What a node is read as depends on what is asked for: a plain scalar is a text where a text is
asked for, whatever else it could stand for.  Only where nothing is known beforehand does a
scalar stand for what its writing suggests (`Decoding.value`).

* `Decoding`: reading with the anchors of a document at hand.  Following an alias has a price,
  so that a small document cannot unfold without bound;
* `text`, `bool`, `integer`, `unsigned`, `optional`, `list`: plain values and lists;
* `record`, `Entries`: the fields of a record;
* `value`: the untyped value of a node;
* `variant`: the name of a variant and its fields;
* `Document.decode?`: reads a whole document.
-/
import Backlog.Json.Decode
import Backlog.Yaml.Node
import Backlog.Yaml.Scalar
import Backlog.Yaml.Value

namespace Backlog.Yaml

/-! ## 1. Scalars of unknown type -/

/-- The tags of the types that every document knows. -/
def coreTag (name : String) : Tag := .ofString ("tag:yaml.org,2002:" ++ name)

/-- Whether a tag is the document's own business. -/
def Tag.isOwn (t : Tag) : Bool := Tag.bang.bytes.isPrefixOf t.bytes

/-- The name of a tag that is the document's own business, if it spells one. -/
def Properties.ownTag? (p : Properties) : Option String :=
  p.tag.bind fun t =>
    if !t.isOwn then none
    else if t = .bang then t.text?
    else Tag.text? ⟨t.bytes.drop 1⟩

/-- Whether an integer fits a signed or an unsigned word of so many bits. -/
def fits (bits : Nat) (n : Int) : Bool :=
  -(Nat.pow 2 (bits - 1) : Int) ≤ n && n < (Nat.pow 2 bits : Int)

/-- What a plain scalar stands for.  An integer that only fits a word of 128 bits is refused. -/
def plainValue? (text : String) : Option Value :=
  let other : Value :=
    match if hasLeadingZero text.toList then none else float? text with
    | some x => .float x
    | none => .string text
  if text.isEmpty || isNullWord text then some .null
  else
    match boolWord? text, integer? text with
    | some b, _ => some (.bool b)
    | none, some n => if fits 64 n then some (.int n) else if fits 128 n then none else some other
    | none, none => some other

/-- What a scalar stands for by its style. -/
def styledValue? (style : Style) (text : String) : Option Value :=
  if style = .plain then plainValue? text else some (.string text)

/-- What a scalar with a tag stands for.  A core tag says what it is, a tag that is the document's
own business and spells no name says nothing, and any other tag says that it is a text. -/
def taggedValue? (tag : Tag) (style : Style) (text : String) : Option Value :=
  if tag == coreTag "bool" then (boolWord? text).map .bool
  else if tag == coreTag "int" then
    (integer? text).bind fun n => if fits 64 n then some (.int n) else none
  else if tag == coreTag "float" then (float? text).map .float
  else if tag == coreTag "null" then if isNullWord text then some .null else none
  else if tag.isOwn then styledValue? style text
  else some (.string text)

/-! ## 2. Decoding -/

/-- Reads with a table of anchors at hand, and a number of aliases that may be followed. -/
abbrev Decoding := ReaderT (List (Nat × Node)) (StateT Nat Option)

namespace Decoding

variable {α : Type}

/-- Fails. -/
def fail : Decoding α := failure

/-- What has to be there. -/
def need (a : Option α) : Decoding α := a.elim fail pure

/-- The node itself; for an alias, the node that it stands for. -/
def follow : Node → Decoding Node
  | .reference number => do
    let left ← get
    if left = 0 then fail
    else
      set (left - 1)
      need ((← read).lookup number)
  | n => pure n

/-- The text of a scalar. -/
def text (n : Node) : Decoding String := do
  match ← follow n with
  | .scalar _ _ s => pure s
  | _ => fail

/-- The text of a scalar that is plain, or a literal block with a core tag. -/
def bareText (type : String) (n : Node) : Decoding String := do
  match ← follow n with
  | .scalar p style s =>
    if style = .plain ∨ (style = .literal ∧ p.tag = some (coreTag type)) then pure s else fail
  | _ => fail

def bool (n : Node) : Decoding Bool := do
  need (boolWord? (← bareText "bool" n))

/-- An integer from `lo` to `hi`. -/
def integer (lo hi : Int) (n : Node) : Decoding Int := do
  let i ← need (integer? (← bareText "int" n))
  if lo ≤ i ∧ i ≤ hi then pure i else fail

def int64 (n : Node) : Decoding Int64 :=
  .ofInt <$> integer Int64.minValue.toInt Int64.maxValue.toInt n

def int32 (n : Node) : Decoding Int32 :=
  .ofInt <$> integer Int32.minValue.toInt Int32.maxValue.toInt n

def word64 (n : Node) : Decoding UInt64 := do
  let i ← need (unsigned? (← bareText "int" n))
  if i < UInt64.size then pure (.ofNat i) else fail

/-- Whether a scalar stands for nothing where something may be left out. -/
def isAbsent (p : Properties) (style : Style) (s : String) : Decoding Bool :=
  if style ≠ .plain then pure false
  else
    match p.tag with
    | some t => if t ≠ coreTag "null" then pure false else if isNullWord s then pure true else fail
    | none => pure (s.isEmpty || isNullWord s)

/-- A value that may be left out. -/
def optional (f : Node → Decoding α) (n : Node) : Decoding (Option α) := do
  let n ← follow n
  match n with
  | .scalar p style s => if ← isAbsent p style s then pure none else some <$> f n
  | _ => some <$> f n

/-- The items of a sequence.  A node that is left out has none. -/
def list (f : Node → Decoding α) (n : Node) : Decoding (List α) := do
  match ← follow n with
  | .sequence _ items => items.mapM f
  | .scalar _ .plain "" => pure []
  | _ => fail

/-! ## 3. Records -/

/-- The fields of a record that are there. -/
abbrev Entries := List (String × Node)

/-- Reads the fields called `names`; others are passed over.  A node that is left out has no
fields. -/
def record (names : List String) (n : Node) : Decoding Entries := do
  match ← follow n with
  | .mapping _ pairs =>
    let entries ← pairs.mapM fun (k, v) => do pure (← text k, v)
    let known := entries.filter fun e => names.contains e.1
    if (known.map Prod.fst).Nodup then pure known else fail
  | .scalar _ .plain "" => pure []
  | _ => fail

/-- A field that has to be there. -/
def required (entries : Entries) (name : String) (f : Node → Decoding α) : Decoding α := do
  f (← need (entries.lookup name))

/-- A field that takes a value of its own when it is left out. -/
def defaulted (entries : Entries) (name : String) (d : α) (f : Node → Decoding α) : Decoding α :=
  match entries.lookup name with
  | some n => f n
  | none => pure d

/-- A field that may be left out, or be nothing. -/
def optionalField (entries : Entries) (name : String) (f : Node → Decoding α) :
    Decoding (Option α) :=
  defaulted entries name none (optional f)

/-! ## 4. Untyped values -/

/-- The deepest nesting of collections that is read. -/
def depthLimit : Nat := 128

/-- The value of a node that holds at most `depth` levels of collections. -/
def valueWithin : Nat → Node → Decoding Value
  | depth, n => do
    let keep (p : Properties) (v : Value) : Value := (p.ownTag?.map fun t => .tagged t v).getD v
    match ← follow n, depth with
    | .reference _, _ => fail
    | .scalar p style s, _ =>
      match p.ownTag?, p.tag with
      | some t, _ => .tagged t <$> need (styledValue? style s)
      | none, some t => need (taggedValue? t style s)
      | none, none => need (styledValue? style s)
    | .sequence .., 0 | .mapping .., 0 => fail
    | .sequence p items, depth + 1 =>
      keep p <$> .sequence <$> items.mapM (valueWithin depth)
    | .mapping p pairs, depth + 1 =>
      keep p <$> .mapping <$> pairs.mapM fun (k, v) => do
        pure (← valueWithin depth k, ← valueWithin depth v)

/-- The value of a node that stands inside `level` collections, whose keys have to differ. -/
def value (level : Nat) (n : Node) : Decoding Value := do
  let v ← valueWithin (depthLimit - level) n
  if v.hasDistinctKeys then pure v else fail

/-- A value that is kept without a tag. -/
def untagged (level : Nat) (n : Node) : Decoding Value := do
  let v ← valueWithin (depthLimit - level) n
  if v.isUntagged then pure v else fail

/-! ## 5. Variants -/

/-- The field that a key calls: by its name, or by its number. -/
def fieldKey : Value → FieldKey
  | .string s => .name s
  | .int n => if 0 ≤ n then .place n.toNat else .other
  | _ => .other

/-- A field of a variant.  None of them is a collection. -/
def fieldJson : Value → Json
  | .null => .null
  | .bool b => .bool b
  | .int n => .int n
  | .float x => .float x
  | .string s => .string s
  | _ => .unreadable

/-- The name of a variant, and its fields: the other pairs of the mapping, or the other items
of the sequence.  The variant itself stands inside `level` collections. -/
def variant (level : Nat) (n : Node) : Decoding (String × Fields) := do
  match ← follow n with
  | .mapping p pairs =>
    if p.ownTag?.isSome then fail
    else
      let pairs ← pairs.mapM fun (k, v) => do pure (← untagged (level + 1) k, v)
      let isType : Value × Node → Bool
        | (.string "type", _) => true
        | _ => false
      match pairs.filter isType with
      | [(_, tag)] =>
        let rest ← (pairs.filter (!isType ·)).mapM fun (k, v) => do
          pure (fieldKey k, fieldJson (← untagged (level + 1) v))
        pure (← text tag, .keyed rest)
      | _ => fail
  | .sequence p (tag :: items) =>
    if p.ownTag?.isSome then fail
    else
      let rest ← items.mapM fun v => fieldJson <$> untagged (level + 1) v
      pure (← text tag, .placed rest)
  | _ => fail

/-- One of several names: the text of a scalar, or the tag of one that stands for nothing. -/
def choice (choose? : String → Option α) (n : Node) : Decoding α := do
  match ← follow n with
  | .scalar p style s =>
    match p.ownTag? with
    | none => need (choose? s)
    | some t =>
      if style = .plain ∧ (s.isEmpty ∨ isNullWord s) then need (choose? t) else fail
  | _ => fail

end Decoding

/-! ## 6. Documents -/

/-- Reads a document.  One without a root is read as a node that is left out. -/
def Document.decode? {α : Type} (f : Node → Decoding α) (d : Document) : Option α :=
  (((f (d.root.getD .empty)).run d.table).run d.aliasLimit).map Prod.fst

end Backlog.Yaml
