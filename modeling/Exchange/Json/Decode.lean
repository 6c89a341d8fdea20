import Exchange.Json.Syntax
import Exchange.Text.Quoted
/-!
# Reading JSON documents into records

A record is read from a JSON object member by member, in the order written.
A member's key names a field when it equals the field's name, or else when the
two are equal with letters folded to upper case (where `ſ` folds to `S` and the
Kelvin sign to `K`). A repeated key is read again on top of what the first one
left, so the last scalar wins and two objects merge. `null` empties an optional
field and leaves any other field as it was. A key that names no field is
skipped, or refused when the reading is strict.

A value of the wrong JSON type does not stop the reading: the first such
mismatch (or refused key) in document order is kept, and the reading goes on
with the field untouched. A mismatch names the place by the keys as the
document writes them, which may differ in case from the field names. An integer field takes only a plain decimal below
2^64; other numbers are mismatches that quote the literal.

A list field is read over its storage: see `Json.listSlot`.

Key definitions: `Json.FitError`, `Json.Fit`, `Json.Slot`, `Json.Stored`,
`Json.listSlot`, `Json.readRecord`.
-/

namespace Exchange.Json

/-- Where a value was read: the whole document, or a field of a record, by the
record's name and the path of keys, as written, from it. -/
inductive Place where
  | whole
  | field (record : String) (path : List String)
  deriving DecidableEq

/-- The place one field further down. -/
def Place.child (p : Place) (record name : String) : Place :=
  match p with
  | .whole => .field record [name]
  | .field r path => .field r (path ++ [name])

/-- Why a document does not fit the record it is read into. -/
inductive FitError where
  /-- A value of kind `found` where a value of type `target` belongs. -/
  | mismatch (found : String) (place : Place) (target : String)
  /-- A key that names no field, in a strict reading. -/
  | unknownField (key : String)
  deriving DecidableEq

/-- The message of a fit error. -/
def FitError.message : FitError → String
  | .mismatch found .whole target =>
    "json: cannot unmarshal " ++ found ++ " into Go value of type " ++ target
  | .mismatch found (.field r path) target =>
    "json: cannot unmarshal " ++ found ++ " into Go struct field " ++ r ++ "." ++
      ".".intercalate path ++ " of type " ++ target
  | .unknownField key => "json: unknown field " ++ Text.quote key

/-- What a reading left: the value, and the first error met, if any. -/
structure Fit (α : Type) where
  value : α
  error : Option FitError

/-- Keeps the earlier of two errors. -/
def firstError (a b : Option FitError) : Option FitError :=
  match a with
  | some e => some e
  | none => b

/-- The kind of a JSON value as a mismatch names it; a number is named
without its literal. -/
def Value.kindName : Value → String
  | .null => "null"
  | .bool _ => "bool"
  | .num _ => "number"
  | .str _ => "string"
  | .arr _ => "array"
  | .obj _ => "object"

/-- How one field is read: from the value, at a place, on top of the field's
current content. -/
abbrev Slot (α : Type) := Value → Place → α → Fit α

/-- A text field of a type named `target`. -/
def textSlot (target : String) : Slot String := fun v p cur =>
  match v with
  | .str s => ⟨s, none⟩
  | .null => ⟨cur, none⟩
  | other => ⟨cur, some (.mismatch other.kindName p target)⟩

/-- Whether a number literal is a plain decimal below 2^64, and its value. -/
def wordOfLiteral (t : String) : Option UInt64 :=
  if !t.isEmpty && t.all Char.isDigit then
    let n := t.foldl (fun n c => n * 10 + (c.toNat - '0'.toNat)) 0
    if n < UInt64.size then some n.toUInt64 else none
  else none

/-- An unsigned 64-bit integer field. -/
def wordSlot : Slot UInt64 := fun v p cur =>
  match v with
  | .num t =>
    match wordOfLiteral t with
    | some n => ⟨n, none⟩
    | none => ⟨cur, some (.mismatch ("number " ++ t) p "uint64")⟩
  | .null => ⟨cur, none⟩
  | other => ⟨cur, some (.mismatch other.kindName p "uint64")⟩

/-- An optional field: `null` empties it, anything else is read into its
content, or into `empty` when it has none. -/
def optionSlot {α : Type} (empty : α) (slot : Slot α) : Slot (Option α) := fun v p cur =>
  match v with
  | .null => ⟨none, none⟩
  | _ => let r := slot v p (cur.getD empty); ⟨some r.value, r.error⟩

/-- A list field as it is read, with the storage behind it: the items, and
past them the items a longer array read earlier into the same field left
there. -/
structure Stored (α : Type) where
  items : List α
  spare : List α

/-- An empty list with no storage. -/
def Stored.empty {α : Type} : Stored α := ⟨[], []⟩

/-- Reads the items of an array over stored items, position by position: item
`i` on top of what is stored at `i`, or on top of `empty` past the storage.
Gives the items read, the first error, and the storage past them. -/
def readItems {α : Type} (empty : α) (slot : Slot α) (p : Place) :
    List Value → List α → List α × Option FitError × List α
  | [], store => ([], none, store)
  | item :: items, store =>
    let r := slot item p (store.headD empty)
    let rest := readItems empty slot p items store.tail
    (r.value :: rest.1, firstError r.error rest.2.1, rest.2.2)

/-- A list field read from an array. The items are written over the list's
storage, so an item that leaves its place as it was (`null` into text) shows
what an earlier, longer array put there; the list then takes the array's
length and keeps the storage past it. An empty array or `null` gives an empty
list with no storage. -/
def listSlot {α : Type} (empty : α) (target : String) (slot : Slot α) : Slot (Stored α) :=
  fun v p cur =>
  match v with
  | .null => ⟨.empty, none⟩
  | .arr [] => ⟨.empty, none⟩
  | .arr items =>
    let r := readItems empty slot p items (cur.items ++ cur.spare)
    ⟨⟨r.1, r.2.2⟩, r.2.1⟩
  | other => ⟨cur, some (.mismatch other.kindName p target)⟩

theorem readItems_length {α : Type} (empty : α) (slot : Slot α) (p : Place)
    (items : List Value) : ∀ store : List α,
      (readItems empty slot p items store).1.length = items.length := by
  induction items with
  | nil => intro _; rfl
  | cons _ items ih =>
    intro store
    simp only [readItems, List.length_cons, ih store.tail]

/-- Letters folded for the loose match of keys to field names: each letter to
the least letter of its simple case-folding orbit. Field names are ASCII, so
only orbits that hold an ASCII letter matter: ASCII letters go to upper case,
`ſ` to `S` and the Kelvin sign to `K`. Dotted and dotless `i` have orbits of
their own and match nothing in ASCII. -/
def foldKeyChar (c : Char) : Char :=
  if c = '\u017F' then 'S'
  else if c = '\u212A' then 'K'
  else c.toUpper

/-- A key folded for the loose match. -/
def foldKey (s : String) : String := String.ofList (s.toList.map foldKeyChar)

/-- A field of a record: its JSON name and how it is read. -/
structure RecordField (α : Type) where
  name : String
  slot : Slot α

/-- A field read through an accessor and an update of the record. -/
def RecordField.on {α β : Type} (name : String) (slot : Slot β) (get : α → β)
    (set : α → β → α) : RecordField α :=
  ⟨name, fun v p a => let r := slot v p (get a); ⟨set a r.value, r.error⟩⟩

/-- The field a key names: the one of equal name, or else the first one of
equal folded name. -/
def fieldFor? {α : Type} (fields : List (RecordField α)) (key : String) :
    Option (RecordField α) :=
  match fields.find? (·.name == key) with
  | some f => some f
  | none => fields.find? fun f => foldKey f.name == foldKey key

/-- Reads an object's members into a record named `record`, in order. -/
def readMembers {α : Type} (record : String) (fields : List (RecordField α)) (strict : Bool)
    (p : Place) : List (String × Value) → Fit α → Fit α
  | [], acc => acc
  | (k, v) :: ms, acc =>
    match fieldFor? fields k with
    | some f =>
      let r := f.slot v (p.child record k) acc.value
      readMembers record fields strict p ms ⟨r.value, firstError acc.error r.error⟩
    | none =>
      if strict then
        let err := firstError acc.error (some (.unknownField k))
        readMembers record fields strict p ms ⟨acc.value, err⟩
      else readMembers record fields strict p ms acc

/-- A record field: read from an object member by member on top of its
current content; a record named `record` of the type named `target`. -/
def recordSlot {α : Type} (record target : String) (fields : List (RecordField α))
    (strict : Bool) : Slot α := fun v p cur =>
  match v with
  | .obj ms => readMembers record fields strict p ms ⟨cur, none⟩
  | .null => ⟨cur, none⟩
  | other => ⟨cur, some (.mismatch other.kindName p target)⟩

/-- Reads a whole document into a record that starts as `init`. RecordField paths in
messages start from `record`. -/
def readRecord {α : Type} (record target : String) (fields : List (RecordField α)) (strict : Bool)
    (init : α) (v : Value) : Fit α :=
  match v with
  | .obj ms => readMembers record fields strict .whole ms ⟨init, none⟩
  | .null => ⟨init, none⟩
  | other => ⟨init, some (.mismatch other.kindName .whole target)⟩

/-- Why a text could not be read into a record: it is no JSON document, or the
document does not fit. -/
inductive ReadError where
  | unreadable (e : SyntaxError)
  | fit (e : FitError)
  deriving DecidableEq

/-- The message of a read error. -/
def ReadError.message : ReadError → String
  | .unreadable e => e.message
  | .fit e => e.message

/-- Reads a text into a record: the text must be one JSON document, and the
first fit error, if any, fails the reading. -/
def readText {α : Type} (record target : String) (fields : List (RecordField α)) (strict : Bool)
    (init : α) (s : String) : Except ReadError α :=
  match parse s with
  | .error e => .error (.unreadable e)
  | .ok v =>
    let r := readRecord record target fields strict init v
    match r.error with
    | some e => .error (.fit e)
    | none => .ok r.value

end Exchange.Json
