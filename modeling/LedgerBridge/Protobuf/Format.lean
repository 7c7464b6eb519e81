import LedgerBridge.Protobuf.Wire

/-!
# Message formats

The format of a record as a protobuf message: a list of fields, each of which merges one occurrence
into the record and writes the record's value of it.

* a `Kind` is a kind of field value: numbers, bytes, texts, messages, and lists of them;
* `Field.of` makes a field from a kind and the place of its value in the record;
* `Format.decode` reads a message: fields in any order, unknown ones passed over, the last number,
  text or byte string wins, messages are merged, lists grow;
* `Format.encode` writes the fields in their order and leaves out those with the value that a
  missing field has.
-/

namespace LedgerBridge.Protobuf

/-- A kind of field value. -/
structure Kind (β : Type) where
  /-- The shape of one occurrence. -/
  wire : WireType
  /-- The value of a field that does not occur. -/
  missing : β
  /-- The value after one more occurrence, below `depth` levels of messages. -/
  merge : (depth : Nat) → β → Bytes → Except DecodeError (β × Bytes)
  /-- The occurrences that a value has in a field of a given number. -/
  write : (number : Nat) → β → Bytes

/-- A field of a record. -/
structure Field (α : Type) where
  number : Nat
  name : String
  merge : (depth : Nat) → WireType → α → Bytes → Except DecodeError (α × Bytes)
  write : α → Bytes

/-- The field of a kind whose value is at a place of the record. -/
def Field.of {α β : Type} (number : Nat) (name : String) (kind : Kind β) (get : α → β)
    (set : β → α → α) : Field α where
  number := number
  name := name
  merge depth wire a s :=
    if wire = kind.wire then do
      let (b, r) ← kind.merge depth (get a) s
      return (set b a, r)
    else refuse (.unexpectedWireType wire kind.wire)
  write a := kind.write number (get a)

/-- The format of a record. -/
structure Format (α : Type) where
  name : String
  missing : α
  fields : List (Field α)

namespace Format

variable {α : Type}

/-- The record after the field with a given key. -/
def mergeField (f : Format α) (depth : Nat) (key : Key) (a : α) (s : Bytes) :
    Except DecodeError (α × Bytes) :=
  match f.fields.find? (·.number == key.number) with
  | some field =>
    match field.merge depth key.wire a s with
    | .ok result => .ok result
    | .error e => .error (e.within f.name field.name)
  | none => do return (a, ← skipField depth key s)

/-- The record after the fields in front of the last `stop` bytes. -/
def mergeFields (f : Format α) (depth stop : Nat) :
    (fuel : Nat) → α → Bytes → Except DecodeError (α × Bytes)
  | 0, a, s => .ok (a, s)
  | fuel + 1, a, s =>
    if s.length ≤ stop then .ok (a, s)
    else do
      let (key, r) ← readKey s
      let (a, r) ← f.mergeField depth key a r
      mergeFields f depth stop fuel a r

/-- The levels of messages and groups a message may have. -/
def levels : Nat := 100

/-- The record that a byte string encodes. -/
def decode (f : Format α) (s : Bytes) : Except DecodeError α :=
  (·.1) <$> f.mergeFields levels 0 s.length f.missing s

/-- The canonical encoding of a record. -/
def encode (f : Format α) (a : α) : Bytes := f.fields.flatMap (·.write a)

/-- The record after a message in front of other bytes, its length first. -/
def mergeDelimited (f : Format α) (depth : Nat) (a : α) (s : Bytes) :
    Except DecodeError (α × Bytes) :=
  match depth with
  | 0 => refuse .tooDeep
  | depth + 1 => do
    let (n, r) ← readVarint s
    if r.length < n then refuse .bufferUnderflow
    else do
      let stop := r.length - n
      let (a, r) ← f.mergeFields depth stop r.length a r
      if r.length = stop then return (a, r) else refuse .lengthExceeded

end Format

/-! ### Kinds -/

/-- A byte string behind its length. -/
def readDelimited (s : Bytes) : Except DecodeError (Bytes × Bytes) := do
  let (n, r) ← readVarint s
  if r.length < n then refuse .bufferUnderflow else return (r.take n, r.drop n)

/-- A field with a byte string behind its length. -/
def writeDelimited (number : Nat) (b : Bytes) : Bytes :=
  writeKey ⟨number, .lengthDelimited⟩ ++ writeVarint b.length ++ b

/-- A field with a number. -/
def writeNumber (number n : Nat) : Bytes := writeKey ⟨number, .varint⟩ ++ writeVarint n

namespace Kind

/-- Numbers of 64 bits. -/
def uint64 : Kind UInt64 where
  wire := .varint
  missing := 0
  merge _ _ s := do
    let (n, r) ← readVarint s
    return (UInt64.ofNat n, r)
  write number n := if n = 0 then [] else writeNumber number n.toNat

/-- Signed numbers of 32 bits: the low half of the varint, which is written with its sign. -/
def int32 : Kind Int32 where
  wire := .varint
  missing := 0
  merge _ _ s := do
    let (n, r) ← readVarint s
    return ((UInt32.ofNat n).toInt32, r)
  write number n := if n = 0 then [] else writeNumber number n.toInt64.toUInt64.toNat

/-- Byte strings. -/
def bytes : Kind Bytes where
  wire := .lengthDelimited
  missing := []
  merge _ _ s := readDelimited s
  write number b := if b = [] then [] else writeDelimited number b

/-- Texts. -/
def text : Kind String where
  wire := .lengthDelimited
  missing := ""
  merge _ _ s := do
    let (b, r) ← readDelimited s
    match Utf8.decode? b with
    | some t => return (t, r)
    | none => refuse .notUtf8
  write number t := if t = "" then [] else writeDelimited number (Utf8.encode t)

/-- Lists of byte strings. -/
def manyBytes : Kind (List Bytes) where
  wire := .lengthDelimited
  missing := []
  merge _ bs s := do
    let (b, r) ← readDelimited s
    return (bs ++ [b], r)
  write number bs := bs.flatMap (writeDelimited number)

/-- Messages, which may be absent. -/
def message {β : Type} (f : Format β) : Kind (Option β) where
  wire := .lengthDelimited
  missing := none
  merge depth b s := do
    let (b, r) ← f.mergeDelimited depth (b.getD f.missing) s
    return (some b, r)
  write number b := b.elim [] fun b => writeDelimited number (f.encode b)

/-- Lists of messages. -/
def manyMessages {β : Type} (f : Format β) : Kind (List β) where
  wire := .lengthDelimited
  missing := []
  merge depth bs s := do
    let (b, r) ← f.mergeDelimited depth f.missing s
    return (bs ++ [b], r)
  write number bs := bs.flatMap fun b => writeDelimited number (f.encode b)

end Kind

end LedgerBridge.Protobuf
