import QueryRelay.Fields
import QueryRelay.Number.Bytes
import QueryRelay.Payload.Schema
import QueryRelay.Text.Utf8

/-!
# The binary form of messages

Numbers have a fixed width with the lowest byte first: eight bytes for integers, lengths and
floating-point numbers, four for the number of an alternative, one for truth values and for the mark
of what may be absent. Texts, lists and tables follow their length; products and alternatives are
their parts in order. Whatever follows a message is left unread.
-/

namespace QueryRelay

namespace Payload

/-- A length or another unsigned integer in eight bytes. -/
def wordBytes (n : Nat) : List UInt8 := Bytes.ofNat 8 n

/-- The number of an alternative in four bytes. -/
def indexBytes (n : Nat) : List UInt8 := Bytes.ofNat 4 n

/-- A text after its length in bytes. -/
def textBytes (s : String) : List UInt8 :=
  let bytes := Text.utf8 s
  wordBytes bytes.length ++ bytes

end Payload

mutual

/-- The binary form of a datum. -/
def Datum.toBytes : Datum → List UInt8
  | .bool b => [if b then 1 else 0]
  | .int n => Payload.wordBytes n.toUInt64.toNat
  | .natural n => Payload.wordBytes n.toNat
  | .float x => Payload.wordBytes x.bits.toNat
  | .text s => Payload.textBytes s
  | .list items => Payload.wordBytes items.length ++ itemBytes items
  | .table entries => Payload.wordBytes entries.length ++ entryBytes entries
  | .absent => [0]
  | .present content => 1 :: toBytes content
  | .product fields => fieldBytes fields
  | .variant index _ => Payload.indexBytes index
  | .wrapped index _ content => Payload.indexBytes index ++ toBytes content
  | .case index _ fields => Payload.indexBytes index ++ fieldBytes fields
termination_by structural d => d

/-- The binary forms of the items of a list. -/
def Datum.itemBytes : List Datum → List UInt8
  | [] => []
  | d :: rest => toBytes d ++ itemBytes rest
termination_by structural ds => ds

/-- The binary forms of the entries of a table, each after its name. -/
def Datum.entryBytes : List (String × Datum) → List UInt8
  | [] => []
  | (name, d) :: rest => Payload.textBytes name ++ toBytes d ++ entryBytes rest
termination_by structural es => es

/-- The binary forms of fields, without their names. -/
def Datum.fieldBytes : List (String × Datum) → List UInt8
  | [] => []
  | (_, d) :: rest => toBytes d ++ fieldBytes rest
termination_by structural fs => fs

end

namespace Payload

/-- Read eight bytes. -/
def readWord? (bytes : List UInt8) : Option (Nat × List UInt8) := Bytes.readNat? 8 bytes

/-- Read the number of an alternative. -/
def readIndex? (bytes : List UInt8) : Option (Nat × List UInt8) := Bytes.readNat? 4 bytes

/-- Read one of the bytes zero and one. -/
def readBool? : List UInt8 → Option (Bool × List UInt8)
  | 0 :: rest => some (false, rest)
  | 1 :: rest => some (true, rest)
  | _ => none

/-- Read a text after its length. -/
def readString? (bytes : List UInt8) : Option (String × List UInt8) := do
  let (length, rest) ← readWord? bytes
  let (front, rest) ← if length ≤ rest.length then Bytes.take? length rest else none
  let s ← Text.ofUtf8? front
  return (s, rest)

mutual

/-- Read a part of a shape. The fuel bounds the number of parts read. -/
def ofBytes? : Nat → Shape → List UInt8 → Option (Datum × List UInt8)
  | 0, _, _ => none
  | fuel + 1, shape, bytes =>
    match shape with
    | .bool => do
      let (b, rest) ← readBool? bytes
      return (.bool b, rest)
    | .int => do
      let (n, rest) ← readWord? bytes
      return (.int (UInt64.ofNat n).toInt64, rest)
    | .natural => do
      let (n, rest) ← readWord? bytes
      return (.natural (.ofNat n), rest)
    | .float => do
      let (n, rest) ← readWord? bytes
      return (.float ⟨.ofNat n⟩, rest)
    | .text => do
      let (s, rest) ← readString? bytes
      return (.text s, rest)
    | .list item => do
      let (count, rest) ← readWord? bytes
      let (items, rest) ← itemsOfBytes? fuel item count rest
      return (.list items, rest)
    | .table entry => do
      let (count, rest) ← readWord? bytes
      let (entries, rest) ← entriesOfBytes? fuel entry count rest
      return (.table (Fields.ofEntries entries), rest)
    | .sort name =>
      match name.definition with
      | .product fields => do
        let (parts, rest) ← fieldsOfBytes? fuel fields bytes
        return (.product parts, rest)
      | .choice alternatives => do
        let (index, rest) ← readIndex? bytes
        let (name, content) ← alternatives[index]?
        match content with
        | .empty => return (.variant index name, rest)
        | .single shape =>
          let (part, rest) ← ofBytes? fuel shape rest
          return (.wrapped index name part, rest)
        | .fields fields =>
          let (parts, rest) ← fieldsOfBytes? fuel fields rest
          return (.case index name parts, rest)
termination_by structural fuel => fuel

/-- Read a number of items. -/
def itemsOfBytes? : Nat → Shape → Nat → List UInt8 → Option (List Datum × List UInt8)
  | _, _, 0, bytes => some ([], bytes)
  | 0, _, _ + 1, _ => none
  | fuel + 1, shape, count + 1, bytes => do
    let (item, rest) ← ofBytes? fuel shape bytes
    let (items, rest) ← itemsOfBytes? fuel shape count rest
    return (item :: items, rest)
termination_by structural fuel => fuel

/-- Read a number of entries, each after its name. -/
def entriesOfBytes? :
    Nat → Shape → Nat → List UInt8 → Option (List (String × Datum) × List UInt8)
  | _, _, 0, bytes => some ([], bytes)
  | 0, _, _ + 1, _ => none
  | fuel + 1, shape, count + 1, bytes => do
    let (name, rest) ← readString? bytes
    let (entry, rest) ← ofBytes? fuel shape rest
    let (entries, rest) ← entriesOfBytes? fuel shape count rest
    return ((name, entry) :: entries, rest)
termination_by structural fuel => fuel

/-- Read fields in order. -/
def fieldsOfBytes? : Nat → List Field → List UInt8 → Option (Fields Datum × List UInt8)
  | _, [], bytes => some ([], bytes)
  | 0, _ :: _, _ => none
  | fuel + 1, f :: fields, bytes => do
    let (part, rest) ← optionalOfBytes? fuel f.isOptional f.shape bytes
    let (parts, rest) ← fieldsOfBytes? fuel fields rest
    return ((f.name, part) :: parts, rest)
termination_by structural fuel => fuel

/-- Read a part that follows a mark if it may be absent. -/
def optionalOfBytes? : Nat → Bool → Shape → List UInt8 → Option (Datum × List UInt8)
  | 0, _, _, _ => none
  | fuel + 1, false, shape, bytes => ofBytes? fuel shape bytes
  | fuel + 1, true, shape, bytes =>
    match readBool? bytes with
    | some (true, rest) => (ofBytes? fuel shape rest).map fun (part, rest) => (.present part, rest)
    | some (false, rest) => some (.absent, rest)
    | none => none
termination_by structural fuel => fuel

end

/-- Enough fuel for some bytes: between two bytes that are read lie few parts without bytes of their
own. -/
def fuelFor (bytes : List UInt8) : Nat := 8 * (bytes.length + 1)

/-- Read a part of a shape off the front. -/
def readBytes? (shape : Shape) (bytes : List UInt8) : Option Datum :=
  (ofBytes? (fuelFor bytes) shape bytes).map Prod.fst

end Payload
end QueryRelay
