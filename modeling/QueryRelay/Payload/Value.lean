import QueryRelay.Descriptor.Basic
import QueryRelay.Payload.Datum
import QueryRelay.Value.Basic

/-!
# Values and descriptors as data

The datum of a value and of a type descriptor, and the way back. A timestamp is its text.
-/

namespace QueryRelay

/-- What may be absent, as a datum. -/
def Datum.ofOption : Option Datum → Datum
  | some d => .present d
  | none => .absent

namespace Value

mutual

/-- The datum of a value. -/
def toDatum : Value → Datum
  | .null => .variant 0 "Null"
  | .bool b => .wrapped 1 "Bool" (.bool b)
  | .int n => .wrapped 2 "Int" (.int n)
  | .float x => .wrapped 3 "Float" (.float x)
  | .text s => .wrapped 4 "Str" (.text s)
  | .timestamp t => .wrapped 5 "Timestamp" (.text t.payloadText)
  | .list items => .wrapped 6 "List" (.list (itemsToData items))
  | .record id fields =>
    .wrapped 7 "Record" (.product [
      ("id", .ofOption (id.map fun i => .natural i.number)),
      ("fields", .table (fieldsToData fields))])
  | .ref id => .wrapped 8 "Ref" (.natural id.number)
termination_by structural v => v

/-- The data of the items of a list. -/
def itemsToData : List Value → List Datum
  | [] => []
  | v :: rest => toDatum v :: itemsToData rest
termination_by structural items => items

/-- The data of the fields of a record. -/
def fieldsToData : List (String × Value) → List (String × Datum)
  | [] => []
  | (name, v) :: rest => (name, toDatum v) :: fieldsToData rest
termination_by structural fields => fields

end

/-- An identity that may be absent. -/
def idOfDatum? : Datum → Option (Option ObjectId)
  | .absent => some none
  | .present (.natural n) => some (some ⟨n⟩)
  | _ => none

mutual

/-- The value that a datum stands for. -/
def ofDatum? : Datum → Option Value
  | .variant _ "Null" => some .null
  | .wrapped _ "Bool" (.bool b) => some (.bool b)
  | .wrapped _ "Int" (.int n) => some (.int n)
  | .wrapped _ "Float" (.float x) => some (.float x)
  | .wrapped _ "Str" (.text s) => some (.text s)
  | .wrapped _ "Timestamp" (.text s) => (Timestamp.readLenient s).toOption.map .timestamp
  | .wrapped _ "List" (.list items) => (itemsOfData? items).map .list
  | .wrapped _ "Record" (.product [(_, id), (_, .table entries)]) => do
    let id ← idOfDatum? id
    return .record id (← fieldsOfData? entries)
  | .wrapped _ "Ref" (.natural n) => some (.ref ⟨n⟩)
  | _ => none
termination_by structural d => d

/-- The items that data stand for. -/
def itemsOfData? : List Datum → Option (List Value)
  | [] => some []
  | d :: rest => do return (← ofDatum? d) :: (← itemsOfData? rest)
termination_by structural ds => ds

/-- The fields that named data stand for. -/
def fieldsOfData? : List (String × Datum) → Option (List (String × Value))
  | [] => some []
  | (name, d) :: rest => do return (name, ← ofDatum? d) :: (← fieldsOfData? rest)
termination_by structural fs => fs

end

end Value

namespace Descriptor

mutual

/-- The datum of a descriptor. -/
def toDatum : Descriptor → Datum
  | ⟨name, space, args, isCollection, isEnum, isNullable, members⟩ =>
    .product [
      ("name", .text name),
      ("namespace", .ofOption (space.map .text)),
      ("generic_args", .list (argsToData args)),
      ("is_collection", .bool isCollection),
      ("is_enum", .bool isEnum),
      ("is_nullable", .bool isNullable),
      ("members", .list (membersToData members))]
termination_by structural d => d

/-- The data of type arguments. -/
def argsToData : List Descriptor → List Datum
  | [] => []
  | d :: rest => toDatum d :: argsToData rest
termination_by structural ds => ds

/-- The data of members. -/
def membersToData : List (String × Descriptor) → List Datum
  | [] => []
  | (name, d) :: rest => .product [("name", .text name), ("ty", toDatum d)] :: membersToData rest
termination_by structural ms => ms

end

/-- A namespace that may be absent. -/
def spaceOfDatum? : Datum → Option (Option String)
  | .absent => some none
  | .present (.text s) => some (some s)
  | _ => none

mutual

/-- The descriptor that a datum stands for. -/
def ofDatum? : Datum → Option Descriptor
  | .product [
      (_, .text name), (_, space), (_, .list args), (_, .bool isCollection), (_, .bool isEnum),
      (_, .bool isNullable), (_, .list members)] => do
    let space ← spaceOfDatum? space
    let args ← argsOfData? args
    return ⟨name, space, args, isCollection, isEnum, isNullable, ← membersOfData? members⟩
  | _ => none
termination_by structural d => d

/-- The type arguments that data stand for. -/
def argsOfData? : List Datum → Option (List Descriptor)
  | [] => some []
  | d :: rest => do return (← ofDatum? d) :: (← argsOfData? rest)
termination_by structural ds => ds

/-- The members that data stand for. -/
def membersOfData? : List Datum → Option (List (String × Descriptor))
  | [] => some []
  | .product [(_, .text name), (_, d)] :: rest => do
    return (name, ← ofDatum? d) :: (← membersOfData? rest)
  | _ :: _ => none
termination_by structural ds => ds

end

end Descriptor
end QueryRelay
