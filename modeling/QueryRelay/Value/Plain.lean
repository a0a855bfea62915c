import QueryRelay.Json.Document
import QueryRelay.Value.Basic

/-!
# Values as plain JSON

A record becomes an object, its identity the member `$id`, and a reference the object whose only
member is `$ref`. In the other direction those two names are understood where they have a natural
number; timestamps are left as texts.
-/

namespace QueryRelay.Value

/-- The member that holds an identity. -/
def idMember : String := "$id"

/-- The member that holds a reference. -/
def refMember : String := "$ref"

mutual

/-- The value that a document denotes. -/
def ofDocument : Document → Value
  | .null => .null
  | .bool b => .bool b
  | .natural n =>
    if n.toNat ≤ 9223372036854775807 then .int (.ofNat n.toNat) else .float (.ofNat n.toNat)
  | .negative n => .int n
  | .float x => .float x
  | .text s => .text s
  | .array items => .list (ofDocuments items)
  | .object members =>
    match members, Fields.get? members refMember with
    | [_], some (.natural n) => .ref ⟨n⟩
    | _, _ =>
      .record (((Fields.get? members idMember).bind Document.natural?).map ObjectId.mk)
        (ofMembers members)
termination_by structural d => d

/-- The values of the items of an array. -/
def ofDocuments : List Document → List Value
  | [] => []
  | d :: rest => ofDocument d :: ofDocuments rest
termination_by structural items => items

/-- The fields of an object, the identity left out. -/
def ofMembers : List (String × Document) → List (String × Value)
  | [] => []
  | (name, d) :: rest =>
    if name = idMember then ofMembers rest else (name, ofDocument d) :: ofMembers rest
termination_by structural members => members

end

mutual

/-- A value as a document. -/
def toDocument : Value → Document
  | .null => .null
  | .bool b => .bool b
  | .int n => Document.ofInt64 n
  | .float x => Document.ofFloat x
  | .text s => .text s
  | .timestamp t => .text t.plainText
  | .list items => .array (toDocuments items)
  | .record id fields =>
    Document.ofMembers
      ((match id with
        | some i => [(idMember, Document.natural i.number)]
        | none => []) ++ toMembers fields)
  | .ref id => .object [(refMember, .natural id.number)]
termination_by structural v => v

/-- The items of a list as documents. -/
def toDocuments : List Value → List Document
  | [] => []
  | v :: rest => toDocument v :: toDocuments rest
termination_by structural items => items

/-- The fields of a record as members. -/
def toMembers : List (String × Value) → List (String × Document)
  | [] => []
  | (name, v) :: rest => (name, toDocument v) :: toMembers rest
termination_by structural fields => fields

end

end QueryRelay.Value
