import QueryRelay.Fields
import QueryRelay.Json.Number
import QueryRelay.Json.Text
import QueryRelay.Payload.Schema

/-!
# The text form of messages

A product is an object, an alternative without content its name, and any other alternative the
object whose only member is its content. The reader also takes a product as an array of its fields
in order, and an alternative without content as an object with the member `null`. It skips members
that it does not know, refuses a field that comes twice, and goes at most `Payload.maxNesting` deep
into arrays and objects, those it skips apart.
-/

namespace QueryRelay

mutual

/-- The text form of a datum. -/
def Datum.toJson : Datum → Json
  | .bool b => .bool b
  | .int n => Json.ofInt n.toInt
  | .natural n => Json.ofNat n.toNat
  | .float x => Json.ofFloat x
  | .text s => Json.ofText s
  | .list items => .array (itemsToJson items)
  | .table entries => .object (fieldsToJson entries)
  | .absent => .null
  | .present content => toJson content
  | .product fields => .object (fieldsToJson fields)
  | .variant _ name => Json.ofText name
  | .wrapped _ name content => .object [(Json.escape name.toList, toJson content)]
  | .case _ name fields => .object [(Json.escape name.toList, .object (fieldsToJson fields))]
termination_by structural d => d

/-- The text forms of the items of a list. -/
def Datum.itemsToJson : List Datum → List Json
  | [] => []
  | d :: rest => toJson d :: itemsToJson rest
termination_by structural ds => ds

/-- The members for named parts. -/
def Datum.fieldsToJson : List (String × Datum) → List (List Char × Json)
  | [] => []
  | (name, d) :: rest => (Json.escape name.toList, toJson d) :: fieldsToJson rest
termination_by structural fs => fs

end

namespace Payload

/-- The deepest nesting that is read. -/
def maxNesting : Nat := 127

/-- What a field holds, given what is written there. -/
def Field.fill (f : Field) (isNull : Bool) (content : Option Datum) : Option Datum :=
  if f.isOptional then if isNull then some .absent else content.map .present else content

/-- Whether this is the word `null`. -/
def isNull : Json → Bool
  | .null => true
  | _ => false

/-- What stands for a field that is left out. -/
def Field.omitted (f : Field) : Option Datum :=
  f.fallback.or (if f.isOptional then some .absent else none)

/-- The fields of a product in order, from those that were found. -/
def complete (found : Fields Datum) : List Field → Option (Fields Datum)
  | [] => some []
  | f :: rest => do
    let d ← (found.get? f.name).or f.omitted
    return (f.name, d) :: (← complete found rest)

/-- A leaf of a shape from a number as written. -/
def ofNumber? (shape : Shape) (j : Json) : Option Datum :=
  match shape with
  | .int => j.int64?.map .int
  | .natural => j.uint64?.map .natural
  | .float => j.float?.map .float
  | _ => none

/-- A part of a shape from a text as written: a text, or an alternative without content. -/
def ofString? (shape : Shape) (body : List Char) : Option Datum := do
  let s ← Json.bodyText? body
  match shape with
  | .text => return .text s
  | .sort name =>
    match name.definition with
    | .choice alternatives =>
      match findAlternative s 0 alternatives with
      | some (index, .empty) => return .variant index s
      | _ => none
    | .product _ => none
  | _ => none

mutual

/-- Read a part of a shape, going at most `nesting` deep. -/
def ofJson? (nesting : Nat) (shape : Shape) : Json → Option Datum
  | .null => none
  | .bool b => match shape with
    | .bool => some (.bool b)
    | _ => none
  | .number lexeme => ofNumber? shape (.number lexeme)
  | .string body => ofString? shape body
  | .array items =>
    match nesting with
    | 0 => none
    | n + 1 =>
      match shape with
      | .list item => (ofItems? n item items).map .list
      | .sort name =>
        match name.definition with
        | .product fields => (ofPositions? n fields items).map .product
        | .choice _ => none
      | _ => none
  | .object members =>
    match nesting with
    | 0 => none
    | n + 1 =>
      match shape with
      | .table entry => (ofEntries? n entry members).map fun es => .table (Fields.ofEntries es)
      | .sort name =>
        match name.definition with
        | .product fields => ((ofMembers? n fields members).bind (complete · fields)).map .product
        | .choice alternatives => ofChoice? n alternatives members
      | _ => none
termination_by structural j => j

/-- Read the items of a list. -/
def ofItems? (nesting : Nat) (shape : Shape) : List Json → Option (List Datum)
  | [] => some []
  | j :: rest => do
    let d ← ofJson? nesting shape j
    return d :: (← ofItems? nesting shape rest)
termination_by structural items => items

/-- Read the fields of a product in order; those with a fallback may be missing at the end. -/
def ofPositions? (nesting : Nat) (fields : List Field) : List Json → Option (Fields Datum)
  | [] => fields.mapM fun f => return (f.name, ← f.fallback)
  | j :: rest =>
    match fields with
    | [] => none
    | f :: fields => do
      let d ← f.fill (isNull j) (ofJson? nesting f.shape j)
      return (f.name, d) :: (← ofPositions? nesting fields rest)
termination_by structural items => items

/-- Read the fields of a product by name, none of them twice. -/
def ofMembers? (nesting : Nat) (fields : List Field) :
    List (List Char × Json) → Option (Fields Datum)
  | [] => some []
  | (key, j) :: rest => do
    let name ← Json.bodyText? key
    match fields.find? fun f => f.name == name with
    | none => ofMembers? nesting fields rest
    | some f =>
      let d ← f.fill (isNull j) (ofJson? nesting f.shape j)
      let found ← ofMembers? nesting fields rest
      if (found.get? name).isSome then none else some ((name, d) :: found)
termination_by structural members => members

/-- Read the entries of a table. -/
def ofEntries? (nesting : Nat) (shape : Shape) :
    List (List Char × Json) → Option (List (String × Datum))
  | [] => some []
  | (key, j) :: rest => do
    let name ← Json.bodyText? key
    let d ← ofJson? nesting shape j
    return (name, d) :: (← ofEntries? nesting shape rest)
termination_by structural members => members

/-- Read an alternative from the only member of an object. -/
def ofChoice? (nesting : Nat) (alternatives : List (String × Content)) :
    List (List Char × Json) → Option Datum
  | [(key, j)] => do
    let name ← Json.bodyText? key
    let (index, content) ← findAlternative name 0 alternatives
    match content with
    | .empty => if isNull j then some (.variant index name) else none
    | .single shape => (ofJson? nesting shape j).map (.wrapped index name)
    | .fields fields => (ofFields? nesting fields j).map (.case index name)
  | _ => none
termination_by structural members => members

/-- Read the fields of an alternative, by name or in order. -/
def ofFields? (nesting : Nat) (fields : List Field) : Json → Option (Fields Datum)
  | .array items =>
    match nesting with
    | 0 => none
    | n + 1 => ofPositions? n fields items
  | .object members =>
    match nesting with
    | 0 => none
    | n + 1 => (ofMembers? n fields members).bind (complete · fields)
  | _ => none
termination_by structural j => j

end

/-- Read a text that holds one part of a shape. -/
def readText? (shape : Shape) (s : String) : Option Datum :=
  (Json.read? s).bind (ofJson? maxNesting shape)

end Payload
end QueryRelay
