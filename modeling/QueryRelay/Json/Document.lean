import QueryRelay.Json.Number
import QueryRelay.Json.Text

/-!
# Plain JSON documents

A document with its leaves understood and its objects as finite maps: members are sorted by name,
and of two members of one name the last counts. A document may nest at most `Document.maxNesting`
deep.
-/

namespace QueryRelay

/-- A plain document. -/
inductive Document where
  /-- The word `null`. -/
  | null
  /-- A truth value. -/
  | bool (b : Bool)
  /-- A natural number. -/
  | natural (n : UInt64)
  /-- A negative integer. -/
  | negative (n : Int64)
  /-- Any other number. -/
  | float (x : Binary64)
  /-- A text. -/
  | text (s : String)
  /-- An array. -/
  | array (items : List Document)
  /-- An object, its members sorted by name. -/
  | object (members : List (String × Document))
deriving Inhabited

namespace Document

/-- The deepest nesting of arrays and objects that is read. -/
def maxNesting : Nat := 127

/-- Put a member where its name belongs, in the place of one of the same name. -/
def insertMember : List (String × Document) → String → Document → List (String × Document)
  | [], name, d => [(name, d)]
  | (other, e) :: rest, name, d =>
    if name = other then (name, d) :: rest
    else if name < other then (name, d) :: (other, e) :: rest
    else (other, e) :: insertMember rest name d

/-- An object from members in any order. -/
def ofMembers (members : List (String × Document)) : Document :=
  .object (members.foldl (fun sorted m => insertMember sorted m.1 m.2) [])

/-- An integer as a document. -/
def ofInt64 (n : Int64) : Document :=
  if n.toInt < 0 then .negative n else .natural (.ofNat n.toInt.toNat)

/-- A floating-point number as a document; infinities and `NaN` become `null`. -/
def ofFloat (x : Binary64) : Document := if x.isFinite then .float x else .null

mutual

/-- Understand a document as written; `nesting` is how deep it may go. -/
def ofJson? (nesting : Nat) : Json → Option Document
  | .null => some .null
  | .bool b => some (.bool b)
  | .number lexeme =>
    match Json.Numeral.read? lexeme with
    | some (.natural n) => some (.natural n)
    | some (.negative n) => some (.negative n)
    | some (.float x) => some (.float x)
    | none => none
  | .string body => (Json.bodyText? body).map .text
  | .array items =>
    match nesting with
    | 0 => none
    | n + 1 => (ofItems? n items).map .array
  | .object members =>
    match nesting with
    | 0 => none
    | n + 1 => (ofMembers? n members).map ofMembers
termination_by structural j => j

/-- Understand the items of an array. -/
def ofItems? (nesting : Nat) : List Json → Option (List Document)
  | [] => some []
  | j :: rest => do
    let d ← ofJson? nesting j
    let ds ← ofItems? nesting rest
    return d :: ds
termination_by structural items => items

/-- Understand the members of an object, in the order written. -/
def ofMembers? (nesting : Nat) : List (List Char × Json) → Option (List (String × Document))
  | [] => some []
  | (name, j) :: rest => do
    let name ← Json.bodyText? name
    let d ← ofJson? nesting j
    let ds ← ofMembers? nesting rest
    return (name, d) :: ds
termination_by structural members => members

end

/-- Read a plain document. -/
def read? (s : String) : Option Document := (Json.read? s).bind (ofJson? maxNesting)

mutual

/-- The document as it is written. -/
def toJson : Document → Json
  | .null => .null
  | .bool b => .bool b
  | .natural n => Json.ofNat n.toNat
  | .negative n => Json.ofInt n.toInt
  | .float x => Json.ofFloat x
  | .text s => Json.ofText s
  | .array items => .array (toJsonItems items)
  | .object members => .object (toJsonMembers members)
termination_by structural d => d

/-- The items of an array as they are written. -/
def toJsonItems : List Document → List Json
  | [] => []
  | d :: rest => toJson d :: toJsonItems rest
termination_by structural items => items

/-- The members of an object as they are written. -/
def toJsonMembers : List (String × Document) → List (List Char × Json)
  | [] => []
  | (name, d) :: rest => (Json.escape name.toList, toJson d) :: toJsonMembers rest
termination_by structural members => members

end

/-- The text of a document. -/
def toText (d : Document) : String := d.toJson.toText

/-- The number of a document that is a natural. -/
def natural? : Document → Option UInt64
  | .natural n => some n
  | _ => none

end Document
end QueryRelay
