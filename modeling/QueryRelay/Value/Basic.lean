import QueryRelay.Calendar.Rfc3339
import QueryRelay.Fields
import QueryRelay.Number.Text

/-!
# Self-describing values

A value is what constants hold, what a table row is, and what a query answers. A record keeps its
fields in order and may carry an identity; a reference stands for the record of that identity
elsewhere in the same graph, so that shared and cyclic graphs can be written as trees.
-/

namespace QueryRelay

/-- The identity of a record within one value graph. -/
structure ObjectId where
  /-- The number of the record. -/
  number : UInt64
deriving DecidableEq, Inhabited

/-- The text of an identity. -/
def ObjectId.render (id : ObjectId) : String := "#" ++ toString id.number.toNat

/-- A self-describing value. -/
inductive Value where
  /-- The absent value. -/
  | null
  /-- A truth value. -/
  | bool (b : Bool)
  /-- A 64-bit integer. -/
  | int (n : Int64)
  /-- A floating-point number. -/
  | float (x : Binary64)
  /-- A text. -/
  | text (s : String)
  /-- A point in time. -/
  | timestamp (t : Timestamp)
  /-- A list of values. -/
  | list (items : List Value)
  /-- A record with an optional identity and its fields in order. -/
  | record (id : Option ObjectId) (fields : List (String × Value))
  /-- A reference to the record with this identity in the same graph. -/
  | ref (id : ObjectId)
deriving Inhabited

namespace Value

/-- A record without identity. -/
def ofFields (fields : Fields Value) : Value := .record none fields

/-- Whether this is the absent value. -/
def isNull : Value → Bool
  | .null => true
  | _ => false

/-- The truth value, if this is one. -/
def asBool? : Value → Option Bool
  | .bool b => some b
  | _ => none

/-- The integer, if this is one. -/
def asInt? : Value → Option Int64
  | .int n => some n
  | _ => none

/-- The number, if this is an integer or a floating-point number. -/
def asFloat? : Value → Option Binary64
  | .int n => some (.ofInt n.toInt)
  | .float x => some x
  | _ => none

/-- The text, if this is one. -/
def asText? : Value → Option String
  | .text s => some s
  | _ => none

/-- The items, if this is a list. -/
def asList? : Value → Option (List Value)
  | .list items => some items
  | _ => none

/-- The fields, if this is a record. -/
def asFields? : Value → Option (Fields Value)
  | .record _ fields => some fields
  | _ => none

/-- The name of the kind of value, as messages use it. -/
def kindName : Value → String
  | .null => "null"
  | .bool _ => "bool"
  | .int _ => "int"
  | .float _ => "float"
  | .text _ => "string"
  | .timestamp _ => "timestamp"
  | .list _ => "list"
  | .record _ _ => "record"
  | .ref _ => "ref"

/-! ## Text -/

mutual

/-- The text in which a value is shown. -/
def render : Value → String
  | .null => "null"
  | .bool b => if b then "true" else "false"
  | .int n => toString n.toInt
  | .float x => x.plainText
  | .text s => "'" ++ s ++ "'"
  | .timestamp t => t.plainText
  | .list items => "[" ++ ", ".intercalate (renderItems items) ++ "]"
  | .record id fields =>
    (match id with
      | some i => i.render ++ " "
      | none => "") ++ "\x7b" ++ ", ".intercalate (renderFields fields) ++ "\x7d"
  | .ref id => "ref " ++ id.render
termination_by structural v => v

/-- The texts of the items of a list. -/
def renderItems : List Value → List String
  | [] => []
  | v :: rest => render v :: renderItems rest
termination_by structural items => items

/-- The texts of the fields of a record, each after its name. -/
def renderFields : List (String × Value) → List String
  | [] => []
  | (name, v) :: rest => (name ++ ": " ++ render v) :: renderFields rest
termination_by structural fields => fields

end

/-- The text of a value inside a concatenation: a text stands for itself. -/
def concatText : Value → String
  | .text s => s
  | v => v.render

end Value
end QueryRelay
