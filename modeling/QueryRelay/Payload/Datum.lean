import QueryRelay.Number.Binary64

/-!
# Data between domain and format

A datum is what the parts of a message have in common whatever the format: leaves, lists, tables,
values that may be absent, products of named fields, and alternatives by name and number. A format
writes any datum, and reads one of a given shape.
-/

namespace QueryRelay

/-- A part of a message. -/
inductive Datum where
  /-- A truth value. -/
  | bool (b : Bool)
  /-- A 64-bit integer. -/
  | int (n : Int64)
  /-- An unsigned 64-bit integer. -/
  | natural (n : UInt64)
  /-- A floating-point number. -/
  | float (x : Binary64)
  /-- A text. -/
  | text (s : String)
  /-- A list. -/
  | list (items : List Datum)
  /-- A table of named entries in order. -/
  | table (entries : List (String × Datum))
  /-- Nothing, where there could be something. -/
  | absent
  /-- Something, where there could be nothing. -/
  | present (content : Datum)
  /-- Named fields in a fixed order. -/
  | product (fields : List (String × Datum))
  /-- An alternative without content. -/
  | variant (index : Nat) (name : String)
  /-- An alternative with one part. -/
  | wrapped (index : Nat) (name : String) (content : Datum)
  /-- An alternative with named fields. -/
  | case (index : Nat) (name : String) (fields : List (String × Datum))
deriving Inhabited

end QueryRelay
