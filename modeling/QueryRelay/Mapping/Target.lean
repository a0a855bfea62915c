import QueryRelay.Fields

/-!
# Result types

What a raw result can be mapped into: numbers of many widths, texts, truth values, points in time,
raw values, enumerations, records read field by field, and around them optional, boxed, listed,
shared and weakly shared results. Record types are known by name, so that they can hold themselves.
-/

namespace QueryRelay

/-- A type of integers. -/
inductive IntegerType where
  /-- Eight bits with a sign. -/
  | int8
  /-- Sixteen bits with a sign. -/
  | int16
  /-- Thirty-two bits with a sign. -/
  | int32
  /-- Sixty-four bits with a sign. -/
  | int64
  /-- Eight bits. -/
  | nat8
  /-- Sixteen bits. -/
  | nat16
  /-- Thirty-two bits. -/
  | nat32
  /-- Sixty-four bits. -/
  | nat64
  /-- As many bits as an address has, which is sixty-four. -/
  | size
deriving DecidableEq, Inhabited

namespace IntegerType

/-- The name that messages use. -/
def name : IntegerType → String
  | .int8 => "i8"
  | .int16 => "i16"
  | .int32 => "i32"
  | .int64 => "i64"
  | .nat8 => "u8"
  | .nat16 => "u16"
  | .nat32 => "u32"
  | .nat64 => "u64"
  | .size => "usize"

/-- All types of integers. -/
def all : List IntegerType :=
  [.int8, .int16, .int32, .int64, .nat8, .nat16, .nat32, .nat64, .size]

/-- The least integer. -/
def least : IntegerType → Int
  | .int8 => -128
  | .int16 => -32768
  | .int32 => -2147483648
  | .int64 => -9223372036854775808
  | _ => 0

/-- The greatest integer. -/
def greatest : IntegerType → Int
  | .int8 => 127
  | .int16 => 32767
  | .int32 => 2147483647
  | .int64 => 9223372036854775807
  | .nat8 => 255
  | .nat16 => 65535
  | .nat32 => 4294967295
  | .nat64 => 18446744073709551615
  | .size => 18446744073709551615

end IntegerType

/-- A result type. -/
inductive Target where
  /-- Integers. -/
  | integer (type : IntegerType)
  /-- Floating-point numbers of 32 bits. -/
  | single
  /-- Floating-point numbers of 64 bits. -/
  | double
  /-- Truth values. -/
  | bool
  /-- Texts. -/
  | text
  /-- Points in time. -/
  | timestamp
  /-- Raw values. -/
  | value
  /-- Raw records. -/
  | rawRecord
  /-- An enumeration and its variants. -/
  | enum (name : String) (variants : List String)
  /-- A record type. -/
  | record (name : String)
  /-- A result that may be absent. -/
  | option (content : Target)
  /-- A result with a place of its own. -/
  | boxed (content : Target)
  /-- Lists of results. -/
  | list (item : Target)
  /-- A result that has several owners. -/
  | shared (content : Target)
  /-- A shared result without owning it. -/
  | weak (content : Target)
deriving DecidableEq, Inhabited

/-- How a record type is read. -/
inductive RecordReading where
  /-- Field by field in this order. -/
  | fields (fields : List (String × Target))
  /-- Only its identity and the number of its fields. -/
  | outline
deriving Inhabited

/-- The record types by name. -/
abbrev RecordTargets := Fields RecordReading

/-- How a result type relates to the static type of a query. -/
inductive ResultShape where
  /-- It takes one value. -/
  | scalar
  /-- It takes a collection. -/
  | sequence
  /-- It takes either. -/
  | dynamic
deriving DecidableEq, Inhabited

/-- The name of a shape. -/
def ResultShape.name : ResultShape → String
  | .scalar => "Scalar"
  | .sequence => "Sequence"
  | .dynamic => "Dynamic"

/-- What a result type takes. -/
def Target.shape : Target → ResultShape
  | .list _ => .sequence
  | .value | .rawRecord => .dynamic
  | .option t | .boxed t | .shared t | .weak t => t.shape
  | _ => .scalar

end QueryRelay
