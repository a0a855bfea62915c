import QueryRelay.Value.Basic

/-!
# Static types

The types of expressions. Records and enumerations are known by name and defined in a catalog; a
group is an element of a grouped sequence, and can be enumerated; `Ty.dynamic` stands for untyped
data, and `Ty.infer` for a type that the context has yet to give.
-/

namespace QueryRelay

/-- A static type. -/
inductive Ty where
  /-- The type without information. -/
  | unit
  /-- Truth values. -/
  | bool
  /-- 64-bit integers. -/
  | int
  /-- Floating-point numbers. -/
  | float
  /-- Texts. -/
  | text
  /-- Points in time. -/
  | timestamp
  /-- A record type of the catalog, by qualified name. -/
  | record (name : String)
  /-- An enumeration of the catalog, by qualified name. -/
  | enum (name : String)
  /-- Sequences. -/
  | seq (element : Ty)
  /-- A type with null as a further value. -/
  | option (inner : Ty)
  /-- The elements that share a key. -/
  | group (key element : Ty)
  /-- A projection with named members in order. -/
  | anonymous (members : List (String × Ty))
  /-- Untyped data. -/
  | dynamic
  /-- Not known yet. -/
  | infer
deriving Inhabited

namespace Ty

/-- The type with null as a further value, unless it has it already. -/
def optional : Ty → Ty
  | .option inner => .option inner
  | t => .option t

/-- The type without one mark for null. -/
def unwrapped : Ty → Ty
  | .option inner => inner
  | t => t

/-- Whether null is marked as a value. -/
def isOption : Ty → Bool
  | .option _ => true
  | _ => false

/-- The element type, if values can be enumerated. -/
def element? : Ty → Option Ty
  | .seq e => some e
  | .group _ e => some e
  | .option inner => element? inner
  | .dynamic => some .dynamic
  | _ => none

/-- Whether this is a sequence or a group. -/
def isSequence : Ty → Bool
  | .seq _ | .group _ _ => true
  | _ => false

/-- Whether values are numbers, or null. -/
def isNumeric (t : Ty) : Bool :=
  match t.unwrapped with
  | .int | .float => true
  | _ => false

/-- Whether this is the type of untyped data. -/
def isDynamic : Ty → Bool
  | .dynamic => true
  | _ => false

mutual

/-- Whether every part of the type is known. -/
def isConcrete : Ty → Bool
  | .infer => false
  | .seq e => isConcrete e
  | .option inner => isConcrete inner
  | .group k e => isConcrete k && isConcrete e
  | .anonymous members => membersConcrete members
  | _ => true
termination_by structural t => t

/-- Whether every part of every member is known. -/
def membersConcrete : List (String × Ty) → Bool
  | [] => true
  | (_, t) :: rest => isConcrete t && membersConcrete rest
termination_by structural ms => ms

end

mutual

/-- The text that shows a type. -/
def render : Ty → String
  | .unit => "()"
  | .bool => "bool"
  | .int => "i64"
  | .float => "f64"
  | .text => "String"
  | .timestamp => "DateTime"
  | .record name => name
  | .enum name => name
  | .seq e => "Seq<" ++ render e ++ ">"
  | .option inner => "Option<" ++ render inner ++ ">"
  | .group k e => "Group<" ++ render k ++ ", " ++ render e ++ ">"
  | .anonymous members => "\x7b " ++ ", ".intercalate (renderMembers members) ++ " \x7d"
  | .dynamic => "dynamic"
  | .infer => "_"
termination_by structural t => t

/-- The texts of members, each after its name. -/
def renderMembers : List (String × Ty) → List String
  | [] => []
  | (name, t) :: rest => (name ++ ": " ++ render t) :: renderMembers rest
termination_by structural ms => ms

end

mutual

/-- Equality of types. -/
def equals : Ty → Ty → Bool
  | .unit, .unit | .bool, .bool | .int, .int | .float, .float | .text, .text => true
  | .timestamp, .timestamp | .dynamic, .dynamic | .infer, .infer => true
  | .record m, .record n => m == n
  | .enum m, .enum n => m == n
  | .seq e, .seq f => equals e f
  | .option t, .option u => equals t u
  | .group k e, .group l f => equals k l && equals e f
  | .anonymous ms, .anonymous ns => equalMembers ms ns
  | _, _ => false
termination_by structural t => t

/-- Equality of members. -/
def equalMembers : List (String × Ty) → List (String × Ty) → Bool
  | [], [] => true
  | (m, t) :: ts, (n, u) :: us => m == n && equals t u && equalMembers ts us
  | _, _ => false
termination_by structural ms => ms

end

instance : BEq Ty := ⟨equals⟩

/-- The type of a literal: that of its value, a list taking the type of its first item. -/
def ofLiteral : Value → Ty
  | .null => .option .dynamic
  | .bool _ => .bool
  | .int _ => .int
  | .float _ => .float
  | .text _ => .text
  | .timestamp _ => .timestamp
  | .list [] => .seq .dynamic
  | .list (v :: _) => .seq (ofLiteral v)
  | .record _ _ => .dynamic
  | .ref _ => .dynamic
termination_by structural v => v

end Ty
end QueryRelay
