import QueryRelay.Catalog.Builtin
import QueryRelay.Descriptor.Basic

/-!
# Catalogs

A catalog ties static types to descriptors. It defines records and enumerations, and the functions
declared on types, each known by the fingerprint of a descriptor, so that a descriptor from
elsewhere is resolved by one look-up. `Ty.describe` needs no catalog; `Catalog.resolve` is its
inverse on types whose names the catalog knows.
-/

namespace QueryRelay

/-- A record type: a name and fields in order. -/
structure RecordType where
  /-- The qualified name. -/
  name : String
  /-- The fields. -/
  fields : Fields Ty
deriving Inhabited

/-- An enumeration: a name and variants in order. -/
structure EnumType where
  /-- The qualified name. -/
  name : String
  /-- The variants. -/
  variants : List String
deriving Inhabited

/-- The parts of a qualified name, cut at its last dot. -/
def splitQualified (name : String) : Option String × String :=
  let simple := (name.toList.reverse.takeWhile (· != '.')).reverse
  match name.toList.reverse.dropWhile (· != '.') with
  | _ :: space => (some (String.ofList space.reverse), String.ofList simple)
  | [] => (none, name)

namespace Ty

/-- The descriptor of a named type. -/
def describeName (name : String) : Descriptor :=
  let (space, simple) := splitQualified name
  .plain space simple

mutual

/-- The descriptor of a type. -/
def describe : Ty → Descriptor
  | .unit => .core "Unit"
  | .bool => .core "Boolean"
  | .int => .core "Int64"
  | .float => .core "Double"
  | .text => .core "String"
  | .timestamp => .core "DateTime"
  | .record name => describeName name
  | .enum name => (describeName name).enumeration
  | .seq e => .sequence (describe e)
  | .option inner => (describe inner).nullable
  | .group k e => .grouping (describe k) (describe e)
  | .anonymous members => .anonymous (describeMembers members)
  | .dynamic => .core "Dynamic"
  | .infer => .core "Infer"
termination_by structural t => t

/-- The descriptors of members. -/
def describeMembers : List (String × Ty) → List (String × Descriptor)
  | [] => []
  | (name, t) :: rest => (name, describe t) :: describeMembers rest
termination_by structural ms => ms

end

end Ty

/-- The key of a type in a catalog. -/
abbrev TypeKey := UInt64

/-- Definitions of records, enumerations and functions. -/
structure Catalog where
  /-- The records by the fingerprint of their type. -/
  recordTypes : List (TypeKey × RecordType)
  /-- The enumerations by the fingerprint of their type. -/
  enumTypes : List (TypeKey × EnumType)
  /-- The functions by the fingerprint of the declaring type and their name. -/
  functions : List ((TypeKey × String) × Function)
deriving Inhabited

namespace Catalog

/-- Enter a definition under a key, in place of the one that was there. -/
def enter {κ α : Type} [BEq κ] (key : κ) (value : α) (table : List (κ × α)) : List (κ × α) :=
  (key, value) :: table.filter fun entry => entry.1 != key

/-- Define a record. -/
def insertRecord (c : Catalog) (r : RecordType) : Catalog :=
  { c with recordTypes := enter (Ty.record r.name).describe.fingerprint r c.recordTypes }

/-- Define an enumeration. -/
def insertEnum (c : Catalog) (e : EnumType) : Catalog :=
  { c with enumTypes := enter (Ty.enum e.name).describe.fingerprint e c.enumTypes }

/-- Define a function. -/
def insertFunction (c : Catalog) (f : Function) : Catalog :=
  { c with functions := enter (f.declaring.describe.fingerprint, f.name) f c.functions }

/-- The catalog of the built-in functions. -/
def standard : Catalog := Function.builtins.foldl insertFunction ⟨[], [], []⟩

/-- The record of a name. -/
def record? (c : Catalog) (name : String) : Option RecordType :=
  c.recordTypes.lookup (Ty.record name).describe.fingerprint

/-- The enumeration of a name. -/
def enum? (c : Catalog) (name : String) : Option EnumType :=
  c.enumTypes.lookup (Ty.enum name).describe.fingerprint

/-- The function of a name declared on a type. -/
def function? (c : Catalog) (declaring : Ty) (name : String) : Option Function :=
  c.functions.lookup (declaring.describe.fingerprint, name)

/-- All records. -/
def records (c : Catalog) : List RecordType := c.recordTypes.map Prod.snd

/-! ## Resolving descriptors -/

/-- The record or enumeration that a descriptor names. -/
def resolveNamed (c : Catalog) (d : Descriptor) : Except Error Ty :=
  if d.isEnum then
    match c.enumTypes.lookup d.fingerprint with
    | some e => .ok (.enum e.name)
    | none => .error (.unknownType (.unresolved d.render))
  else
    match c.recordTypes.lookup d.fingerprint with
    | some r => .ok (.record r.name)
    | none => .error (.unknownType (.unresolved d.render))

mutual

/-- The type that a descriptor stands for. The mark for null is looked at first; the built-in names
count in their namespace only. -/
def resolve (c : Catalog) : Descriptor → Except Error Ty
  | ⟨name, space, args, isCollection, isEnum, isNullable, members⟩ =>
    let plain : Descriptor := ⟨name, space, args, isCollection, isEnum, false, members⟩
    let base : Except Error Ty :=
      if space = some Descriptor.coreSpace then
        match name with
        | "Unit" => .ok .unit
        | "Boolean" => .ok .bool
        | "Int64" => .ok .int
        | "Double" => .ok .float
        | "String" => .ok .text
        | "DateTime" => .ok .timestamp
        | "Dynamic" => .ok .dynamic
        | "Sequence" => (resolveArg c plain args 0).map .seq
        | "Grouping" => do return .group (← resolveArg c plain args 0) (← resolveArg c plain args 1)
        | "Anonymous" => (resolveMembers c members).map .anonymous
        | _ => c.resolveNamed plain
      else c.resolveNamed plain
    base.map fun t => if isNullable then t.optional else t
termination_by structural d => d

/-- The type that a type argument stands for; `whole` is the descriptor that lacks it. -/
def resolveArg (c : Catalog) (whole : Descriptor) : List Descriptor → Nat → Except Error Ty
  | [], _ => .error (.unknownType (.unresolved whole.render))
  | d :: _, 0 => resolve c d
  | _ :: rest, i + 1 => resolveArg c whole rest i
termination_by structural ds => ds

/-- The types that the descriptors of members stand for. -/
def resolveMembers (c : Catalog) : List (String × Descriptor) → Except Error (List (String × Ty))
  | [] => .ok []
  | (name, d) :: rest => return (name, ← resolve c d) :: (← resolveMembers c rest)
termination_by structural ms => ms

end

/-! ## Members -/

/-- The type of a member. A member of a value that may be null may be null; every member of untyped
data is untyped. -/
def memberType? (c : Catalog) : Ty → String → Option Ty
  | .record name, member => (c.record? name).bind fun r => Fields.get? r.fields member
  | .anonymous members, member => Fields.get? members member
  | .group k _, member =>
    if member = "Key" then some k else if member = "Count" then some .int else none
  | .seq _, member => if member = "Count" then some .int else none
  | .text, member => if member = "Length" then some .int else none
  | .timestamp, member =>
    if member = "Year" ∨ member = "Month" ∨ member = "Day" then some .int else none
  | .option inner, member => (memberType? c inner member).map Ty.optional
  | .dynamic, _ => some .dynamic
  | _, _ => none
termination_by structural t => t

end Catalog
end QueryRelay
