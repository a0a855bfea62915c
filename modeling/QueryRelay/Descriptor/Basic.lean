import QueryRelay.Text.Utf8

/-!
# Type descriptors

A descriptor names a type without owning it, so that a plan can cross a process boundary: a name in
an optional namespace, type arguments, the members of an anonymous projection, and the three marks
enumeration, collection and nullable. Its text form is canonical, and the fingerprint of a type is
a 64-bit hash of that text.
-/

namespace QueryRelay

/-- The description of a type. -/
structure Descriptor where
  /-- The name within its namespace. -/
  name : String
  /-- The namespace, its parts joined by dots. -/
  space : Option String
  /-- The type arguments. -/
  args : List Descriptor
  /-- Whether values are collections. -/
  isCollection : Bool
  /-- Whether this is an enumeration. -/
  isEnum : Bool
  /-- Whether null is a value. -/
  isNullable : Bool
  /-- The members of an anonymous projection, in order. -/
  members : List (String × Descriptor)
deriving Inhabited

namespace Descriptor

/-- The namespace of the built-in types. -/
def coreSpace : String := "core"

/-- A type without arguments, members and marks. -/
def plain (space : Option String) (name : String) : Descriptor :=
  ⟨name, space, [], false, false, false, []⟩

/-- A built-in type. -/
def core (name : String) : Descriptor := plain (some coreSpace) name

/-- The collection of the elements of a type. -/
def sequence (element : Descriptor) : Descriptor :=
  { core "Sequence" with args := [element], isCollection := true }

/-- The collection of the elements that share a key. -/
def grouping (key element : Descriptor) : Descriptor :=
  { core "Grouping" with args := [key, element], isCollection := true }

/-- A projection with the given members. -/
def anonymous (members : List (String × Descriptor)) : Descriptor :=
  { core "Anonymous" with members := members }

/-- The type with null as a further value. -/
def nullable (d : Descriptor) : Descriptor := { d with isNullable := true }

/-- The type without null. -/
def nonNullable (d : Descriptor) : Descriptor := { d with isNullable := false }

/-- The type marked as an enumeration. -/
def enumeration (d : Descriptor) : Descriptor := { d with isEnum := true }

/-- The element type of a collection: its last type argument. -/
def element? (d : Descriptor) : Option Descriptor :=
  if d.isCollection then d.args.getLast? else none

/-- Whether this is the built-in type of a name, whatever its other parts. -/
def isCore (d : Descriptor) (name : String) : Bool := d.space == some coreSpace && d.name == name

/-- The name after its namespace. -/
def qualifiedName (d : Descriptor) : String :=
  match d.space with
  | some s => if s = "" then d.name else s ++ "." ++ d.name
  | none => d.name

mutual

/-- The canonical text. -/
def render : Descriptor → String
  | ⟨name, space, args, isCollection, isEnum, isNullable, members⟩ =>
    (if isEnum then "enum " else "") ++
      qualifiedName ⟨name, space, args, isCollection, isEnum, isNullable, members⟩ ++
      (if args.isEmpty then "" else "<" ++ ", ".intercalate (renderAll args) ++ ">") ++
      (if members.isEmpty then ""
        else "\x7b" ++ ", ".intercalate (renderMembers members) ++ "\x7d") ++
      (if isCollection then "[]" else "") ++
      (if isNullable then "?" else "")
termination_by structural d => d

/-- The canonical texts of type arguments. -/
def renderAll : List Descriptor → List String
  | [] => []
  | d :: rest => render d :: renderAll rest
termination_by structural ds => ds

/-- The canonical texts of members, each after its name. -/
def renderMembers : List (String × Descriptor) → List String
  | [] => []
  | (name, d) :: rest => (name ++ ": " ++ render d) :: renderMembers rest
termination_by structural ms => ms

end

mutual

/-- Equality of descriptors. -/
def equals : Descriptor → Descriptor → Bool
  | ⟨name, space, args, isCollection, isEnum, isNullable, members⟩, other =>
    name == other.name && space == other.space && equalAll args other.args &&
      isCollection == other.isCollection && isEnum == other.isEnum &&
      isNullable == other.isNullable && equalMembers members other.members
termination_by structural d => d

/-- Equality of type arguments. -/
def equalAll : List Descriptor → List Descriptor → Bool
  | [], [] => true
  | d :: ds, e :: es => equals d e && equalAll ds es
  | _, _ => false
termination_by structural ds => ds

/-- Equality of members. -/
def equalMembers : List (String × Descriptor) → List (String × Descriptor) → Bool
  | [], [] => true
  | (m, d) :: ds, (n, e) :: es => m == n && equals d e && equalMembers ds es
  | _, _ => false
termination_by structural ds => ds

end

instance : BEq Descriptor := ⟨equals⟩

/-- The hash of a text: start at a basis, and for each byte take the exclusive or and multiply by a
prime, modulo two to the sixty-fourth. -/
def hashText (s : String) : UInt64 :=
  (Text.utf8 s).foldl (fun h b => (h ^^^ b.toUInt64) * 0x100000001b3) 0xcbf29ce484222325

/-- The fingerprint of a type. -/
def fingerprint (d : Descriptor) : UInt64 := hashText d.render

end Descriptor
end QueryRelay
