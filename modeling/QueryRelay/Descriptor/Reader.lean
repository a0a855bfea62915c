import QueryRelay.Descriptor.Basic
import QueryRelay.Error
import QueryRelay.Text.Alphanumeric
import QueryRelay.Text.Blank
import QueryRelay.Text.Quoted

/-!
# Reading type descriptors

The grammar of the canonical text, with blanks allowed after `enum`, around commas and colons, and
before a member. An optional part that is not complete is left unread, so that almost every fault
shows as something left over; only a missing name at the start is a fault of its own.
-/

namespace QueryRelay.Descriptor

/-- Whether a character may stand in a name. -/
def isNameChar (c : Char) : Bool := Text.isAlphanumeric c || c == '_'

/-- Whether a character may stand between the parts of a descriptor. -/
def isGap (c : Char) : Bool := c == ' ' || c == '\t' || c == '\r' || c == '\n'

/-- Skip what may stand between the parts. -/
def skipGap (cs : List Char) : List Char := cs.dropWhile isGap

/-- Read a name: as many name characters as there are, at least one. -/
def readName (cs : List Char) : Option (String × List Char) :=
  let name := cs.takeWhile isNameChar
  if name.isEmpty then none else some (String.ofList name, cs.dropWhile isNameChar)

/-- Read a mark, with gaps on both sides. -/
def readMark (mark : Char) (cs : List Char) : Option (List Char) :=
  match skipGap cs with
  | c :: rest => if c = mark then some (skipGap rest) else none
  | [] => none

/-- Read further names, each after a dot; a dot without a name is left unread. -/
def readPath : Nat → List Char → List String × List Char
  | 0, cs => ([], cs)
  | fuel + 1, cs =>
    match cs with
    | '.' :: rest =>
      match readName rest with
      | some (name, rest) =>
        let (names, rest) := readPath fuel rest
        (name :: names, rest)
      | none => ([], cs)
    | _ => ([], cs)

/-- Read the word that marks an enumeration, and the gap after it. -/
def readEnumMark (cs : List Char) : Bool × List Char :=
  match cs with
  | 'e' :: 'n' :: 'u' :: 'm' :: ' ' :: rest => (true, skipGap rest)
  | _ => (false, skipGap cs)

/-- Read the collection mark. -/
def readCollectionMark : List Char → Bool × List Char
  | '[' :: ']' :: rest => (true, rest)
  | cs => (false, cs)

/-- Read the nullable mark. -/
def readNullableMark : List Char → Bool × List Char
  | '?' :: rest => (true, rest)
  | cs => (false, cs)

/-- Read items with commas between them, at least one; a comma without an item is left unread. -/
def readSeparated {α : Type} (readItem : List Char → Option (α × List Char)) :
    Nat → List Char → Option (List α × List Char)
  | 0, _ => none
  | count + 1, cs =>
    match readItem cs with
    | none => none
    | some (item, cs) =>
      match (readMark ',' cs).bind (readSeparated readItem count) with
      | some (items, rest) => some (item :: items, rest)
      | none => some ([item], cs)

/-- Read items between two brackets; where a bracket or the first item is missing, nothing is
read. -/
def readBracketed {α : Type} (left right : Char) (readItem : List Char → Option (α × List Char))
    (cs : List Char) : List α × List Char :=
  match cs with
  | c :: inner =>
    if c = left then
      match readSeparated readItem cs.length inner with
      | some (items, c :: rest) => if c = right then (items, rest) else ([], cs)
      | _ => ([], cs)
    else ([], cs)
  | [] => ([], cs)

/-- The namespace and the name of a path. -/
def ofPath (first : String) (rest : List String) : Option String × String :=
  match (first :: rest).getLast?, (first :: rest).dropLast with
  | some name, [] => (none, name)
  | some name, spaces => (some (".".intercalate spaces), name)
  | none, _ => (none, first)

/-- Read a member: its name, a colon and its type. -/
def readMember (readType : List Char → Option (Descriptor × List Char)) (cs : List Char) :
    Option ((String × Descriptor) × List Char) :=
  match readName (skipGap cs) with
  | none => none
  | some (name, cs) =>
    match (readMark ':' cs).bind readType with
    | none => none
    | some (type, cs) => some ((name, type), cs)

/-- Read a descriptor and return the rest. The fuel bounds how deep types stand in one another. -/
def readParts : Nat → List Char → Option (Descriptor × List Char)
  | 0, _ => none
  | fuel + 1, cs =>
    let (isEnum, cs) := readEnumMark cs
    match readName cs with
    | none => none
    | some (first, cs) =>
      let (names, cs) := readPath cs.length cs
      let (space, name) := ofPath first names
      let (args, cs) := readBracketed '<' '>' (readParts fuel) cs
      let (members, cs) := readBracketed '\x7b' '\x7d' (readMember (readParts fuel)) cs
      let (isCollection, cs) := readCollectionMark cs
      let (isNullable, cs) := readNullableMark cs
      some (⟨name, space, args, isCollection, isEnum, isNullable, members⟩, cs)
termination_by structural fuel => fuel

/-- Read the text of a descriptor, white space at both ends aside. -/
def read (s : String) : Except Error Descriptor :=
  let input := Text.trim s
  let cs := input.toList
  match readParts (cs.length + 1) cs with
  | some (d, []) => .ok d
  | some (_, rest) => .error (.unknownType (.trailing (String.ofList rest) input))
  | none =>
    .error (.unknownType (.unreadable input (Text.quoted (String.ofList (readEnumMark cs).2))))

end QueryRelay.Descriptor
