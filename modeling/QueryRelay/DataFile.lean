import QueryRelay.Calendar.Rfc3339
import QueryRelay.Catalog.Basic
import QueryRelay.Descriptor.Reader
import QueryRelay.Eval.Store
import QueryRelay.Value.Plain

/-!
# Data files

A data file is a JSON document that holds all that a service needs: records with the types of their
fields in text form, enumerations, and rows. Each of its parts may be given by name or, in a fixed
order, by position. `DataFile.build` makes a catalog and a store of it; rows keep what is not
declared, and a text in a field of points in time is read as one.
-/

namespace QueryRelay

/-- A record as a data file declares it. -/
structure RecordDeclaration where
  /-- The qualified name. -/
  name : String
  /-- The fields, each with the text of its type. -/
  fields : Fields String
deriving Inhabited

/-- A data file. -/
structure DataFile where
  /-- The records. -/
  records : List RecordDeclaration
  /-- The enumerations. -/
  enums : List EnumType
  /-- The rows by the name of their record. -/
  rows : Fields (List Document)
deriving Inhabited

namespace DataFile

/-! ## Reading -/

/-- The parts that are given by name: unknown names are skipped, and none may come twice. -/
def namedParts? (names : List String) : List (List Char × Json) → Option (Fields Json)
  | [] => some []
  | (key, j) :: rest => do
    let name ← Json.bodyText? key
    let found ← namedParts? names rest
    if !names.contains name then return found
    else if (Fields.get? found name).isSome then none
    else return (name, j) :: found

/-- The parts of a declaration, by name or by position. -/
def parts? (names : List String) : Json → Option (Fields Json)
  | .object members => namedParts? names members
  | .array items => if items.length ≤ names.length then some (names.zip items) else none
  | _ => none

/-- The items of an array, each read by the same rule. -/
def list? {α : Type} (item : Json → Option α) : Json → Option (List α)
  | .array items => items.mapM item
  | _ => none

/-- The entries of an object, each read by the same rule; of two of one name the last counts. -/
def table? {α : Type} (entry : Json → Option α) : Json → Option (Fields α)
  | .object members => do
    let entries ← members.mapM fun m => return (← Json.bodyText? m.1, ← entry m.2)
    return Fields.ofEntries entries
  | _ => none

/-- Read a part, or take what stands for it if it is left out. -/
def partOr {α : Type} (parts : Fields Json) (name : String) (read : Json → Option α)
    (fallback : α) : Option α :=
  match Fields.get? parts name with
  | some j => read j
  | none => some fallback

/-- Read a part that has to be there. -/
def part? {α : Type} (parts : Fields Json) (name : String) (read : Json → Option α) : Option α :=
  (Fields.get? parts name).bind read

/-- Read the declaration of a record. -/
def record? (j : Json) : Option RecordDeclaration := do
  let parts ← parts? ["name", "fields"] j
  return ⟨← part? parts "name" Json.text?, ← partOr parts "fields" (table? Json.text?) []⟩

/-- Read the declaration of an enumeration. -/
def enum? (j : Json) : Option EnumType := do
  let parts ← parts? ["name", "variants"] j
  return ⟨← part? parts "name" Json.text?, ← part? parts "variants" (list? Json.text?)⟩

/-- How deep a row may nest: three levels stand around it. -/
def rowNesting : Nat := Document.maxNesting - 3

/-- Read a document as a data file. -/
def ofJson? (j : Json) : Option DataFile := do
  let parts ← parts? ["records", "enums", "rows"] j
  return {
    records := ← partOr parts "records" (list? record?) []
    enums := ← partOr parts "enums" (list? enum?) []
    rows := ← partOr parts "rows" (table? (list? (Document.ofJson? rowNesting))) [] }

/-- Read a data file. -/
def read (s : String) : Except Error DataFile :=
  match (Json.read? s).bind ofJson? with
  | some f => .ok f
  | none => .error (.serialization "malformed data file")

/-! ## Types and rows -/

/-- The type of a declared field. -/
def fieldType (c : Catalog) (record field type : String) : Except Error Ty := do
  let d ← Descriptor.read type
  match c.resolve d with
  | .ok t => .ok t
  | .error e => .error (.setup (.fieldType record field e.message))

/-- The record that a declaration stands for. -/
def recordType (c : Catalog) (r : RecordDeclaration) : Except Error RecordType := do
  let fields ← r.fields.mapM fun f => return (f.1, ← fieldType c r.name f.1 f.2)
  return ⟨r.name, fields⟩

/-- The catalog of a data file. All names are known before any field is looked at, so that a field
may be of any declared type. -/
def catalog (f : DataFile) : Except Error Catalog := do
  let enums := f.enums.foldl Catalog.insertEnum .standard
  let names := f.records.foldl (fun c r => c.insertRecord ⟨r.name, []⟩) enums
  let records ← f.records.mapM (recordType names)
  return records.foldl Catalog.insertRecord names

/-- Read the text in a field of points in time; other fields stay as they are. -/
def typedField (record : String) (t : Ty) (field : String) (v : Value) : Except Error Value :=
  match t.unwrapped, v with
  | .timestamp, .text s =>
    match Timestamp.readStrict s with
    | .ok moment => .ok (.timestamp moment)
    | .error e => .error (.setup (.rowTimestamp record field e.message))
  | _, v => .ok v

/-- Read the points in time of a row, in the order of the declared fields. -/
def typedRow (r : RecordType) : Value → Except Error Value
  | .record id fields => do
    let fields ← r.fields.foldlM (fun (row : Fields Value) f =>
      match Fields.get? row f.1 with
      | some v => return Fields.insert row f.1 (← typedField r.name f.2 f.1 v)
      | none => .ok row) fields
    return .record id fields
  | v => .ok v

/-- The rows of a record. -/
def typedRows (c : Catalog) (name : String) (rows : List Document) : Except Error (List Value) :=
  match c.record? name with
  | none => .error (.setup (.undeclaredRows name))
  | some r => rows.mapM fun d => typedRow r (.ofDocument d)

/-- The catalog and the store of a data file. -/
def build (f : DataFile) : Except Error (Catalog × Store) := do
  let c ← f.catalog
  let store ← f.rows.foldlM (fun (s : Store) t => return s.insert t.1 (← typedRows c t.1 t.2))
    Store.empty
  return (c, store)

end DataFile
end QueryRelay
