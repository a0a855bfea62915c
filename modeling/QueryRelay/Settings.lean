import QueryRelay.Toml.Reader
import QueryRelay.Wire.Codec

/-!
# Settings

The settings of a service, with a default for each. A settings file is a TOML document; it may leave
out any setting, and entries that are no setting are ignored.
-/

namespace QueryRelay

/-- The settings of a service. -/
structure Settings where
  /-- The address at which it is reached. -/
  bindAddress : String
  /-- How its messages become bytes. -/
  format : PayloadFormat
  /-- The file with its data. -/
  dataPath : Option String
  /-- The longest payload that it reads. -/
  maxLength : Nat
  /-- Which of its log lines are written. -/
  logFilter : String
deriving DecidableEq, Inhabited

namespace Settings

/-- The settings where nothing is set. -/
def standard : Settings := ⟨"127.0.0.1:7070", .json, none, Codec.defaultMaxLength, "info"⟩

/-- The codec that the settings ask for. -/
def codec (s : Settings) : Codec := ⟨s.format, s.maxLength⟩

/-- Whether an entry has nothing in it. -/
def isEmptyContainer : Toml → Bool
  | .array items => items.isEmpty
  | .table _ entries => entries.isEmpty
  | .tables items => items.isEmpty
  | _ => false

/-- The payload format of a name. -/
def formatOfName? (name : String) : Option PayloadFormat :=
  [PayloadFormat.json, .binary].find? fun f => f.name == name

/-- The payload format that an entry names, by a text or by a table with one empty entry. -/
def format? : Toml → Option PayloadFormat
  | .text name => formatOfName? name
  | .table _ [(name, content)] => if isEmptyContainer content then formatOfName? name else none
  | _ => none

/-- The text of an entry. -/
def text? : Toml → Option String
  | .text s => some s
  | _ => none

/-- The natural number of an entry. -/
def natural? : Toml → Option Nat
  | .integer n => if n.toInt < 0 then none else some n.toInt.toNat
  | _ => none

/-- Read an entry, or take what stands for it if it is left out. -/
def entryOr {α : Type} (entries : Toml.Entries) (name : String) (read : Toml → Option α)
    (fallback : α) : Option α :=
  match Fields.get? entries name with
  | some v => read v
  | none => some fallback

/-- The settings that the entries of a document set. -/
def ofEntries? (entries : Toml.Entries) : Option Settings := do
  return {
    bindAddress := ← entryOr entries "bind_address" text? standard.bindAddress
    format := ← entryOr entries "format" format? standard.format
    dataPath := ← entryOr entries "data_path" (fun v => (text? v).map some) standard.dataPath
    maxLength := ← entryOr entries "max_frame_len" natural? standard.maxLength
    logFilter := ← entryOr entries "log_filter" text? standard.logFilter }

/-- Read a settings file. -/
def read (s : String) : Except Error Settings :=
  match (Toml.read? s).bind ofEntries? with
  | some settings => .ok settings
  | none => .error (.setup .settings)

end Settings
end QueryRelay
