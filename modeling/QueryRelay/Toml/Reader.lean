import QueryRelay.Toml.Scalar
import QueryRelay.Toml.Text

/-!
# Reading TOML documents

A document is read line by line into sections: the entries before the first header belong to the
root, and the entries after a header to the table that the header names. `Toml.read?` puts the
sections together.
-/

namespace QueryRelay.Toml

mutual

/-- Read a value, going at most `depth` deep. The fuel bounds the number of values read. -/
def readValue : Nat → Nat → List Char → Option (Toml × List Char)
  | 0, _, _ => none
  | fuel + 1, depth, cs =>
    match cs with
    | 't' :: 'r' :: 'u' :: 'e' :: rest => some (.bool true, rest)
    | 'f' :: 'a' :: 'l' :: 's' :: 'e' :: rest => some (.bool false, rest)
    | '[' :: rest =>
      match depth with
      | 0 => none
      | depth + 1 =>
        (readItems fuel depth (skipLines rest)).map fun (items, rest) => (.array items, rest)
    | '\x7b' :: rest =>
      match depth with
      | 0 => none
      | depth + 1 =>
        match skipBlanks rest with
        | '\x7d' :: rest => some (.table .inline [], rest)
        | rest =>
          (readPairs fuel depth [] rest).map fun (entries, rest) => (.table .inline entries, rest)
    | c :: rest =>
      if c = '"' ∨ c = '\'' then
        (readText? (c :: rest)).map fun (body, rest) => (.text (String.ofList body), rest)
      else readScalar? (c :: rest)
    | [] => none
termination_by structural fuel => fuel

/-- Read the items of an array up to the closing bracket; a comma may follow the last one. -/
def readItems : Nat → Nat → List Char → Option (List Toml × List Char)
  | 0, _, _ => none
  | fuel + 1, depth, cs =>
    match cs with
    | ']' :: rest => some ([], rest)
    | cs => do
      let (item, rest) ← readValue fuel depth cs
      match skipLines rest with
      | ']' :: rest => return ([item], rest)
      | ',' :: rest =>
        let (items, rest) ← readItems fuel depth (skipLines rest)
        return (item :: items, rest)
      | _ => none
termination_by structural fuel => fuel

/-- Read the entries of a table in braces, at least one, and the closing brace. -/
def readPairs : Nat → Nat → Entries → List Char → Option (Entries × List Char)
  | 0, _, _, _ => none
  | fuel + 1, depth, entries, cs => do
    let (key, rest) ← readKey? cs
    let (v, rest) ← readValue fuel depth (skipBlanks (← readMark? '=' rest))
    let entries ← insertDotted key.path key.name v entries
    match skipBlanks rest with
    | '\x7d' :: rest => return (entries, rest)
    | ',' :: rest => readPairs fuel depth entries rest
    | _ => none
termination_by structural fuel => fuel

end

/-- What stands on a line that is not empty. -/
inductive Line where
  /-- An entry. -/
  | entry (key : Key) (value : Toml)
  /-- The header of a table. -/
  | table (key : Key)
  /-- The header of an item of an array of tables. -/
  | item (key : Key)

/-- Read what stands on a line. -/
def readContent? : List Char → Option (Line × List Char)
  | '[' :: '[' :: rest => do
    let (key, rest) ← readKey? rest
    return (.item key, ← readMark? ']' (← readMark? ']' rest))
  | '[' :: rest => do
    let (key, rest) ← readKey? rest
    return (.table key, ← readMark? ']' rest)
  | cs => do
    let (key, rest) ← readKey? cs
    let rest := skipBlanks (← readMark? '=' rest)
    let (v, rest) ← readValue (rest.length + 1) maxDepth rest
    return (.entry key v, rest)

/-- Read lines; each takes a character, which is what the fuel bounds. -/
def readLinesWithin : Nat → List Char → Option (List Line)
  | 0, _ => none
  | fuel + 1, cs =>
    match skipLines cs with
    | [] => some []
    | '#' :: rest => (endLine? ('#' :: rest)).map fun _ => []
    | cs => do
      let (line, rest) ← readContent? cs
      return line :: (← readLinesWithin fuel (← endLine? rest))

/-- The lines of a document; a byte order mark at the front is skipped. -/
def readLines? (cs : List Char) : Option (List Line) :=
  match cs with
  | '\ufeff' :: rest => readLinesWithin (rest.length + 1) rest
  | cs => readLinesWithin (cs.length + 1) cs

/-- Split the entries before the next header from the lines. -/
def takeEntries : List Line → List (Key × Toml) × List Line
  | .entry key v :: rest =>
    let (entries, rest) := takeEntries rest
    ((key, v) :: entries, rest)
  | lines => ([], lines)

/-- Add entries to a table. -/
def fill (added : List (Key × Toml)) (entries : Entries) : Option Entries :=
  added.foldlM (fun entries e => insertDotted e.1.path e.1.name e.2 entries) entries

/-- Put sections together; each has a header, which is what the fuel bounds. -/
def assemble : Nat → List Line → Entries → Option Entries
  | 0, _, _ => none
  | fuel + 1, lines, root =>
    match lines with
    | [] => some root
    | .entry _ _ :: _ => none
    | .table key :: rest => do
      let (added, rest) := takeEntries rest
      assemble fuel rest (← descend key.path (defineTable key.name (fill added)) root)
    | .item key :: rest => do
      let (added, rest) := takeEntries rest
      assemble fuel rest (← descend key.path (appendTable key.name (fill added)) root)

/-- Read a document: the entries of its root. -/
def read? (s : String) : Option Entries := do
  let lines ← readLines? s.toList
  let (added, rest) := takeEntries lines
  assemble (rest.length + 1) rest (← fill added [])

end QueryRelay.Toml
