import QueryRelay.Fields
import QueryRelay.Number.Binary64

/-!
# TOML documents

A document is a table, whose entries are given line by line. A table remembers what made it, because
that decides who may add to it: dotted keys add to tables that dotted keys made, a header may define
once a table that so far was only implied by headers of tables below it, and nothing may be added to
a value.
-/

namespace QueryRelay

/-- What made a table. -/
inductive TableOrigin where
  /-- It is a value, written in braces. -/
  | inline
  /-- It has a header of its own. -/
  | header
  /-- Dotted keys lead through it. -/
  | dotted
  /-- Headers of tables below it lead through it. -/
  | implied
deriving DecidableEq, Inhabited

/-- A part of a document. -/
inductive Toml where
  /-- A text. -/
  | text (s : String)
  /-- An integer. -/
  | integer (n : Int64)
  /-- A floating-point number. -/
  | float (x : Binary64)
  /-- A truth value. -/
  | bool (b : Bool)
  /-- A date or a time of day, of which it is only known that it is one. -/
  | moment
  /-- An array. -/
  | array (items : List Toml)
  /-- A table. -/
  | table (origin : TableOrigin) (entries : List (String × Toml))
  /-- An array of tables with headers. -/
  | tables (items : List (List (String × Toml)))
deriving Inhabited

namespace Toml

/-- The entries of a table. -/
abbrev Entries := Fields Toml

/-- Change the last of several tables, if there is one. -/
def changeLast (change : Entries → Option Entries) : List Entries → Option (List Entries)
  | [] => none
  | [t] => (change t).map fun u => [u]
  | t :: rest => (changeLast change rest).map (t :: ·)

/-- Add an entry under a dotted key. -/
def insertDotted : List String → String → Toml → Entries → Option Entries
  | [], key, v, entries =>
    if (Fields.get? entries key).isSome then none else some (Fields.insert entries key v)
  | part :: path, key, v, entries =>
    let below (t : Entries) : Option Entries := insertDotted path key v t
    match Fields.get? entries part with
    | none => (below []).map fun t => Fields.insert entries part (.table .dotted t)
    | some (.table .dotted t) =>
      (below t).map fun t => Fields.insert entries part (.table .dotted t)
    | some (.table .implied t) =>
      if path.isEmpty then none
      else (below t).map fun t => Fields.insert entries part (.table .implied t)
    | some (.tables items) =>
      if path.isEmpty then none
      else (changeLast below items).map fun items => Fields.insert entries part (.tables items)
    | some _ => none

/-- Change the table to which a path of headers leads; tables on the way are implied. -/
def descend : List String → (Entries → Option Entries) → Entries → Option Entries
  | [], change, entries => change entries
  | part :: path, change, entries =>
    let below (t : Entries) : Option Entries := descend path change t
    match Fields.get? entries part with
    | none => (below []).map fun t => Fields.insert entries part (.table .implied t)
    | some (.table .inline _) => none
    | some (.table origin t) =>
      (below t).map fun t => Fields.insert entries part (.table origin t)
    | some (.tables items) =>
      (changeLast below items).map fun items => Fields.insert entries part (.tables items)
    | some _ => none

/-- Define a table by a header. -/
def defineTable (key : String) (fill : Entries → Option Entries) (entries : Entries) :
    Option Entries :=
  match Fields.get? entries key with
  | none => (fill []).map fun t => Fields.insert entries key (.table .header t)
  | some (.table .implied t) =>
    (fill t).map fun t => Fields.insert entries key (.table .header t)
  | some _ => none

/-- Append a table by a header to an array of tables. -/
def appendTable (key : String) (fill : Entries → Option Entries) (entries : Entries) :
    Option Entries :=
  match Fields.get? entries key with
  | none => (fill []).map fun t => Fields.insert entries key (.tables [t])
  | some (.tables items) =>
    (fill []).map fun t => Fields.insert entries key (.tables (items ++ [t]))
  | some _ => none

end Toml
end QueryRelay
