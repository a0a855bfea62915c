import QueryRelay.Mapping.Target
import QueryRelay.Value.Basic

/-!
# Mapped results

A mapped result is a tree whose shared parts are cells of a heap: an owner holds a cell, a weak
holder only points at it. Once mapping is over a cell lives as long as the result owns it through a
chain of owners.
-/

namespace QueryRelay

/-- A mapped result, its shared parts by the number of their cell. -/
inductive Mapped where
  /-- An integer. -/
  | integer (n : Int)
  /-- A floating-point number of 32 bits. -/
  | single (x : Binary64)
  /-- A floating-point number of 64 bits. -/
  | double (x : Binary64)
  /-- A truth value. -/
  | bool (b : Bool)
  /-- A text. -/
  | text (s : String)
  /-- A point in time. -/
  | timestamp (t : Timestamp)
  /-- A raw value. -/
  | value (v : Value)
  /-- A raw record. -/
  | rawRecord (id : Option ObjectId) (fields : List (String × Value))
  /-- A variant of an enumeration. -/
  | variant (name : String)
  /-- Nothing where something could be. -/
  | absent
  /-- Something where nothing could be. -/
  | present (content : Mapped)
  /-- A list. -/
  | list (items : List Mapped)
  /-- A record. -/
  | record (fields : List (String × Mapped))
  /-- The identity of a record and the number of its fields. -/
  | outline (id : Option ObjectId) (fieldCount : Nat)
  /-- An owner of a cell. -/
  | shared (cell : Nat)
  /-- A weak holder of a cell, or of none. -/
  | weak (cell : Option Nat)
deriving Inhabited

namespace Mapped

mutual

/-- The cells that a result owns at first hand. -/
def owned : Mapped → List Nat
  | .shared cell => [cell]
  | .present content => owned content
  | .list items => ownedByItems items
  | .record fields => ownedByFields fields
  | _ => []
termination_by structural m => m

/-- The cells that the items of a list own at first hand. -/
def ownedByItems : List Mapped → List Nat
  | [] => []
  | m :: rest => owned m ++ ownedByItems rest
termination_by structural ms => ms

/-- The cells that the fields of a record own at first hand. -/
def ownedByFields : List (String × Mapped) → List Nat
  | [] => []
  | (_, m) :: rest => owned m ++ ownedByFields rest
termination_by structural fs => fs

end

end Mapped

/-- The contents of the cells by number; a cell that is being built has none yet. -/
abbrev Heap := List (Option Mapped)

/-- A mapped result with its heap. -/
structure MappedGraph where
  /-- The result. -/
  root : Mapped
  /-- The heap. -/
  heap : Heap
deriving Inhabited

namespace MappedGraph

/-- The content of a cell. -/
def cell? (g : MappedGraph) (cell : Nat) : Option Mapped := (g.heap[cell]?).join

/-- The cells that some cells own at first hand. -/
def ownedByCells (g : MappedGraph) (cells : List Nat) : List Nat :=
  cells.flatMap fun c => match g.cell? c with
    | some m => m.owned
    | none => []

/-- The cells that can be reached from some cells by at most so many steps from owner to owned. -/
def reachWithin (g : MappedGraph) : Nat → List Nat → List Nat
  | 0, cells => cells
  | steps + 1, cells =>
    let next := (g.ownedByCells cells).filter fun c => !cells.contains c
    if next.isEmpty then cells else reachWithin g steps (cells ++ next.eraseDups)

/-- The cells that live: those that the result owns, and those that living cells own. -/
def living (g : MappedGraph) : List Nat := g.reachWithin g.heap.length g.root.owned.eraseDups

/-- Whether a weak holder still finds its cell. -/
def isAlive (g : MappedGraph) (cell : Nat) : Bool := g.living.contains cell

end MappedGraph
end QueryRelay
