import QueryRelay.Error
import QueryRelay.Plan.Traversal

/-!
# Linear queries

The shape of most queries: one source, filters, sort keys, and at most one skip and one take. A
linear query is a value; each operation gives a new one. It stands for one chain of stages, filters
first, then the sort, the skip and the take, and `LinearQuery.ofPlan` reads it off such a chain.
-/

namespace QueryRelay

/-- A query of one source with filters, sort keys and a window. -/
structure LinearQuery where
  /-- The element type of the source. -/
  element : Descriptor
  /-- The predicates in the order in which they apply. -/
  filters : List Plan
  /-- The sort keys, the primary one first. -/
  sortKeys : List Plan
  /-- How many elements are left out. -/
  skipCount : Option UInt64
  /-- How many elements are kept. -/
  takeCount : Option UInt64
deriving Inhabited

namespace LinearQuery

/-- All elements of a source. -/
def ofSource (element : Descriptor) : LinearQuery := ⟨element, [], [], none, none⟩

/-- Add a predicate. -/
def filter (q : LinearQuery) (predicate : Plan) : LinearQuery :=
  { q with filters := q.filters ++ [predicate] }

/-- Add a sort key after those there are. -/
def orderBy (q : LinearQuery) (key : Plan) (direction : SortDirection) : LinearQuery :=
  { q with sortKeys := q.sortKeys ++ [.sortKey key direction] }

/-- Set how many elements are left out. -/
def skip (q : LinearQuery) (count : UInt64) : LinearQuery := { q with skipCount := some count }

/-- Set how many elements are kept. -/
def take (q : LinearQuery) (count : UInt64) : LinearQuery := { q with takeCount := some count }

/-- The chain of stages that a linear query stands for. -/
def toPlan (q : LinearQuery) : Plan :=
  let type := q.element.sequence
  let source : Plan := .query (.source q.element) type
  let filtered := q.filters.foldl (fun p predicate => .query (.filter p predicate) type) source
  let sorted := if q.sortKeys.isEmpty then filtered else .query (.sort filtered q.sortKeys) type
  let skipped := match q.skipCount with
    | some n => .query (.skip sorted n) type
    | none => sorted
  match q.takeCount with
  | some n => .query (.take skipped n) type
  | none => skipped

/-- The place of a stage in the chain, counted from the source. -/
def stageRank : QueryOp Plan → Option Nat
  | .source _ => some 0
  | .filter _ _ => some 1
  | .sort _ _ => some 2
  | .skip _ _ => some 3
  | .take _ _ => some 4
  | _ => none

/-- Refuse a stage that does not stand below `rank`; filters may follow each other. -/
def checkRank (rank : Nat) (op : QueryOp Plan) : Except Error Unit :=
  match stageRank op with
  | none => .error (.unsupported (.notLinear op.name))
  | some n =>
    if rank ≤ n ∧ n ≠ 1 then .error (.unsupported (.outOfOrder op.name)) else .ok ()

/-- Read a linear query off the part of a chain whose stages stand below `rank`. -/
def readBelow (rank : Nat) : Plan → Except Error LinearQuery
  | .query (.source element) _ => .ok (ofSource element)
  | .query (.filter s predicate) _ => do
    checkRank rank (.filter s predicate)
    return (← readBelow 1 s).filter predicate
  | .query (.sort s keys) _ => do
    checkRank rank (.sort s keys)
    return { ← readBelow 2 s with sortKeys := keys }
  | .query (.skip s n) _ => do
    checkRank rank (.skip s n)
    return (← readBelow 3 s).skip n
  | .query (.take s n) _ => do
    checkRank rank (.take s n)
    return (← readBelow 4 s).take n
  | .query op _ => .error (.unsupported (.notLinear op.name))
  | p => .error (.unsupported (.notQuery p.render))
termination_by structural p => p

/-- Read a linear query off a chain of stages. -/
def ofPlan (p : Plan) : Except Error LinearQuery := readBelow 5 p

instance : BEq LinearQuery where
  beq q r :=
    q.element == r.element && q.filters == r.filters && q.sortKeys == r.sortKeys &&
      q.skipCount == r.skipCount && q.takeCount == r.takeCount

end LinearQuery
end QueryRelay
