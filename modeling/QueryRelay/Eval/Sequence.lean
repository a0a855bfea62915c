import QueryRelay.Eval.Operation

/-!
# Operations on sequences

Selection, sorting, grouping, joining and aggregation of lists of values, over predicates and
selectors that may fail. Elements are visited from left to right, and the first fault is the
outcome. Sorting is stable; equal keys keep their order.
-/

namespace QueryRelay

/-- A function on values that may fail. -/
abbrev Selector := Value → Except Error Value

namespace Sequence

/-- The elements that pass a test. -/
def keep (test : Selector) : List Value → Except Error (List Value)
  | [] => .ok []
  | v :: rest => do
    let passes ← (← test v).truth
    let kept ← keep test rest
    return if passes then v :: kept else kept

/-- The elements of the images of all elements. -/
def flatMap (f : Selector) : List Value → Except Error (List Value)
  | [] => .ok []
  | v :: rest => do
    let image ← (← f v).elements
    return image ++ (← flatMap f rest)

/-! ## Sorting -/

/-- An element with the values of its sort keys, the primary one first. -/
structure Keyed where
  /-- The values of the sort keys. -/
  keys : List Value
  /-- The element. -/
  element : Value
deriving Inhabited

/-- Lexicographic comparison of key values, each in its direction. -/
def compareKeys : List SortDirection → List Value → List Value → Ordering
  | d :: ds, v :: vs, w :: ws => (d.orient (v.compareTotal w)).then (compareKeys ds vs ws)
  | _, _, _ => .eq

/-- Insert an element into a list sorted from the last to the first, before all that it does not
precede. -/
def insertKeyed (directions : List SortDirection) (x : Keyed) : List Keyed → List Keyed
  | [] => [x]
  | y :: rest =>
    if compareKeys directions x.keys y.keys == .lt then y :: insertKeyed directions x rest
    else x :: y :: rest

/-- Sort by insertion from left to right. -/
def sortKeyed (directions : List SortDirection) (items : List Keyed) : List Keyed :=
  (items.foldl (fun sorted x => insertKeyed directions x sorted) []).reverse

/-- Evaluate the sort keys of an element. -/
def keyed (selectors : List Selector) (v : Value) : Except Error Keyed :=
  return ⟨← selectors.mapM fun f => f v, v⟩

/-- Sort by keys, the primary one first. -/
def sort (keys : List (Selector × SortDirection)) (items : List Value) :
    Except Error (List Value) := do
  let keyedItems ← items.mapM (keyed (keys.map Prod.fst))
  return (sortKeyed (keys.map Prod.snd) keyedItems).map Keyed.element

/-! ## Grouping and joining -/

/-- Groups in the order of their first element, each a key with elements. -/
abbrev Groups := List (Value × List Value)

/-- Put an element into the group of its key, or into a new last group. -/
def addToGroups (key element : Value) : Groups → Groups
  | [] => [(key, [element])]
  | (k, elements) :: rest =>
    if k.looselyEquals key then (k, elements ++ [element]) :: rest
    else (k, elements) :: addToGroups key element rest

/-- Group elements, or their images, by a key. -/
def groupBy (key : Selector) (image : Option Selector) (items : List Value) :
    Except Error (List Value) := do
  let entries ← items.mapM fun v => do
    let k ← key v
    let element ← match image with
      | some f => f v
      | none => .ok v
    return (k, element)
  let groups := entries.foldl (fun groups entry => addToGroups entry.1 entry.2 groups) []
  return groups.map fun g => .group g.1 g.2

/-- The inner elements whose key is loosely equal to an outer key; null has no partner. -/
def partners (key : Value) (inner : List (Value × Value)) : List Value :=
  if key.isNull then [] else (inner.filter fun entry => key.looselyEquals entry.1).map Prod.snd

/-- The results for all pairs of elements with equal keys, by outer and then by inner element. The
keys of all inner elements are evaluated first. -/
def join (outerKey innerKey : Selector) (result : Value → Value → Except Error Value)
    (outer inner : List Value) : Except Error (List Value) := do
  let keyedInner ← inner.mapM fun v => return (← innerKey v, v)
  let results ← outer.mapM fun o => do
    (partners (← outerKey o) keyedInner).mapM fun i => result o i
  return results.flatten

/-! ## Aggregation -/

/-- The sum of integers, each partial sum of which has to fit. -/
def sumInts : List Int64 → Int → Except Error Int
  | [], total => .ok total
  | n :: rest, total =>
    match Int64.ofInt? (total + n.toInt) with
    | some m => sumInts rest m.toInt
    | none => .error (.execution .sumOverflow)

/-- The sum of numbers as floating-point numbers, from left to right. -/
def sumFloats (fault : String → ExecutionFault) : List Value → Binary64 → Except Error Binary64
  | [], total => .ok total
  | v :: rest, total =>
    match v.asFloat? with
    | some x => sumFloats fault rest (total.add x)
    | none => .error (.execution (fault v.kindName))

/-- The sum: of integers only an integer, else a floating-point number. -/
def sum (items : List Value) : Except Error Value :=
  match items.mapM Value.asInt? with
  | some ns => (sumInts ns 0).map fun n => .int (.ofInt n)
  | none => (sumFloats .cannotSum items (.zero false)).map .float

/-- The mean of at least one number. -/
def average (items : List Value) : Except Error Value :=
  if items.isEmpty then .error (.execution .noElements)
  else (sumFloats .cannotAverage items (.zero false)).map fun total =>
    .float (total.div (.ofNat items.length))

/-- The first of the least elements. -/
def least : List Value → Option Value
  | [] => none
  | v :: rest => some (rest.foldl (fun m w => if m.compareTotal w == .gt then w else m) v)

/-- The last of the greatest elements. -/
def greatest : List Value → Option Value
  | [] => none
  | v :: rest => some (rest.foldl (fun m w => if m.compareTotal w == .gt then m else w) v)

/-- The element there is, or a fault. -/
def orFault (fault : ExecutionFault) : Option Value → Except Error Value
  | some v => .ok v
  | none => .error (.execution fault)

/-- The only element; `fallback` answers for none. -/
def only (fallback : Except Error Value) : List Value → Except Error Value
  | [] => fallback
  | [v] => .ok v
  | _ => .error (.execution .manyMatches)

/-- The elements that pass a test, if there is one. -/
def qualifying (argument : Option Selector) (items : List Value) : Except Error (List Value) :=
  match argument with
  | some test => keep test items
  | none => .ok items

/-- The elements, or their images, that are not null. -/
def present (argument : Option Selector) (items : List Value) : Except Error (List Value) := do
  let images ← match argument with
    | some f => items.mapM f
    | none => .ok items
  return images.filter fun v => !v.isNull

/-- Form one value from all elements, with an optional predicate or selector. -/
def aggregate (func : Aggregate) (argument : Option Selector) (items : List Value) :
    Except Error Value :=
  match func with
  | .count => (qualifying argument items).map fun vs => .int (.ofNat vs.length)
  | .any => (qualifying argument items).map fun vs => .bool !vs.isEmpty
  | .all => (qualifying argument items).map fun vs => .bool (vs.length == items.length)
  | .sum => (present argument items).bind sum
  | .min => (present argument items).bind fun vs => orFault .noElements (least vs)
  | .max => (present argument items).bind fun vs => orFault .noElements (greatest vs)
  | .average => (present argument items).bind average
  | .first => (qualifying argument items).bind fun vs => orFault .noMatch vs.head?
  | .firstOrDefault => (qualifying argument items).map fun vs => vs.head?.getD .null
  | .single => (qualifying argument items).bind (only (.error (.execution .noMatch)))
  | .singleOrDefault => (qualifying argument items).bind (only (.ok .null))

end Sequence
end QueryRelay
