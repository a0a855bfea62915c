import QueryRelay.Error
import QueryRelay.Value.Basic

/-!
# Streams of elements

The elements that a stream gives to a reader who stops at the first fault: finitely many, of which
the last may be a fault, or values without end.
-/

namespace QueryRelay

/-- The elements of a stream. -/
inductive Elements where
  /-- Finitely many. -/
  | finite (items : List (Except Error Value))
  /-- Values without end. -/
  | endless (item : Nat → Value)

namespace Elements

/-- The element at a place. -/
def get? : Elements → Nat → Option (Except Error Value)
  | .finite items, i => items[i]?
  | .endless item, i => some (.ok (item i))

/-- All elements as one list. Collecting values without end only ends by being called off. -/
def collect : Elements → Except Error (List Value)
  | .finite items => items.mapM id
  | .endless _ => .error .cancelled

/-- The only element. -/
def single (s : Elements) : Except Error Value :=
  match s.get? 0 with
  | none => .error .emptyStream
  | some (.error e) => .error e
  | some (.ok v) =>
    match s.get? 1 with
    | none => .ok v
    | some (.ok _) => .error .multipleElements
    | some (.error e) => .error e

end Elements
end QueryRelay
