/-!
# Sets of code points

A set of characters as the ascending list of the code points at which membership changes: the
first bound enters the set, the second leaves it, and so on. A character belongs to the set when
an odd number of bounds is at or below its code point.
-/

namespace QueryRelay.Text

/-- A set of characters, as the code points at which membership changes. -/
structure CodeSet where
  /-- The bounds in ascending order. -/
  bounds : List Nat

namespace CodeSet

/-- Whether an odd number of bounds is at or below the code point. -/
def containsCode : List Nat → Nat → Bool
  | [], _ => false
  | b :: rest, n => if b ≤ n then !containsCode rest n else false

/-- Whether a character belongs to the set. -/
def contains (s : CodeSet) (c : Char) : Bool := containsCode s.bounds c.toNat

end CodeSet
end QueryRelay.Text
