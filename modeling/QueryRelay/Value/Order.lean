import QueryRelay.Value.Basic

/-!
# Comparing values

`Value.compareTotal` is the order used for sorting, extremes and keys: values of different kinds
are ordered by kind with null first, integers and floats compare as numbers, lists and records
lexicographically in field order with identities ignored. Two values are loosely equal when that
order cannot tell them apart. `Value.equals` is the structural equality: it takes floats
numerically, ignores the order of record fields and never mixes integers with floats.
-/

namespace QueryRelay.Value

/-- The place of each kind in the order; the two kinds of number share one. -/
def rank : Value → Nat
  | .null => 0
  | .bool _ => 1
  | .int _ => 2
  | .float _ => 2
  | .text _ => 3
  | .timestamp _ => 4
  | .list _ => 5
  | .record _ _ => 6
  | .ref _ => 7

mutual

/-- The order on values. -/
def compareTotal : Value → Value → Ordering
  | .int m, .int n => compare m.toInt n.toInt
  | .int m, .float y => (Binary64.ofInt m.toInt).compareTotal y
  | .float x, .int n => x.compareTotal (Binary64.ofInt n.toInt)
  | .float x, .float y => x.compareTotal y
  | .bool a, .bool b => compare a b
  | .text s, .text t => compare s t
  | .timestamp s, .timestamp t => s.compare t
  | .ref i, .ref j => compare i.number.toNat j.number.toNat
  | .list xs, .list ys => compareItems xs ys
  | .record _ fs, .record _ gs => compareFields fs gs
  | v, w => compare v.rank w.rank
termination_by structural v => v

/-- Lexicographic order on lists; a proper beginning comes first. -/
def compareItems : List Value → List Value → Ordering
  | [], [] => .eq
  | [], _ :: _ => .lt
  | _ :: _, [] => .gt
  | v :: vs, w :: ws => (compareTotal v w).then (compareItems vs ws)
termination_by structural vs => vs

/-- Lexicographic order on fields, a name counting before its value. -/
def compareFields : List (String × Value) → List (String × Value) → Ordering
  | [], [] => .eq
  | [], _ :: _ => .lt
  | _ :: _, [] => .gt
  | (m, v) :: vs, (n, w) :: ws =>
    ((compare m n).then (compareTotal v w)).then (compareFields vs ws)
termination_by structural vs => vs

end

/-- Equality with numeric widening: the order cannot tell the two apart. -/
def looselyEquals (v w : Value) : Bool := v.compareTotal w == .eq

mutual

/-- Structural equality. -/
def equals : Value → Value → Bool
  | .null, .null => true
  | .bool a, .bool b => a == b
  | .int m, .int n => m == n
  | .float x, .float y => x.numericEq y
  | .text s, .text t => s == t
  | .timestamp s, .timestamp t => s == t
  | .list xs, .list ys => equalItems xs ys
  | .record i fs, .record j gs => i == j && fs.length == gs.length && includedIn fs gs
  | .ref i, .ref j => i == j
  | _, _ => false
termination_by structural v => v

/-- Equal lists item by item. -/
def equalItems : List Value → List Value → Bool
  | [], [] => true
  | v :: vs, w :: ws => equals v w && equalItems vs ws
  | _, _ => false
termination_by structural vs => vs

/-- Whether each field has an equal one of its name on the other side. -/
def includedIn : List (String × Value) → Fields Value → Bool
  | [], _ => true
  | (name, v) :: rest, others =>
    (match others.get? name with
      | some w => equals v w
      | none => false) && includedIn rest others
termination_by structural fields => fields

end

instance : BEq Value := ⟨equals⟩

end QueryRelay.Value
