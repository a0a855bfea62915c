/-!
# Operators

The operators of the expression language, each with the symbol that expressions show and the name
that payloads carry.
-/

namespace QueryRelay

/-- An operator on one value. -/
inductive UnaryOp where
  /-- Logical negation. -/
  | not
  /-- Arithmetic negation. -/
  | negate
deriving DecidableEq, Inhabited

namespace UnaryOp

/-- The symbol of an operator. -/
def symbol : UnaryOp → String
  | .not => "!"
  | .negate => "-"

/-- The name of an operator. -/
def name : UnaryOp → String
  | .not => "Not"
  | .negate => "Negate"

/-- All operators, in the order of their numbers. -/
def all : List UnaryOp := [.not, .negate]

end UnaryOp

/-- An operator on two values. -/
inductive BinaryOp where
  /-- Addition, also of texts. -/
  | add
  /-- Subtraction. -/
  | sub
  /-- Multiplication. -/
  | mul
  /-- Division. -/
  | div
  /-- Remainder. -/
  | rem
  /-- Equality. -/
  | eq
  /-- Inequality. -/
  | ne
  /-- Strictly less. -/
  | lt
  /-- At most. -/
  | le
  /-- Strictly greater. -/
  | gt
  /-- At least. -/
  | ge
  /-- Conjunction; the right side is looked at only when the left is true. -/
  | and
  /-- Disjunction; the right side is looked at only when the left is false. -/
  | or
  /-- The left value, or the right one if the left is null. -/
  | coalesce
deriving DecidableEq, Inhabited

namespace BinaryOp

/-- The symbol of an operator. -/
def symbol : BinaryOp → String
  | .add => "+"
  | .sub => "-"
  | .mul => "*"
  | .div => "/"
  | .rem => "%"
  | .eq => "=="
  | .ne => "!="
  | .lt => "<"
  | .le => "<="
  | .gt => ">"
  | .ge => ">="
  | .and => "&&"
  | .or => "||"
  | .coalesce => "??"

/-- The name of an operator. -/
def name : BinaryOp → String
  | .add => "Add"
  | .sub => "Sub"
  | .mul => "Mul"
  | .div => "Div"
  | .rem => "Rem"
  | .eq => "Eq"
  | .ne => "Ne"
  | .lt => "Lt"
  | .le => "Le"
  | .gt => "Gt"
  | .ge => "Ge"
  | .and => "And"
  | .or => "Or"
  | .coalesce => "Coalesce"

/-- All operators, in the order of their numbers. -/
def all : List BinaryOp :=
  [.add, .sub, .mul, .div, .rem, .eq, .ne, .lt, .le, .gt, .ge, .and, .or, .coalesce]

/-- Whether the operator compares its operands. -/
def isComparison : BinaryOp → Bool
  | .eq | .ne | .lt | .le | .gt | .ge => true
  | _ => false

/-- Whether the operator is a connective. -/
def isLogical : BinaryOp → Bool
  | .and | .or => true
  | _ => false

end BinaryOp

/-- The direction of a sort key. -/
inductive SortDirection where
  /-- Small keys first. -/
  | ascending
  /-- Large keys first. -/
  | descending
deriving DecidableEq, Inhabited

namespace SortDirection

/-- The word that expressions show. -/
def word : SortDirection → String
  | .ascending => "asc"
  | .descending => "desc"

/-- The name of a direction. -/
def name : SortDirection → String
  | .ascending => "Ascending"
  | .descending => "Descending"

/-- Both directions, in the order of their numbers. -/
def all : List SortDirection := [.ascending, .descending]

/-- A comparison, turned round when descending. -/
def orient (d : SortDirection) (o : Ordering) : Ordering :=
  match d with
  | .ascending => o
  | .descending => o.swap

end SortDirection

/-- An operator that turns a sequence into one value. -/
inductive Aggregate where
  /-- The number of elements. -/
  | count
  /-- The sum. -/
  | sum
  /-- The least element. -/
  | min
  /-- The greatest element. -/
  | max
  /-- The mean. -/
  | average
  /-- Whether there is an element. -/
  | any
  /-- Whether every element qualifies. -/
  | all
  /-- The first element. -/
  | first
  /-- The first element, or null. -/
  | firstOrDefault
  /-- The only element. -/
  | single
  /-- The only element, or null. -/
  | singleOrDefault
deriving DecidableEq, Inhabited

namespace Aggregate

/-- The name of an aggregate. -/
def name : Aggregate → String
  | .count => "Count"
  | .sum => "Sum"
  | .min => "Min"
  | .max => "Max"
  | .average => "Average"
  | .any => "Any"
  | .all => "All"
  | .first => "First"
  | .firstOrDefault => "FirstOrDefault"
  | .single => "Single"
  | .singleOrDefault => "SingleOrDefault"

/-- All aggregates, in the order of their numbers. -/
def every : List Aggregate :=
  [.count, .sum, .min, .max, .average, .any, .all, .first, .firstOrDefault, .single,
    .singleOrDefault]

/-- Whether the optional argument is a predicate and not a selector. -/
def takesPredicate : Aggregate → Bool
  | .sum | .min | .max | .average => false
  | _ => true

end Aggregate

end QueryRelay
