import QueryRelay.Catalog.Basic

/-!
# Result types

The static types of operators, conditionals and members, and of aggregates. An operand that may be
null makes an arithmetic result that may be null; untyped data makes an untyped one.
-/

namespace QueryRelay

/-- The type of a member of a value. -/
def Catalog.typeOfMember (c : Catalog) (target : Ty) (name : String) : Except Error Ty :=
  match c.memberType? target name with
  | some t => .ok t
  | none => .error (.unsupported (.noMember target.render name))

/-- The result type of an operator on one operand. -/
def UnaryOp.resultType (op : UnaryOp) (operand : Ty) : Except Error Ty :=
  match op with
  | .not => .ok .bool
  | .negate =>
    if operand.isNumeric || operand.isDynamic then .ok operand
    else .error (.unsupported (.cannotNegate operand.render))

namespace Ty

/-- The type of arithmetic on operands that are not null, if there is one. -/
def arithmetic? : Ty → Ty → Option Ty
  | .dynamic, _ => some .dynamic
  | _, .dynamic => some .dynamic
  | .int, .int => some .int
  | .int, .float => some .float
  | .float, .int => some .float
  | .float, .float => some .float
  | _, _ => none

/-- Whether this is the type of texts. -/
def isText : Ty → Bool
  | .text => true
  | _ => false

/-- The type of a literal null. -/
def null : Ty := .option .dynamic

/-- The common type of two branches. A branch that is a literal null, or lacks the other's mark for
null, takes the other's type with the mark. -/
def unify (whenTrue whenFalse : Ty) : Except Error Ty :=
  if whenTrue == whenFalse then .ok whenTrue
  else if whenTrue == null then .ok whenFalse.optional
  else if whenFalse == null then .ok whenTrue.optional
  else if whenTrue == .option whenFalse then .ok whenFalse.optional
  else if whenFalse == .option whenTrue then .ok whenTrue.optional
  else if whenTrue.isDynamic || whenFalse.isDynamic then .ok .dynamic
  else .error (.ambiguous (.branches whenTrue.render whenFalse.render))

end Ty

/-- The result type of an operator on two operands. -/
def BinaryOp.resultType (op : BinaryOp) (left right : Ty) : Except Error Ty :=
  if op.isComparison || op.isLogical then .ok .bool
  else if op = .coalesce then .ok (if left.isOption then right else left)
  else if op = .add ∧ (left.unwrapped.isText || right.unwrapped.isText) then .ok .text
  else
    match left.unwrapped.arithmetic? right.unwrapped with
    | some t => .ok (if left.isOption || right.isOption then t.optional else t)
    | none => .error (.unsupported (.operatorTypes op left.render right.render))

namespace Aggregate

/-- The result type of an aggregate with an optional predicate over elements of a type. -/
def predicateResult (func : Aggregate) (element : Ty) : Ty :=
  match func with
  | .count => .int
  | .any | .all => .bool
  | .firstOrDefault | .singleOrDefault => element.optional
  | _ => element

/-- The result type of an aggregate with an optional selector over values of a type. -/
def selectorResult (func : Aggregate) (value : Ty) : Except Error Ty :=
  let numeric := value.isNumeric || value.isDynamic
  match func with
  | .min | .max => .ok value
  | .sum => if numeric then .ok value.unwrapped else fault value
  | .average => if numeric then .ok .float else fault value
  | _ => fault value
where
  /-- The fault of an aggregate that does not apply. -/
  fault (value : Ty) : Except Error Ty :=
    .error (.unsupported (.aggregateType func value.render))

end Aggregate
end QueryRelay
