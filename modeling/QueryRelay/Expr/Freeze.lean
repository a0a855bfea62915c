import QueryRelay.Eval.Meaning
import QueryRelay.Expr.Traversal
import QueryRelay.Expr.Typing

/-!
# Local evaluation

A sub-expression is closed when it depends on no parameter, no source, no lambda and no function
without a body. `Expr.freeze` evaluates the closed sub-expressions nearest to the root, those that a
predicate admits, and puts a constant of their static type in their place; the type is found before
the value.
-/

namespace QueryRelay.Expr

mutual

/-- Whether an expression can be evaluated on its own. -/
def isClosed : Expr → Bool
  | .constant _ _ | .captured _ _ _ => true
  | .source _ | .parameter _ _ | .lambda _ _ | .query _ _ => false
  | .member target _ => isClosed target
  | .unary _ operand => isClosed operand
  | .binary _ l r => isClosed l && isClosed r
  | .conditional c p q => isClosed c && isClosed p && isClosed q
  | .call f args => f.body.isSome && allClosed args
  | .object members => membersClosed members
  | .array _ items => allClosed items
  | .list _ items => allClosed items
  | .construct _ bindings => membersClosed bindings
termination_by structural e => e

/-- Whether several expressions can be evaluated on their own. -/
def allClosed : List Expr → Bool
  | [] => true
  | e :: rest => isClosed e && allClosed rest
termination_by structural es => es

/-- Whether named expressions can be evaluated on their own. -/
def membersClosed : List (String × Expr) → Bool
  | [] => true
  | (_, e) :: rest => isClosed e && membersClosed rest
termination_by structural bs => bs

end

mutual

/-- The static type of a closed expression. -/
def staticType (c : Catalog) : Expr → Except Error Ty
  | .constant _ t => .ok t
  | .captured _ t _ => .ok t
  | .member target name => do c.typeOfMember (← staticType c target) name
  | .unary op operand => do op.resultType (← staticType c operand)
  | .binary op l r => do op.resultType (← staticType c l) (← staticType c r)
  | .conditional _ p q => do Ty.unify (← staticType c p) (← staticType c q)
  | .call f _ => .ok f.returns
  | .object members => (memberTypes c members).map .anonymous
  | .array t _ => .ok (.seq t)
  | .list t _ => .ok (.seq t)
  | .construct t _ => .ok t
  | .source t => .ok (.seq t)
  | .parameter _ t => .ok t
  | .lambda _ _ | .query _ _ => .ok .dynamic
termination_by structural e => e

/-- The static types of named closed expressions. -/
def memberTypes (c : Catalog) : List (String × Expr) → Except Error (List (String × Ty))
  | [] => .ok []
  | (name, e) :: rest => do return (name, ← staticType c e) :: (← memberTypes c rest)
termination_by structural bs => bs

end

/-- What decides whether a closed expression may be evaluated here. -/
abbrev LocalTest := Expr → Bool

/-- Whether freezing evaluates an expression as a whole. -/
def isFreezable (admits : LocalTest) (e : Expr) : Bool := !e.isConstant && e.isClosed && admits e

/-- The constant that an expression evaluates to. -/
def toConstant (c : Catalog) (e : Expr) : Except Error Expr := do
  let type ← staticType c e
  let value ← e.evaluate Store.empty.elements
  return .constant value type

/-- Evaluate the closed sub-expressions nearest to the root. -/
def freeze (c : Catalog) (admits : LocalTest) (e : Expr) : Except Error Expr :=
  e.replaceM fun part => if isFreezable admits part then some (part.toConstant c) else none

end QueryRelay.Expr
