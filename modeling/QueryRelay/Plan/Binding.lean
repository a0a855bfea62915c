import QueryRelay.Catalog.Basic
import QueryRelay.Plan.Basic

/-!
# From plans to expressions

`Plan.toExpr` binds a plan to a catalog: each descriptor has to stand for a type, and each call has
to name a function of the catalog. The descriptors of a node are resolved before its sub-plans, save
the type of a lambda, which is not asked for.
-/

namespace QueryRelay.Plan

/-- The element type of the collection that a descriptor stands for. -/
def elementType (c : Catalog) (d : Descriptor) : Except Error Ty := do
  match (← c.resolve d).element? with
  | some t => return t
  | none => .error (.unknownType (.notCollection d.render))

/-- A count as an expression. -/
def countLiteral (n : UInt64) : Except Error Expr :=
  if n.toNat < 9223372036854775808 then .ok (.literal (.int (.ofNat n.toNat)))
  else .error (.unsupported (.countRange n.toNat))

/-- The parameters of a lambda with their types. -/
def parameterTypes (c : Catalog) : List Parameter → Except Error (List (String × Ty))
  | [] => .ok []
  | p :: rest => do return (p.name, ← c.resolve p.type) :: (← parameterTypes c rest)

/-- The operator of the sort key at a place. -/
def sortVerb (isFirst : Bool) (direction : SortDirection) : QueryVerb :=
  match isFirst, direction with
  | true, .ascending => .orderBy
  | true, .descending => .orderByDescending
  | false, .ascending => .thenBy
  | false, .descending => .thenByDescending

/-- Sort an expression by keys, the primary one first. -/
def applyKeys (source : Expr) : Bool → List (Expr × SortDirection) → Expr
  | _, [] => source
  | isFirst, (key, d) :: rest => applyKeys (source.applyVerb (sortVerb isFirst d) [key]) false rest

mutual

/-- The expression that a plan stands for. -/
def toExpr (c : Catalog) : Plan → Except Error Expr
  | .constant v t => do return .constant v (← c.resolve t)
  | .member target declaring name t => do
    let _ ← c.resolve declaring
    let _ ← c.resolve t
    return .member (← toExpr c target) name
  | .unary op operand t => do
    let _ ← c.resolve t
    return .unary op (← toExpr c operand)
  | .binary op l r t => do
    let _ ← c.resolve t
    return .binary op (← toExpr c l) (← toExpr c r)
  | .conditional test p q t => do
    let _ ← c.resolve t
    return .conditional (← toExpr c test) (← toExpr c p) (← toExpr c q)
  | .lambda params body _ => do
    let ps ← parameterTypes c params
    return .lambda ps (← toExpr c body)
  | .parameter p => do return .parameter p.name (← c.resolve p.type)
  | .call declaring name args t => do
    let owner ← c.resolve declaring
    let _ ← c.resolve t
    match c.function? owner name with
    | some f => return .call f (← toExprs c args)
    | none => .error (.unsupported (.unknownFunction owner.render name))
  | .object members args t => do
    let _ ← c.resolve t
    if members.length = args.length then return .object (members.zip (← toExprs c args))
    else .error (.unsupported (.memberCount members.length args.length))
  | .array items t => do
    let element ← elementType c t
    return .array element (← toExprs c items)
  | .list items t => do
    let element ← elementType c t
    return .list element (← toExprs c items)
  | .construct bindings t => do
    let type ← c.resolve t
    return .construct type (← toBindings c bindings)
  | .sortKey _ _ => .error (.unsupported .straySortKey)
  | .query op t => do
    let _ ← c.resolve t
    toQuery c op
termination_by structural p => p

/-- The expressions that several plans stand for. -/
def toExprs (c : Catalog) : List Plan → Except Error (List Expr)
  | [] => .ok []
  | p :: rest => do return (← toExpr c p) :: (← toExprs c rest)
termination_by structural ps => ps

/-- The named expressions that named plans stand for. -/
def toBindings (c : Catalog) : List (String × Plan) → Except Error (List (String × Expr))
  | [] => .ok []
  | (name, p) :: rest => do return (name, ← toExpr c p) :: (← toBindings c rest)
termination_by structural bs => bs

/-- The sort keys that plans stand for. -/
def toSortKeys (c : Catalog) : List Plan → Except Error (List (Expr × SortDirection))
  | [] => .ok []
  | .sortKey key d :: rest => do return (← toExpr c key, d) :: (← toSortKeys c rest)
  | p :: _ => .error (.unsupported (.notSortKey p.render))
termination_by structural ps => ps

/-- The expression that a query stage stands for. -/
def toQuery (c : Catalog) : QueryOp Plan → Except Error Expr
  | .source element => do return .source (← c.resolve element)
  | .filter s p => do return (← toExpr c s).applyVerb .filter [← toExpr c p]
  | .project s f many => do
    return (← toExpr c s).applyVerb (if many then .selectMany else .select) [← toExpr c f]
  | .sort s keys => do
    let source ← toExpr c s
    if keys.isEmpty then .error (.unsupported .noSortKeys)
    else return applyKeys source true (← toSortKeys c keys)
  | .skip s n => do return (← toExpr c s).applyVerb .skip [← countLiteral n]
  | .take s n => do return (← toExpr c s).applyVerb .take [← countLiteral n]
  | .groupBy s k none => do return (← toExpr c s).applyVerb .groupBy [← toExpr c k]
  | .groupBy s k (some e) => do
    return (← toExpr c s).applyVerb .groupBy [← toExpr c k, ← toExpr c e]
  | .join o i ok ik r => do
    return (← toExpr c o).applyVerb .join
      [← toExpr c i, ← toExpr c ok, ← toExpr c ik, ← toExpr c r]
  | .include s path => do return (← toExpr c s).includePath path
  | .aggregate s func none => do return (← toExpr c s).aggregate func none
  | .aggregate s func (some a) => do
    let argument ← toExpr c a
    return (← toExpr c s).aggregate func (some argument)
termination_by structural op => op

end

end QueryRelay.Plan
