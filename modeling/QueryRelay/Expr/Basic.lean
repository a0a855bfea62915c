import QueryRelay.Error
import QueryRelay.Expr.Ty

/-!
# Expressions

An expression is a query that can run here: it may hold values captured from its surroundings and
functions with a body, neither of which can be sent elsewhere. A query operator is a verb applied
to arguments, the first of which is its source.
-/

namespace QueryRelay

/-- A function on values. -/
structure Function where
  /-- The type on which it is declared. -/
  declaring : Ty
  /-- Its name. -/
  name : String
  /-- The type of its results. -/
  returns : Ty
  /-- What it does, if it can run here. -/
  body : Option (List Value → Except Error Value)

/-- A query operator. -/
inductive QueryVerb where
  /-- Keep what satisfies a predicate. -/
  | filter
  /-- Take the image of each element. -/
  | select
  /-- Take the elements of the image of each element. -/
  | selectMany
  /-- Sort by a key. -/
  | orderBy
  /-- Sort by a key, large ones first. -/
  | orderByDescending
  /-- Break ties by a further key. -/
  | thenBy
  /-- Break ties by a further key, large ones first. -/
  | thenByDescending
  /-- Leave out the first elements. -/
  | skip
  /-- Keep the first elements. -/
  | take
  /-- Group by a key. -/
  | groupBy
  /-- Pair with the elements of another sequence by equal keys. -/
  | join
  /-- Load a navigation. -/
  | include
  /-- Load a further navigation below the one before. -/
  | thenInclude
  /-- Form one value. -/
  | aggregate (func : Aggregate)
deriving DecidableEq, Inhabited

namespace QueryVerb

/-- The name of an operator. -/
def name : QueryVerb → String
  | .filter => "Where"
  | .select => "Select"
  | .selectMany => "SelectMany"
  | .orderBy => "OrderBy"
  | .orderByDescending => "OrderByDescending"
  | .thenBy => "ThenBy"
  | .thenByDescending => "ThenByDescending"
  | .skip => "Skip"
  | .take => "Take"
  | .groupBy => "GroupBy"
  | .join => "Join"
  | .include => "Include"
  | .thenInclude => "ThenInclude"
  | .aggregate func => func.name

/-- All operators. -/
def all : List QueryVerb :=
  [.filter, .select, .selectMany, .orderBy, .orderByDescending, .thenBy, .thenByDescending, .skip,
    .take, .groupBy, .join, .include, .thenInclude] ++ Aggregate.every.map .aggregate

end QueryVerb

/-- An expression. -/
inductive Expr where
  /-- A constant of a type. -/
  | constant (value : Value) (type : Ty)
  /-- A value captured from the surroundings under a name. -/
  | captured (name : String) (type : Ty) (value : Value)
  /-- The table of an element type. -/
  | source (element : Ty)
  /-- A reference to a parameter. -/
  | parameter (name : String) (type : Ty)
  /-- A member of a value. -/
  | member (target : Expr) (member : String)
  /-- A unary operator. -/
  | unary (op : UnaryOp) (operand : Expr)
  /-- A binary operator. -/
  | binary (op : BinaryOp) (left right : Expr)
  /-- One of two values, by a test. -/
  | conditional (test whenTrue whenFalse : Expr)
  /-- A function of its parameters. -/
  | lambda (params : List (String × Ty)) (body : Expr)
  /-- A query operator. -/
  | query (verb : QueryVerb) (args : List Expr)
  /-- A call of a function. -/
  | call (function : Function) (args : List Expr)
  /-- An anonymous object. -/
  | object (members : List (String × Expr))
  /-- An array of an element type. -/
  | array (element : Ty) (items : List Expr)
  /-- A list of an element type. -/
  | list (element : Ty) (items : List Expr)
  /-- A record of a named type. -/
  | construct (type : Ty) (bindings : List (String × Expr))

namespace Expr

instance : Inhabited Expr := ⟨.source .dynamic⟩

/-- The direct sub-expressions in order of evaluation. -/
def children : Expr → List Expr
  | .constant _ _ | .captured _ _ _ | .source _ | .parameter _ _ => []
  | .member target _ => [target]
  | .unary _ operand => [operand]
  | .binary _ l r => [l, r]
  | .conditional c t f => [c, t, f]
  | .lambda _ body => [body]
  | .query _ args | .call _ args => args
  | .array _ items | .list _ items => items
  | .object members => members.map Prod.snd
  | .construct _ bindings => bindings.map Prod.snd

/-- Rebuild a node from the results of an action on its direct sub-expressions, in order. -/
def mapChildrenM {m : Type → Type} [Monad m] (f : Expr → m Expr) : Expr → m Expr
  | .constant v t => return .constant v t
  | .captured n t v => return .captured n t v
  | .source t => return .source t
  | .parameter n t => return .parameter n t
  | .member target name => return .member (← f target) name
  | .unary op operand => return .unary op (← f operand)
  | .binary op l r => return .binary op (← f l) (← f r)
  | .conditional c p q => return .conditional (← f c) (← f p) (← f q)
  | .lambda params body => return .lambda params (← f body)
  | .query verb args => return .query verb (← args.mapM f)
  | .call function args => return .call function (← args.mapM f)
  | .object members => return .object (← members.mapM fun b => return (b.1, ← f b.2))
  | .array t items => return .array t (← items.mapM f)
  | .list t items => return .list t (← items.mapM f)
  | .construct t bindings =>
    return .construct t (← bindings.mapM fun b => return (b.1, ← f b.2))

/-- The operator at the root, if it is a query operator. -/
def verb? : Expr → Option QueryVerb
  | .query verb _ => some verb
  | _ => none

/-- Whether the root is a constant. -/
def isConstant : Expr → Bool
  | .constant _ _ => true
  | _ => false

/-- Whether the root is a captured value. -/
def isCaptured : Expr → Bool
  | .captured _ _ _ => true
  | _ => false

/-- Whether the root is a query operator or a call. -/
def isCall : Expr → Bool
  | .query _ _ | .call _ _ => true
  | _ => false

/-! ## Text -/

/-- A braced list of texts after a head. -/
def braced (head : String) (parts : List String) : String :=
  head ++ " \x7b " ++ ", ".intercalate parts ++ " \x7d"

/-- Parameter names before an arrow; a single one stands without parentheses. -/
def parameterText (names : List String) : String :=
  match names with
  | [n] => n
  | _ => "(" ++ ", ".intercalate names ++ ")"

mutual

/-- The text that shows an expression, a query as a chain of calls. -/
def render : Expr → String
  | .constant v _ => v.render
  | .captured n _ _ => "<" ++ n ++ ">"
  | .source t => "Source<" ++ t.render ++ ">"
  | .parameter n _ => n
  | .member target name => render target ++ "." ++ name
  | .unary op operand => op.symbol ++ render operand
  | .binary op l r => "(" ++ render l ++ " " ++ op.symbol ++ " " ++ render r ++ ")"
  | .conditional c p q => "(" ++ render c ++ " ? " ++ render p ++ " : " ++ render q ++ ")"
  | .lambda params body => parameterText (params.map Prod.fst) ++ " => " ++ render body
  | .query verb args =>
    match renderAll args with
    | first :: rest => first ++ "." ++ verb.name ++ "(" ++ ", ".intercalate rest ++ ")"
    | [] => verb.name ++ "()"
  | .call f args =>
    f.declaring.render ++ "." ++ f.name ++ "(" ++ ", ".intercalate (renderAll args) ++ ")"
  | .object members => braced "new" (renderBindings members)
  | .array t items => braced ("new " ++ t.render ++ "[]") (renderAll items)
  | .list t items => braced ("new " ++ t.render ++ "[]") (renderAll items)
  | .construct t bindings => braced ("new " ++ t.render) (renderBindings bindings)
termination_by structural e => e

/-- The texts of several expressions. -/
def renderAll : List Expr → List String
  | [] => []
  | e :: rest => render e :: renderAll rest
termination_by structural es => es

/-- The texts of named values. -/
def renderBindings : List (String × Expr) → List String
  | [] => []
  | (name, e) :: rest => (name ++ " = " ++ render e) :: renderBindings rest
termination_by structural bs => bs

end

/-! ## Construction -/

/-- A constant whose type follows from its value. -/
def literal (v : Value) : Expr := .constant v (.ofLiteral v)

/-- Apply a query operator to this source and further arguments. -/
def applyVerb (e : Expr) (verb : QueryVerb) (args : List Expr) : Expr := .query verb (e :: args)

/-- Keep the first elements. -/
def take (e : Expr) (count : Int64) : Expr := e.applyVerb .take [literal (.int count)]

/-- Leave out the first elements. -/
def skip (e : Expr) (count : Int64) : Expr := e.applyVerb .skip [literal (.int count)]

/-- Load a navigation given as a dotted path. -/
def includePath (e : Expr) (path : String) : Expr := e.applyVerb .include [literal (.text path)]

/-- Form one value, with an optional predicate or selector. -/
def aggregate (e : Expr) (func : Aggregate) (argument : Option Expr) : Expr :=
  e.applyVerb (.aggregate func) argument.toList

end Expr
end QueryRelay
