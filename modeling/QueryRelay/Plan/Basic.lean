import QueryRelay.Descriptor.Basic
import QueryRelay.Operator
import QueryRelay.Value.Order

/-!
# Plans

A plan is a query as plain data. Every node carries the descriptor of the value that it produces,
so that the receiver can check it against types of its own. A stage of a query is an operator over
plans, its source among them.
-/

namespace QueryRelay

/-- A stage of a query over sub-plans of type `α`. -/
inductive QueryOp (α : Type) where
  /-- The table of an element type. -/
  | source (element : Descriptor)
  /-- The elements that satisfy a predicate. -/
  | filter (source predicate : α)
  /-- The image of each element, or the elements of each image when `many`. -/
  | project (source selector : α) (many : Bool)
  /-- The elements in the order of keys, the primary one first. -/
  | sort (source : α) (keys : List α)
  /-- The elements without the first `count`. -/
  | skip (source : α) (count : UInt64)
  /-- The first `count` elements. -/
  | take (source : α) (count : UInt64)
  /-- The elements, or their images, grouped by a key. -/
  | groupBy (source key : α) (element : Option α)
  /-- The pairs of elements with equal keys. -/
  | join (outer inner outerKey innerKey result : α)
  /-- The elements with a navigation path loaded. -/
  | include (source : α) (path : String)
  /-- One value from all elements. -/
  | aggregate (source : α) (func : Aggregate) (argument : Option α)
deriving Inhabited

/-- A lambda parameter, or a reference to one. -/
structure Parameter where
  /-- The name. -/
  name : String
  /-- The type of its values. -/
  type : Descriptor
deriving Inhabited

/-- A query, or a part of one, as plain data. -/
inductive Plan where
  /-- A constant. -/
  | constant (value : Value) (type : Descriptor)
  /-- A member of a value, with the type that declares it. -/
  | member (target : Plan) (declaring : Descriptor) (member : String) (type : Descriptor)
  /-- A unary operator. -/
  | unary (op : UnaryOp) (operand : Plan) (type : Descriptor)
  /-- A binary operator. -/
  | binary (op : BinaryOp) (left right : Plan) (type : Descriptor)
  /-- One of two values, by a test. -/
  | conditional (test whenTrue whenFalse : Plan) (type : Descriptor)
  /-- A function of its parameters; the type is that of the body. -/
  | lambda (params : List Parameter) (body : Plan) (type : Descriptor)
  /-- A reference to a parameter. -/
  | parameter (param : Parameter)
  /-- A call of a function that is no query operator. -/
  | call (declaring : Descriptor) (name : String) (args : List Plan) (type : Descriptor)
  /-- An anonymous object. -/
  | object (members : List String) (args : List Plan) (type : Descriptor)
  /-- An array. -/
  | array (items : List Plan) (type : Descriptor)
  /-- A list. -/
  | list (items : List Plan) (type : Descriptor)
  /-- A named record. -/
  | construct (bindings : List (String × Plan)) (type : Descriptor)
  /-- One key of a sort. -/
  | sortKey (key : Plan) (direction : SortDirection)
  /-- A stage of a query. -/
  | query (op : QueryOp Plan) (type : Descriptor)
deriving Inhabited

namespace QueryOp

variable {α β : Type}

/-- The name of an operator, as plans show it. -/
def name : QueryOp α → String
  | .source _ => "Source"
  | .filter _ _ => "Where"
  | .project _ _ false => "Select"
  | .project _ _ true => "SelectMany"
  | .sort _ _ => "OrderBy"
  | .skip _ _ => "Skip"
  | .take _ _ => "Take"
  | .groupBy _ _ _ => "GroupBy"
  | .join _ _ _ _ _ => "Join"
  | .include _ _ => "Include"
  | .aggregate _ func _ => func.name

/-- What the operator consumes. -/
def source? : QueryOp α → Option α
  | .source _ => none
  | .filter s _ | .project s _ _ | .sort s _ | .skip s _ | .take s _ | .groupBy s _ _ => some s
  | .include s _ | .aggregate s _ _ => some s
  | .join outer _ _ _ _ => some outer

/-- The sub-plans in order. -/
def children : QueryOp α → List α
  | .source _ => []
  | .filter s p => [s, p]
  | .project s f _ => [s, f]
  | .sort s keys => s :: keys
  | .skip s _ | .take s _ | .include s _ => [s]
  | .groupBy s k e => s :: k :: e.toList
  | .join o i ok ik r => [o, i, ok, ik, r]
  | .aggregate s _ a => s :: a.toList

end QueryOp

namespace Plan

/-- The type of the value that a plan produces. -/
def type : Plan → Descriptor
  | .constant _ t | .member _ _ _ t | .unary _ _ t | .binary _ _ _ t | .conditional _ _ _ t => t
  | .lambda _ _ t | .call _ _ _ t | .object _ _ t | .array _ t | .list _ t => t
  | .construct _ t | .query _ t => t
  | .parameter p => p.type
  | .sortKey key _ => key.type

/-- Whether the root is a stage of a query. -/
def isQuery : Plan → Bool
  | .query _ _ => true
  | _ => false

/-- The direct sub-plans in order of evaluation. -/
def children : Plan → List Plan
  | .constant _ _ | .parameter _ => []
  | .member target _ _ _ => [target]
  | .unary _ operand _ => [operand]
  | .binary _ l r _ => [l, r]
  | .conditional c t f _ => [c, t, f]
  | .lambda _ body _ => [body]
  | .call _ _ args _ | .object _ args _ => args
  | .array items _ | .list items _ => items
  | .construct bindings _ => bindings.map Prod.snd
  | .sortKey key _ => [key]
  | .query op _ => op.children

/-! ## Text -/

/-- A braced list of texts after a head. -/
def braced (head : String) (parts : List String) : String :=
  head ++ " \x7b " ++ ", ".intercalate parts ++ " \x7d"

/-- Names with their texts, as far as both lists go. -/
def assignments (names texts : List String) : List String :=
  List.zipWith (fun n t => n ++ " = " ++ t) names texts

/-- A lambda before an arrow; one parameter stands without parentheses. -/
def parameterText (names : List String) : String :=
  match names with
  | [n] => n
  | _ => "(" ++ ", ".intercalate names ++ ")"

/-- The text of an element type, empty for a type that is no collection. -/
def elementText (d : Descriptor) : String :=
  match d.element? with
  | some e => e.render
  | none => ""

mutual

/-- The text that shows a plan, a query as a chain of calls. -/
def render : Plan → String
  | .constant v _ => v.render
  | .member target _ m _ => render target ++ "." ++ m
  | .unary op operand _ => op.symbol ++ render operand
  | .binary op l r _ => "(" ++ render l ++ " " ++ op.symbol ++ " " ++ render r ++ ")"
  | .conditional c t f _ => "(" ++ render c ++ " ? " ++ render t ++ " : " ++ render f ++ ")"
  | .lambda params body _ => parameterText (params.map Parameter.name) ++ " => " ++ render body
  | .parameter p => p.name
  | .call declaring name args _ =>
    declaring.qualifiedName ++ "." ++ name ++ "(" ++ ", ".intercalate (renderAll args) ++ ")"
  | .object members args _ => braced "new" (assignments members (renderAll args))
  | .array items t => braced ("new " ++ elementText t ++ "[]") (renderAll items)
  | .list items t => braced ("new List<" ++ elementText t ++ ">") (renderAll items)
  | .construct bindings t => braced ("new " ++ t.qualifiedName) (renderBindings bindings)
  | .sortKey key d => render key ++ " " ++ d.word
  | .query op _ => renderOp op
termination_by structural p => p

/-- The texts of several plans. -/
def renderAll : List Plan → List String
  | [] => []
  | p :: rest => render p :: renderAll rest
termination_by structural ps => ps

/-- The texts of member bindings. -/
def renderBindings : List (String × Plan) → List String
  | [] => []
  | (name, p) :: rest => (name ++ " = " ++ render p) :: renderBindings rest
termination_by structural bs => bs

/-- The text of a query stage after its source. -/
def renderOp : QueryOp Plan → String
  | .source element => "Source<" ++ element.render ++ ">"
  | .filter s p => render s ++ ".Where(" ++ render p ++ ")"
  | .project s f many =>
    render s ++ (if many then ".SelectMany(" else ".Select(") ++ render f ++ ")"
  | .sort s keys => render s ++ ".OrderBy(" ++ ", ".intercalate (renderAll keys) ++ ")"
  | .skip s n => render s ++ ".Skip(" ++ toString n.toNat ++ ")"
  | .take s n => render s ++ ".Take(" ++ toString n.toNat ++ ")"
  | .groupBy s k none => render s ++ ".GroupBy(" ++ render k ++ ")"
  | .groupBy s k (some e) => render s ++ ".GroupBy(" ++ render k ++ ", " ++ render e ++ ")"
  | .join o i ok ik r =>
    render o ++ ".Join(" ++ render i ++ ", " ++ render ok ++ ", " ++ render ik ++ ", " ++
      render r ++ ")"
  | .include s path => render s ++ ".Include(\"" ++ path ++ "\")"
  | .aggregate s func none => render s ++ "." ++ func.name ++ "()"
  | .aggregate s func (some a) => render s ++ "." ++ func.name ++ "(" ++ render a ++ ")"
termination_by structural op => op

end

end Plan
end QueryRelay
