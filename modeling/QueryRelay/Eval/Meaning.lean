import QueryRelay.Eval.Sequence
import QueryRelay.Eval.Store
import QueryRelay.Expr.Basic

/-!
# The meaning of expressions

`Expr.meaning` gives each expression its meaning from the meanings of its parts: the value that it
has in a scope, what it does when it is applied to arguments, and the chain of sort keys that it
ends. Only a lambda can be applied, and only a sort operator ends a chain; the other cases are
faults. `Expr.evaluate` is the value in the empty scope.
-/

namespace QueryRelay

/-- The values of the parameters in scope, the innermost first. -/
abbrev Scope := List (String × Value)

/-- Bind parameters to arguments; of two parameters with one name the last counts. -/
def Scope.bind (scope : Scope) (params : List String) (args : List Value) : Scope :=
  (params.zip args).reverse ++ scope

/-- What can be applied to arguments in a scope. -/
abbrev Applicable := Scope → List Value → Except Error Value

/-- A source with sort keys, the primary one first. -/
structure SortChain where
  /-- The value that is sorted. -/
  source : Scope → Except Error Value
  /-- The keys. -/
  keys : List (Applicable × SortDirection)

/-- The meaning of an expression. -/
structure Meaning where
  /-- The value in a scope. -/
  value : Scope → Except Error Value
  /-- The result of applying it in a scope. -/
  apply : Applicable
  /-- The sort that a further key would refine. -/
  chain : Except Error SortChain

instance : Inhabited Meaning :=
  ⟨fun _ => .error .cancelled, fun _ _ => .error .cancelled, .error .cancelled⟩

namespace Meaning

/-- The elements of the value in a scope. -/
def elements (m : Meaning) (scope : Scope) : Except Error (List Value) :=
  (m.value scope).bind Value.elements

/-- The argument at a place. -/
def argument (operator : String) (args : List Meaning) (index : Nat) : Except Error Meaning :=
  match args[index]? with
  | some m => .ok m
  | none => .error (.execution (.missingArgument operator index))

/-- The chain that a sort operator ends: a primary key starts one, a further key extends that of its
source. -/
def sortChain (verb : QueryVerb) (args : List Meaning) : Except Error SortChain :=
  match args with
  | source :: key :: _ =>
    match verb with
    | .orderBy => .ok ⟨source.value, [(key.apply, .ascending)]⟩
    | .orderByDescending => .ok ⟨source.value, [(key.apply, .descending)]⟩
    | .thenBy => source.chain.map fun c => { c with keys := c.keys ++ [(key.apply, .ascending)] }
    | .thenByDescending =>
      source.chain.map fun c => { c with keys := c.keys ++ [(key.apply, .descending)] }
    | _ => .error (.execution .strayThenBy)
  | _ => .error (.execution (.noSortKey verb.name))

/-- The elements of a chain in the order of its keys. -/
def sorted (chain : SortChain) (scope : Scope) : Except Error Value := do
  let items ← (← chain.source scope).elements
  let keys := chain.keys.map fun k => ((fun v => k.1 scope [v] : Selector), k.2)
  return .list (← Sequence.sort keys items)

/-- The value of a query operator in a scope. An argument is asked for when it is needed, so that a
missing one can go unnoticed over no elements. -/
def query (verb : QueryVerb) (args : List Meaning) (scope : Scope) : Except Error Value :=
  let arg := argument verb.name args
  let elementsOf (index : Nat) : Except Error (List Value) := do (← arg index).elements scope
  let late (index : Nat) : Selector := fun v => do (← arg index).apply scope [v]
  match verb with
  | .filter => do return .list (← Sequence.keep (late 1) (← elementsOf 0))
  | .select => do
    let items ← elementsOf 0
    let selector ← arg 1
    return .list (← items.mapM fun v => selector.apply scope [v])
  | .selectMany => do return .list (← Sequence.flatMap (late 1) (← elementsOf 0))
  | .orderBy | .orderByDescending | .thenBy | .thenByDescending => do
    sorted (← sortChain verb args) scope
  | .skip => do
    let items ← elementsOf 0
    let n ← (← (← arg 1).value scope).count
    return .list (items.drop n)
  | .take => do
    let items ← elementsOf 0
    let n ← (← (← arg 1).value scope).count
    return .list (items.take n)
  | .groupBy => do
    let items ← elementsOf 0
    let key ← arg 1
    let image := args[2]?.map fun m => ((fun v => m.apply scope [v]) : Selector)
    return .list (← Sequence.groupBy (fun v => key.apply scope [v]) image items)
  | .join => do
    let outer ← elementsOf 0
    let inner ← elementsOf 1
    let result (o i : Value) : Except Error Value := do (← arg 4).apply scope [o, i]
    return .list (← Sequence.join (late 2) (late 3) result outer inner)
  | .include | .thenInclude => do (← arg 0).value scope
  | .aggregate func => do
    let items ← elementsOf 0
    Sequence.aggregate func (args[1]?.map fun m => fun v => m.apply scope [v]) items

end Meaning

namespace BinaryOp

/-- Apply an operator to the values of two operands in a scope. The connectives and the choice of a
value that is not null may leave the right operand alone. -/
def applyIn (op : BinaryOp) (left right : Scope → Except Error Value) (scope : Scope) :
    Except Error Value := do
  let v ← left scope
  match op with
  | .and => if ← v.truth then return .bool (← (← right scope).truth) else return .bool false
  | .or => if ← v.truth then return .bool true else return .bool (← (← right scope).truth)
  | .coalesce => if v.isNull then right scope else return v
  | _ => op.apply v (← right scope)

end BinaryOp

namespace Function

/-- Run a function on arguments. -/
def run (f : Function) (args : List Value) : Except Error Value :=
  match f.body with
  | some body => body args
  | none => .error (.execution (.noBody f.declaring.render f.name))

end Function

namespace Expr

/-- The meaning of an expression that is no lambda and no query operator. -/
def plainMeaning (e : Expr) (value : Scope → Except Error Value) : Meaning where
  value := value
  apply _ _ := .error (.execution (.notLambda e.render))
  chain := .error (.execution .strayThenBy)

mutual

/-- The meaning of an expression over a data source. -/
def meaning (data : DataSource) : Expr → Meaning
  | .constant v t => plainMeaning (.constant v t) fun _ => .ok v
  | .captured n t v => plainMeaning (.captured n t v) fun _ => .ok v
  | .source t => plainMeaning (.source t) fun _ => (data t).map .list
  | .parameter n t => plainMeaning (.parameter n t) fun scope =>
    match List.lookup n scope with
    | some v => .ok v
    | none => .error (.execution (.unbound n))
  | .member target name =>
    let m := meaning data target
    plainMeaning (.member target name) fun scope => do (← m.value scope).member name
  | .unary op operand =>
    let m := meaning data operand
    plainMeaning (.unary op operand) fun scope => do op.apply (← m.value scope)
  | .binary op l r =>
    let left := meaning data l
    let right := meaning data r
    plainMeaning (.binary op l r) (op.applyIn left.value right.value)
  | .conditional c p q =>
    let test := meaning data c
    let whenTrue := meaning data p
    let whenFalse := meaning data q
    plainMeaning (.conditional c p q) fun scope => do
      if ← (← test.value scope).truth then whenTrue.value scope else whenFalse.value scope
  | .lambda params body =>
    let m := meaning data body
    { value := fun _ => .error (.execution .lambdaAsValue)
      apply := fun scope args =>
        if params.length = args.length then m.value (scope.bind (params.map Prod.fst) args)
        else .error (.execution (.arity params.length args.length))
      chain := .error (.execution .strayThenBy) }
  | .query verb args =>
    let ms := meanings data args
    { plainMeaning (.query verb args) (Meaning.query verb ms) with
      chain := Meaning.sortChain verb ms }
  | .call f args =>
    let ms := meanings data args
    plainMeaning (.call f args) fun scope => do f.run (← ms.mapM fun m => m.value scope)
  | .object members =>
    let ms := memberMeanings data members
    plainMeaning (.object members) fun scope => do
      return .record none (Fields.ofEntries (← ms.mapM fun m => return (m.1, ← m.2.value scope)))
  | .array t items =>
    let ms := meanings data items
    plainMeaning (.array t items) fun scope => do return .list (← ms.mapM fun m => m.value scope)
  | .list t items =>
    let ms := meanings data items
    plainMeaning (.list t items) fun scope => do return .list (← ms.mapM fun m => m.value scope)
  | .construct t bindings =>
    let ms := memberMeanings data bindings
    plainMeaning (.construct t bindings) fun scope => do
      return .record none (Fields.ofEntries (← ms.mapM fun m => return (m.1, ← m.2.value scope)))
termination_by structural e => e

/-- The meanings of several expressions. -/
def meanings (data : DataSource) : List Expr → List Meaning
  | [] => []
  | e :: rest => meaning data e :: meanings data rest
termination_by structural es => es

/-- The meanings of named expressions. -/
def memberMeanings (data : DataSource) : List (String × Expr) → List (String × Meaning)
  | [] => []
  | (name, e) :: rest => (name, meaning data e) :: memberMeanings data rest
termination_by structural bs => bs

end

/-- The value of an expression without free parameters. -/
def evaluate (data : DataSource) (e : Expr) : Except Error Value := (meaning data e).value []

end Expr
end QueryRelay
