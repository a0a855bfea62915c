import QueryRelay.Expr.Freeze
import QueryRelay.Expr.Navigation
import QueryRelay.Plan.Basic

/-!
# From expressions to plans

`Expr.plan` first evaluates what can be evaluated here and then gives each expression a draft, made
from the drafts of its parts: the plan and the static type that it has in a scope, and the same when
its parameters are bound to given types. A parameter without a type of its own takes the one it is
bound to.
-/

namespace QueryRelay

/-- The types of the parameters in scope, the innermost first. -/
abbrev TypeScope := List (String × Ty)

/-- A plan with the static type of its values. -/
structure TypedPlan where
  /-- The plan. -/
  plan : Plan
  /-- The static type. -/
  type : Ty
deriving Inhabited

/-- What planning makes of an expression. -/
structure Draft where
  /-- The plan in a scope. -/
  value : TypeScope → Except Error TypedPlan
  /-- The plan of a lambda in a scope when its parameters are bound to types; its type is that of
  the body. No types bind nothing. -/
  lambda : TypeScope → List Ty → Except Error TypedPlan

instance : Inhabited Draft := ⟨fun _ => .error .cancelled, fun _ _ => .error .cancelled⟩

/-- The descriptor of a type that has no open part. -/
def Ty.toDescriptor (t : Ty) : Except Error Descriptor :=
  if t.isConcrete then .ok t.describe else .error (.ambiguous (.notConcrete t.render))

namespace Draft

/-- The draft of an expression that is no lambda. -/
def ofValue (e : Expr) (value : TypeScope → Except Error TypedPlan) : Draft where
  value := value
  lambda _ _ := .error (.unsupported (.notLambda e.render))

/-- A plan of this type, given what to do with the descriptor of the type. -/
def typed (type : Ty) (build : Descriptor → Plan) : Except Error TypedPlan := do
  return ⟨build (← type.toDescriptor), type⟩

/-- The type of a parameter, declared or bound. -/
def parameterType (name : String) (declared : Ty) (bound : Option Ty) : Except Error Ty :=
  match declared, bound with
  | .infer, some t => .ok t
  | .infer, none => .error (.ambiguous (.openParameter name))
  | t, _ => .ok t

/-- The parameters of a lambda with their types, the bound ones in order. -/
def parameters : List (String × Ty) → List Ty → Except Error (List (Parameter × Ty))
  | [], _ => .ok []
  | (name, declared) :: rest, bound => do
    let type ← parameterType name declared bound.head?
    let descriptor ← type.toDescriptor
    return (⟨name, descriptor⟩, type) :: (← parameters rest bound.tail)

/-- The plan of a lambda, from the draft of its body. -/
def ofLambda (e : Expr) (params : List (String × Ty)) (body : Draft) (scope : TypeScope)
    (bound : List Ty) : Except Error TypedPlan := do
  if !bound.isEmpty && bound.length != params.length then
    .error (.unsupported (.arity e.render params.length bound.length))
  else
    let ps ← parameters params bound
    let inner := (ps.map fun p => (p.1.name, p.2)).reverse ++ scope
    let b ← body.value inner
    return ⟨.lambda (ps.map Prod.fst) b.plan (← b.type.toDescriptor), b.type⟩

/-- Whether values of a type can decide a test. -/
def isTest (t : Ty) : Bool :=
  match t.unwrapped with
  | .bool | .dynamic => true
  | _ => false

/-- An argument of a query operator: the expression and its draft. -/
abbrev Argument := Expr × Draft

/-- The plan of a predicate over elements of a type. -/
def predicate (p : Argument) (element : Ty) (scope : TypeScope) : Except Error Plan := do
  let planned ← p.2.lambda scope [element]
  if isTest planned.type then return planned.plan
  else .error (.unsupported (.notPredicate p.1.render planned.type.unwrapped.render))

/-- The count that an argument of an operator gives. -/
def constantCount (verb : QueryVerb) (e : Expr) : Except Error UInt64 :=
  match e with
  | .constant (.int n) _ =>
    if 0 ≤ n.toInt then .ok (.ofNat n.toInt.toNat)
    else .error (.unsupported (.negativeCount verb.name n.toInt))
  | e => .error (.unsupported (.countNotConstant verb.name e.render))

/-- The navigation path that an argument gives, as a text or as a navigation. -/
def pathArgument (e : Expr) : Except Error String :=
  match e with
  | .constant (.text path) _ => .ok path
  | e => e.navigationPath

/-- The optional argument of an aggregate and the type of the result. -/
def aggregate (func : Aggregate) (argument : Option Argument) (element : Ty) (scope : TypeScope) :
    Except Error (Option Plan × Ty) := do
  if func.takesPredicate then
    let p ← argument.mapM fun p => predicate p element scope
    if func = .all ∧ argument.isNone then .error (.unsupported .allWithoutPredicate)
    else return (p, func.predicateResult element)
  else
    match argument with
    | some selector =>
      let planned ← selector.2.lambda scope [element]
      return (some planned.plan, ← func.selectorResult planned.type)
    | none => return (none, ← func.selectorResult element)

/-- The arguments of a sort with one more key; only a sort can be refined. -/
def refineSort (verb : QueryVerb) (source key : Plan) : Except Error (QueryOp Plan) :=
  match source with
  | .query (.sort inner keys) _ => .ok (.sort inner (keys ++ [key]))
  | _ => .error (.unsupported (.strayThenBy verb.name))

/-- The stage of a query operator and the type of its result, given its planned source and the
element type. -/
def stage (verb : QueryVerb) (args : List Argument) (scope : TypeScope) (source : TypedPlan)
    (element : Ty) : Except Error (QueryOp Plan × Ty) :=
  let arg (index : Nat) : Except Error Argument :=
    match args[index]? with
    | some a => .ok a
    | none => .error (.unsupported (.missingArgument verb.name index))
  let lambdaAt (index : Nat) (bound : List Ty) : Except Error TypedPlan := do
    (← arg index).2.lambda scope bound
  match verb with
  | .filter => do return (.filter source.plan (← predicate (← arg 1) element scope), source.type)
  | .select => do
    let selector ← lambdaAt 1 [element]
    return (.project source.plan selector.plan false, .seq selector.type)
  | .selectMany => do
    let selector ← lambdaAt 1 [element]
    match selector.type.element? with
    | some inner => return (.project source.plan selector.plan true, .seq inner)
    | none => .error (.unsupported (.selectorNotSequence selector.type.render))
  | .orderBy => do
    return (.sort source.plan [.sortKey (← lambdaAt 1 [element]).plan .ascending], source.type)
  | .orderByDescending => do
    return (.sort source.plan [.sortKey (← lambdaAt 1 [element]).plan .descending], source.type)
  | .thenBy => do
    let key ← lambdaAt 1 [element]
    return (← refineSort verb source.plan (.sortKey key.plan .ascending), source.type)
  | .thenByDescending => do
    let key ← lambdaAt 1 [element]
    return (← refineSort verb source.plan (.sortKey key.plan .descending), source.type)
  | .skip => do return (.skip source.plan (← constantCount verb (← arg 1).1), source.type)
  | .take => do return (.take source.plan (← constantCount verb (← arg 1).1), source.type)
  | .groupBy => do
    let key ← lambdaAt 1 [element]
    match args[2]? with
    | some selector =>
      let image ← selector.2.lambda scope [element]
      return (.groupBy source.plan key.plan (some image.plan), .seq (.group key.type image.type))
    | none => return (.groupBy source.plan key.plan none, .seq (.group key.type element))
  | .join => do
    let inner ← (← arg 1).2.value scope
    match inner.type.element? with
    | none => .error (.unsupported (.innerNotSequence inner.type.render))
    | some innerElement =>
      let outerKey ← lambdaAt 2 [element]
      let innerKey ← lambdaAt 3 [innerElement]
      let result ← lambdaAt 4 [element, innerElement]
      return (.join source.plan inner.plan outerKey.plan innerKey.plan result.plan,
        .seq result.type)
  | .include => do return (.include source.plan (← pathArgument (← arg 1).1), source.type)
  | .thenInclude =>
    match source.plan with
    | .query (.include inner path) _ => do
      let tail ← (← arg 1).1.navigationPath
      return (.include inner (path ++ "." ++ tail), source.type)
    | _ => .error (.unsupported .strayThenInclude)
  | .aggregate func => do
    let (argument, type) ← aggregate func args[1]? element scope
    return (.aggregate source.plan func argument, type)

/-- The plan of a query operator. -/
def query (verb : QueryVerb) (args : List Argument) (scope : TypeScope) : Except Error TypedPlan :=
  match args with
  | [] => .error (.unsupported (.missingArgument verb.name 0))
  | first :: _ => do
    let source ← first.2.value scope
    match source.type.element? with
    | none => .error (.unsupported (.notSequence verb.name source.type.render))
    | some element =>
      let (op, type) ← stage verb args scope source element
      typed type (.query op)

end Draft

namespace Expr

mutual

/-- The draft of an expression. -/
def draft (c : Catalog) : Expr → Draft
  | .constant v t => .ofValue (.constant v t) fun _ => Draft.typed t (.constant v)
  | .captured n t v => .ofValue (.captured n t v) fun _ => .error (.unsupported (.capturedLeft n))
  | .source t => .ofValue (.source t) fun _ => do
    let element ← t.toDescriptor
    Draft.typed (.seq t) (.query (.source element))
  | .parameter n t => .ofValue (.parameter n t) fun scope =>
    match List.lookup n scope with
    | some type => Draft.typed type fun d => .parameter ⟨n, d⟩
    | none => .error (.unsupported (.notInScope n))
  | .member target name =>
    let inner := draft c target
    .ofValue (.member target name) fun scope => do
      let target ← inner.value scope
      let type ← c.typeOfMember target.type name
      let declaring ← target.type.toDescriptor
      Draft.typed type (.member target.plan declaring name)
  | .unary op operand =>
    let inner := draft c operand
    .ofValue (.unary op operand) fun scope => do
      let operand ← inner.value scope
      Draft.typed (← op.resultType operand.type) (.unary op operand.plan)
  | .binary op l r =>
    let left := draft c l
    let right := draft c r
    .ofValue (.binary op l r) fun scope => do
      let l ← left.value scope
      let r ← right.value scope
      Draft.typed (← op.resultType l.type r.type) (.binary op l.plan r.plan)
  | .conditional t p q =>
    let test := draft c t
    let whenTrue := draft c p
    let whenFalse := draft c q
    .ofValue (.conditional t p q) fun scope => do
      let t ← test.value scope
      let p ← whenTrue.value scope
      let q ← whenFalse.value scope
      Draft.typed (← Ty.unify p.type q.type) (.conditional t.plan p.plan q.plan)
  | .lambda params body =>
    let inner := draft c body
    let planned := Draft.ofLambda (.lambda params body) params inner
    ⟨fun scope => planned scope [], planned⟩
  | .query verb args =>
    let drafts := draftAll c args
    .ofValue (.query verb args) (Draft.query verb (args.zip drafts))
  | .call f args =>
    let drafts := draftAll c args
    .ofValue (.call f args) fun scope => do
      let args ← drafts.mapM fun d => d.value scope
      let declaring ← f.declaring.toDescriptor
      Draft.typed f.returns (.call declaring f.name (args.map TypedPlan.plan))
  | .object members =>
    let drafts := draftMembers c members
    .ofValue (.object members) fun scope => do
      let ms ← drafts.mapM fun d => return (d.1, ← d.2.value scope)
      Draft.typed (.anonymous (ms.map fun m => (m.1, m.2.type)))
        (.object (ms.map Prod.fst) (ms.map fun m => m.2.plan))
  | .array t items =>
    let drafts := draftAll c items
    .ofValue (.array t items) fun scope => do
      let items ← drafts.mapM fun d => d.value scope
      Draft.typed (.seq t) (.array (items.map TypedPlan.plan))
  | .list t items =>
    let drafts := draftAll c items
    .ofValue (.list t items) fun scope => do
      let items ← drafts.mapM fun d => d.value scope
      Draft.typed (.seq t) (.list (items.map TypedPlan.plan))
  | .construct t bindings =>
    let drafts := draftMembers c bindings
    .ofValue (.construct t bindings) fun scope => do
      let bs ← drafts.mapM fun d => do
        let _ ← c.typeOfMember t d.1
        return (d.1, (← d.2.value scope).plan)
      Draft.typed t (.construct bs)
termination_by structural e => e

/-- The drafts of several expressions. -/
def draftAll (c : Catalog) : List Expr → List Draft
  | [] => []
  | e :: rest => draft c e :: draftAll c rest
termination_by structural es => es

/-- The drafts of named expressions. -/
def draftMembers (c : Catalog) : List (String × Expr) → List (String × Draft)
  | [] => []
  | (name, e) :: rest => (name, draft c e) :: draftMembers c rest
termination_by structural bs => bs

end

/-- The plan of an expression and its static type. A closed expression is evaluated here if the
test admits it. -/
def planTyped (c : Catalog) (admits : LocalTest) (e : Expr) : Except Error TypedPlan := do
  (draft c (← e.freeze c admits)).value []

/-- The plan of an expression. -/
def plan (c : Catalog) (admits : LocalTest) (e : Expr) : Except Error Plan :=
  (e.planTyped c admits).map TypedPlan.plan

end Expr
end QueryRelay
