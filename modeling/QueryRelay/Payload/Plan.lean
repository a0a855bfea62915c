import QueryRelay.Payload.Value
import QueryRelay.Plan.Basic

/-!
# Plans as data

The datum of a plan, and the way back. Operators go by their names.
-/

namespace QueryRelay

namespace Datum

/-- One of several things without content, by its place among them and its name. -/
def ofChoice {α : Type} [BEq α] (every : List α) (name : α → String) (x : α) : Datum :=
  .variant (every.idxOf x) (name x)

/-- The thing of a name. -/
def choice? {α : Type} (every : List α) (name : α → String) : Datum → Option α
  | .variant _ n => every.find? fun x => name x == n
  | _ => none

/-- The texts of a list of texts. -/
def texts? : List Datum → Option (List String)
  | [] => some []
  | .text s :: rest => (texts? rest).map (s :: ·)
  | _ => none

end Datum

namespace Plan

/-- The datum of a parameter. -/
def parameterToDatum (p : Parameter) : Datum :=
  .product [("name", .text p.name), ("ty", p.type.toDatum)]

/-- The parameter that a datum stands for. -/
def parameterOfDatum? : Datum → Option Parameter
  | .product [(_, .text name), (_, type)] => (Descriptor.ofDatum? type).map fun t => ⟨name, t⟩
  | _ => none

/-- The datum of a unary operator. -/
def unaryToDatum (op : UnaryOp) : Datum := .ofChoice UnaryOp.all UnaryOp.name op

/-- The datum of a binary operator. -/
def binaryToDatum (op : BinaryOp) : Datum := .ofChoice BinaryOp.all BinaryOp.name op

/-- The datum of an aggregate. -/
def aggregateToDatum (func : Aggregate) : Datum := .ofChoice Aggregate.every Aggregate.name func

/-- The datum of a direction. -/
def directionToDatum (d : SortDirection) : Datum := .ofChoice SortDirection.all SortDirection.name d

mutual

/-- The datum of a plan. -/
def toDatum : Plan → Datum
  | .constant v t => .case 0 "Constant" [("value", v.toDatum), ("ty", t.toDatum)]
  | .member target declaring name t =>
    .case 1 "Member" [
      ("target", toDatum target), ("declaring", declaring.toDatum), ("member", .text name),
      ("ty", t.toDatum)]
  | .unary op operand t =>
    .case 2 "Unary" [("op", unaryToDatum op), ("operand", toDatum operand), ("ty", t.toDatum)]
  | .binary op l r t =>
    .case 3 "Binary" [
      ("op", binaryToDatum op), ("left", toDatum l), ("right", toDatum r), ("ty", t.toDatum)]
  | .conditional c p q t =>
    .case 4 "Conditional" [
      ("test", toDatum c), ("if_true", toDatum p), ("if_false", toDatum q), ("ty", t.toDatum)]
  | .lambda params body t =>
    .case 5 "Lambda" [
      ("params", .list (params.map parameterToDatum)), ("body", toDatum body),
      ("ty", t.toDatum)]
  | .parameter p => .wrapped 6 "Parameter" (parameterToDatum p)
  | .call declaring name args t =>
    .case 7 "MethodCall" [
      ("declaring", declaring.toDatum), ("method", .text name), ("args", .list (allToData args)),
      ("ty", t.toDatum)]
  | .object members args t =>
    .case 8 "New" [
      ("members", .list (members.map .text)), ("args", .list (allToData args)),
      ("ty", t.toDatum)]
  | .array items t =>
    .case 9 "NewArray" [("items", .list (allToData items)), ("ty", t.toDatum)]
  | .list items t =>
    .case 10 "ListInit" [("items", .list (allToData items)), ("ty", t.toDatum)]
  | .construct bindings t =>
    .case 11 "MemberInit" [("bindings", .list (bindingsToData bindings)), ("ty", t.toDatum)]
  | .sortKey key d => .case 12 "SortKey" [("key", toDatum key), ("direction", directionToDatum d)]
  | .query op t => .case 13 "Query" [("op", opToDatum op), ("ty", t.toDatum)]
termination_by structural p => p

/-- The data of several plans. -/
def allToData : List Plan → List Datum
  | [] => []
  | p :: rest => toDatum p :: allToData rest
termination_by structural ps => ps

/-- The data of member bindings. -/
def bindingsToData : List (String × Plan) → List Datum
  | [] => []
  | (name, p) :: rest =>
    .product [("member", .text name), ("value", toDatum p)] :: bindingsToData rest
termination_by structural bs => bs

/-- The datum of a query stage. -/
def opToDatum : QueryOp Plan → Datum
  | .source element => .case 0 "Source" [("element", element.toDatum)]
  | .filter s p => .case 1 "Filter" [("source", toDatum s), ("predicate", toDatum p)]
  | .project s f many =>
    .case 2 "Project" [("source", toDatum s), ("selector", toDatum f), ("many", .bool many)]
  | .sort s keys => .case 3 "Sort" [("source", toDatum s), ("keys", .list (allToData keys))]
  | .skip s n => .case 4 "Skip" [("source", toDatum s), ("count", .natural n)]
  | .take s n => .case 5 "Take" [("source", toDatum s), ("count", .natural n)]
  | .groupBy s k none =>
    .case 6 "GroupBy" [("source", toDatum s), ("key", toDatum k), ("element", .absent)]
  | .groupBy s k (some e) =>
    .case 6 "GroupBy" [("source", toDatum s), ("key", toDatum k), ("element", .present (toDatum e))]
  | .join o i ok ik r =>
    .case 7 "Join" [
      ("outer", toDatum o), ("inner", toDatum i), ("outer_key", toDatum ok),
      ("inner_key", toDatum ik), ("result", toDatum r)]
  | .include s path => .case 8 "Include" [("source", toDatum s), ("path", .text path)]
  | .aggregate s func none =>
    .case 9 "Aggregate" [
      ("source", toDatum s), ("func", aggregateToDatum func), ("argument", .absent)]
  | .aggregate s func (some a) =>
    .case 9 "Aggregate" [
      ("source", toDatum s), ("func", aggregateToDatum func), ("argument", .present (toDatum a))]
termination_by structural op => op

end

mutual

/-- The plan that a datum stands for. -/
def ofDatum? : Datum → Option Plan
  | .wrapped _ "Parameter" p => (parameterOfDatum? p).map .parameter
  | .case _ name fields => ofFields? name fields
  | _ => none
termination_by structural d => d

/-- The plan of a name that its fields stand for. -/
def ofFields? (name : String) : List (String × Datum) → Option Plan
  | [(_, x), (_, .list xs), (_, t)] =>
    if name = "New" then
      match x with
      | .list members => do
        let members ← Datum.texts? members
        return .object members (← allOfData? xs) (← Descriptor.ofDatum? t)
      | _ => none
    else none
  | [(_, .list params), (_, body), (_, t)] =>
    if name = "Lambda" then do
      let params ← params.mapM parameterOfDatum?
      return .lambda params (← ofDatum? body) (← Descriptor.ofDatum? t)
    else none
  | [(_, op), (_, operand), (_, t)] =>
    if name = "Unary" then do
      let op ← Datum.choice? UnaryOp.all UnaryOp.name op
      return .unary op (← ofDatum? operand) (← Descriptor.ofDatum? t)
    else none
  | [(_, declaring), (_, .text method), (_, .list args), (_, t)] =>
    if name = "MethodCall" then do
      let declaring ← Descriptor.ofDatum? declaring
      return .call declaring method (← allOfData? args) (← Descriptor.ofDatum? t)
    else none
  | [(_, target), (_, declaring), (_, .text field), (_, t)] =>
    if name = "Member" then do
      let target ← ofDatum? target
      return .member target (← Descriptor.ofDatum? declaring) field (← Descriptor.ofDatum? t)
    else none
  | [(_, a), (_, b), (_, c), (_, t)] =>
    if name = "Binary" then do
      let op ← Datum.choice? BinaryOp.all BinaryOp.name a
      return .binary op (← ofDatum? b) (← ofDatum? c) (← Descriptor.ofDatum? t)
    else if name = "Conditional" then do
      return .conditional (← ofDatum? a) (← ofDatum? b) (← ofDatum? c) (← Descriptor.ofDatum? t)
    else none
  | [(_, .list items), (_, t)] =>
    if name = "NewArray" then do return .array (← allOfData? items) (← Descriptor.ofDatum? t)
    else if name = "ListInit" then do return .list (← allOfData? items) (← Descriptor.ofDatum? t)
    else if name = "MemberInit" then do
      return .construct (← bindingsOfData? items) (← Descriptor.ofDatum? t)
    else none
  | [(_, x), (_, t)] =>
    if name = "Constant" then do
      return .constant (← Value.ofDatum? x) (← Descriptor.ofDatum? t)
    else if name = "SortKey" then do
      return .sortKey (← ofDatum? x) (← Datum.choice? SortDirection.all SortDirection.name t)
    else if name = "Query" then do
      return .query (← opOfDatum? x) (← Descriptor.ofDatum? t)
    else none
  | _ => none
termination_by structural fs => fs

/-- The plans that data stand for. -/
def allOfData? : List Datum → Option (List Plan)
  | [] => some []
  | d :: rest => do return (← ofDatum? d) :: (← allOfData? rest)
termination_by structural ds => ds

/-- The member bindings that data stand for. -/
def bindingsOfData? : List Datum → Option (List (String × Plan))
  | [] => some []
  | .product [(_, .text name), (_, d)] :: rest => do
    return (name, ← ofDatum? d) :: (← bindingsOfData? rest)
  | _ :: _ => none
termination_by structural ds => ds

/-- The sub-plan that may be absent. -/
def optionalOfDatum? : Datum → Option (Option Plan)
  | .absent => some none
  | .present d => (ofDatum? d).map some
  | _ => none
termination_by structural d => d

/-- The query stage that a datum stands for. -/
def opOfDatum? : Datum → Option (QueryOp Plan)
  | .case _ name fields => stageOfFields? name fields
  | _ => none
termination_by structural d => d

/-- The query stage of a name that its fields stand for. -/
def stageOfFields? (name : String) : List (String × Datum) → Option (QueryOp Plan)
  | [(_, element)] =>
    if name = "Source" then (Descriptor.ofDatum? element).map .source else none
  | [(_, s), (_, .list keys)] =>
    if name = "Sort" then do return .sort (← ofDatum? s) (← allOfData? keys) else none
  | [(_, s), (_, .natural n)] =>
    if name = "Skip" then do return .skip (← ofDatum? s) n
    else if name = "Take" then do return .take (← ofDatum? s) n
    else none
  | [(_, s), (_, .text path)] =>
    if name = "Include" then do return .include (← ofDatum? s) path else none
  | [(_, s), (_, p)] =>
    if name = "Filter" then do return .filter (← ofDatum? s) (← ofDatum? p) else none
  | [(_, s), (_, f), (_, .bool many)] =>
    if name = "Project" then do return .project (← ofDatum? s) (← ofDatum? f) many else none
  | [(_, s), (_, x), (_, argument)] =>
    if name = "GroupBy" then do
      return .groupBy (← ofDatum? s) (← ofDatum? x) (← optionalOfDatum? argument)
    else if name = "Aggregate" then do
      let func ← Datum.choice? Aggregate.every Aggregate.name x
      return .aggregate (← ofDatum? s) func (← optionalOfDatum? argument)
    else none
  | [(_, o), (_, i), (_, ok), (_, ik), (_, r)] =>
    if name = "Join" then do
      return .join (← ofDatum? o) (← ofDatum? i) (← ofDatum? ok) (← ofDatum? ik) (← ofDatum? r)
    else none
  | _ => none
termination_by structural fs => fs

end

end Plan
end QueryRelay
