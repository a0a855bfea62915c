import QueryRelay.Eval.Meaning
import QueryRelay.Plan.Binding
import QueryRelay.Signal
import QueryRelay.Value.Detach

/-!
# Executors

An executor runs a plan over a data source through seven stages, each open to hooks: preparing the
plan, turning it into an expression, preparing that, evaluating it, treating the result, splitting
it into records, and treating these. The stages that prepare and treat chain their hooks in order of
installation; each of the three others has one hook in place of its own work, the last installed.
-/

namespace QueryRelay

/-- Something that makes one thing of another and may fail. -/
abbrev Step (α β : Type) := α → Except Error β

/-- Run steps one after the other. -/
def Step.chain {α : Type} (steps : List (Step α α)) (x : α) : Except Error α :=
  steps.foldlM (fun y step => step y) x

/-- What runs plans. -/
structure Executor where
  /-- The types and functions that plans may name. -/
  catalog : Catalog
  /-- Where the elements come from. -/
  data : DataSource
  /-- What prepares plans. -/
  planSteps : List (Step Plan Plan)
  /-- What stands for binding the plan to the catalog. -/
  binding : Option (Step Plan Expr)
  /-- What prepares expressions. -/
  exprSteps : List (Step Expr Expr)
  /-- What stands for evaluating the expression. -/
  evaluation : Option (Step Expr Value)
  /-- What treats results. -/
  resultSteps : List (Step Value Value)
  /-- What stands for splitting the result into records. -/
  projection : Option (Step Value (List Value))
  /-- What treats records. -/
  recordSteps : List (Step (List Value) (List Value))

/-- The records of an answer. -/
structure Records where
  /-- The records in order. -/
  records : List Value
  /-- Whether the plan stands for a collection. -/
  isCollection : Bool
deriving Inhabited

namespace Executor

/-- An executor without hooks. -/
def ofCatalog (catalog : Catalog) (data : DataSource) : Executor :=
  ⟨catalog, data, [], none, [], none, [], none, []⟩

/-- Prepare plans by a further step. -/
def preparePlan (x : Executor) (step : Step Plan Plan) : Executor :=
  { x with planSteps := x.planSteps ++ [step] }

/-- Turn plans into expressions by this step. -/
def bindBy (x : Executor) (step : Step Plan Expr) : Executor := { x with binding := some step }

/-- Prepare expressions by a further step. -/
def prepareExpr (x : Executor) (step : Step Expr Expr) : Executor :=
  { x with exprSteps := x.exprSteps ++ [step] }

/-- Evaluate expressions by this step. -/
def evaluateBy (x : Executor) (step : Step Expr Value) : Executor :=
  { x with evaluation := some step }

/-- Treat results by a further step. -/
def treatResult (x : Executor) (step : Step Value Value) : Executor :=
  { x with resultSteps := x.resultSteps ++ [step] }

/-- Split results by this step. -/
def projectBy (x : Executor) (step : Step Value (List Value)) : Executor :=
  { x with projection := some step }

/-- Treat records by a further step. -/
def treatRecords (x : Executor) (step : Step (List Value) (List Value)) : Executor :=
  { x with recordSteps := x.recordSteps ++ [step] }

/-- The records of a result: the items of a list, none for null, else the result itself. -/
def split : Value → List Value
  | .list items => items
  | .null => []
  | v => [v]

/-- The step that turns plans into expressions. -/
def bindingStep (x : Executor) : Step Plan Expr := x.binding.getD fun p => p.toExpr x.catalog

/-- The step that evaluates expressions. -/
def evaluationStep (x : Executor) : Step Expr Value :=
  x.evaluation.getD fun e => e.evaluate x.data

/-- The step that splits results. -/
def projectionStep (x : Executor) : Step Value (List Value) :=
  x.projection.getD fun v => .ok (split v)

/-- Run a plan through all stages. -/
def records (x : Executor) (plan : Plan) : Except Error Records := do
  let plan ← Step.chain x.planSteps plan
  let expr ← Step.chain x.exprSteps (← x.bindingStep plan)
  let result ← Step.chain x.resultSteps (← x.evaluationStep expr)
  let records ← Step.chain x.recordSteps (← x.projectionStep result)
  return ⟨records, plan.type.isCollection⟩

/-- Run a plan for one value: a list if it stands for a collection, else the first record or
null. -/
def execute (x : Executor) (plan : Plan) : Except Error Value := do
  let r ← x.records plan
  return if r.isCollection then .list r.records else r.records.headD .null

/-- Run a plan for one value unless asked to stop. -/
def executeUnless (x : Executor) (signal : Signal) (plan : Plan) : Except Error Value := do
  signal.check
  x.execute plan

/-- Run a plan element by element unless asked to stop; each element is self-contained. A fault
stands for all elements. -/
def stream (x : Executor) (signal : Signal) (plan : Plan) : List (Except Error Value) :=
  match (do signal.check; x.records plan : Except Error Records) with
  | .ok r => (Value.detach r.records).map .ok
  | .error e => [.error e]

end Executor
end QueryRelay
