import QueryRelay.Provider.Basic

/-!
# Composable queries

A query bound to a provider. Every operator gives a new query, and a query is run by one of the ways
of its provider when its elements, or one value of them, are asked for.
-/

namespace QueryRelay

/-- A query bound to a provider. -/
structure Queryable where
  /-- What runs the query. -/
  provider : QueryProvider
  /-- The query. -/
  expr : Expr

namespace Queryable

/-- All elements of a type. -/
def ofElement (provider : QueryProvider) (element : Ty) : Queryable := ⟨provider, .source element⟩

/-- Apply a query operator to further arguments. -/
def apply (q : Queryable) (verb : QueryVerb) (args : List Expr) : Queryable :=
  { q with expr := q.expr.applyVerb verb args }

/-- Join with another query. -/
def join (q inner : Queryable) (outerKey innerKey result : Expr) : Queryable :=
  q.apply .join [inner.expr, outerKey, innerKey, result]

/-- Load a navigation given as a dotted path. -/
def includePath (q : Queryable) (path : String) : Queryable :=
  { q with expr := q.expr.includePath path }

/-- The type of lists of an element type. -/
def listOf (t : ResultType) : ResultType := { t with target := .list t.target }

/-- The type of an element that may be absent. -/
def optionOf (t : ResultType) : ResultType := { t with target := .option t.target }

/-- The type of 64-bit integers. -/
def integers : ResultType := ⟨[], .integer .int64⟩

/-- The type of truth values. -/
def truths : ResultType := ⟨[], .bool⟩

/-- Form one value on the spot. -/
def form (q : Queryable) (t : ResultType) (func : Aggregate) (argument : Option Expr) :
    Except Error MappedGraph :=
  q.provider.execute t (q.expr.aggregate func argument)

/-- All elements. -/
def toList (q : Queryable) (t : ResultType) : Except Error MappedGraph :=
  q.provider.execute (listOf t) q.expr

/-- The first element. -/
def first (q : Queryable) (t : ResultType) : Except Error MappedGraph := q.form t .first none

/-- The first element, if there is one. -/
def firstOrDefault (q : Queryable) (t : ResultType) : Except Error MappedGraph :=
  q.form (optionOf t) .firstOrDefault none

/-- The only element. -/
def single (q : Queryable) (t : ResultType) : Except Error MappedGraph := q.form t .single none

/-- The number of elements. -/
def count (q : Queryable) : Except Error MappedGraph := q.form integers .count none

/-- Whether an element satisfies a predicate. -/
def any (q : Queryable) (predicate : Expr) : Except Error MappedGraph :=
  q.form truths .any (some predicate)

/-- All elements, awaited. -/
def toListAwaited (q : Queryable) (t : ResultType) (signal : Signal) : Except Error MappedGraph :=
  q.provider.executeAwaited (listOf t) signal q.expr

/-- The first element, awaited. -/
def firstAwaited (q : Queryable) (t : ResultType) (signal : Signal) : Except Error MappedGraph :=
  q.provider.executeAwaited t signal (q.expr.aggregate .first none)

/-- The number of elements, awaited. -/
def countAwaited (q : Queryable) (signal : Signal) : Except Error MappedGraph :=
  q.provider.executeAwaited integers signal (q.expr.aggregate .count none)

/-- The elements one by one. -/
def stream (q : Queryable) : ProviderStream := .waiting q.expr

end Queryable
end QueryRelay
