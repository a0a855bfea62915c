import QueryRelay.Mapping.Basic
import QueryRelay.Plan.Planning
import QueryRelay.Provider.Elements
import QueryRelay.Remote.Client
import QueryRelay.Value.Detach

/-!
# Query providers

A provider plans expressions, runs the plans by one of the ways it was given, and maps what comes
back. There are three ways: on the spot, one awaited value, and a stream of elements. A request for
an awaited value can be met by a stream and a request for a stream by an awaited value.
-/

namespace QueryRelay

/-- What runs queries and maps their results. -/
structure QueryProvider where
  /-- The types and functions of the expressions. -/
  catalog : Catalog
  /-- Which closed expressions may be evaluated here. -/
  admits : Expr.LocalTest
  /-- What runs a plan on the spot. -/
  onTheSpot : Option (Plan → Except Error Value)
  /-- What runs a plan for one awaited value. -/
  awaited : Option (Plan → Except Error Value)
  /-- What runs a plan element by element. -/
  streamed : Option (Plan → Elements)

/-- What a provider is made from. -/
structure ProviderSetup where
  /-- The types and functions of the expressions. -/
  catalog : Option Catalog
  /-- Which closed expressions may be evaluated here; all unless given. -/
  admits : Option Expr.LocalTest
  /-- What runs a plan on the spot. -/
  onTheSpot : Option (Plan → Except Error Value)
  /-- What runs a plan for one awaited value. -/
  awaited : Option (Plan → Except Error Value)
  /-- What runs a plan element by element. -/
  streamed : Option (Plan → Elements)

/-- Make a provider; it needs types and some way to run a plan. -/
def ProviderSetup.build (s : ProviderSetup) : Except Error QueryProvider :=
  match s.catalog with
  | none => .error (.setup .noTypes)
  | some catalog =>
    if s.onTheSpot.isNone && s.awaited.isNone && s.streamed.isNone then
      .error (.setup .noProvider)
    else .ok ⟨catalog, s.admits.getD fun _ => true, s.onTheSpot, s.awaited, s.streamed⟩

/-- A result type with the record types that it names. -/
structure ResultType where
  /-- The record types. -/
  records : RecordTargets
  /-- The type. -/
  target : Target

namespace ResultType

/-- Map a raw result. -/
def map (t : ResultType) (v : Value) : Except Error MappedGraph := t.target.map t.records v

end ResultType

/-- The moments of a poll at which the signal is looked at. -/
inductive Moment where
  /-- Before anything is planned. -/
  | starting
  /-- Between planning and sending. -/
  | planned
  /-- While the answer to a plan is awaited. -/
  | answering
  /-- Before an element is pulled. -/
  | opened
  /-- While the element is awaited. -/
  | pulling

/-- A call that a poll makes. -/
inductive Call where
  /-- Look at the signal. -/
  | look (moment : Moment)
  /-- Plan an expression. -/
  | plan (expr : Expr)
  /-- Send a plan to what runs it. -/
  | send (plan : Plan)
  /-- Pull the element at a place. -/
  | pull (place : Nat)
  /-- Map a raw element. -/
  | map (raw : Value)

/-- Where a stream of a provider stands. -/
inductive ProviderStream where
  /-- Nothing was planned yet. -/
  | waiting (expr : Expr)
  /-- The next element is at this place. -/
  | running (elements : Elements) (place : Nat)
  /-- The stream has ended, or gave its fault. -/
  | finished

/-- What a poll of a stream comes to. -/
structure Polled where
  /-- What is given. -/
  answer : Poll MappedGraph
  /-- The stream after the poll. -/
  stream : ProviderStream
  /-- The calls that were made, in order. -/
  calls : List Call

namespace QueryProvider

/-- Plan an expression. -/
def plan (p : QueryProvider) (e : Expr) : Except Error Plan := e.plan p.catalog p.admits

/-- Refuse a plan that stands for a collection where one value is wanted, or the reverse. -/
def checkShape (shape : ResultShape) (plan : Plan) : Except Error Unit :=
  match shape, plan.type.isCollection with
  | .sequence, false => .error (.ambiguous (.collectionOfSingle plan.type.render))
  | .scalar, true => .error (.ambiguous (.singleOfCollection plan.type.render))
  | _, _ => .ok ()

/-- Plan an expression whose result is wanted in a shape. -/
def planAs (p : QueryProvider) (shape : ResultShape) (e : Expr) : Except Error Plan := do
  let plan ← p.plan e
  checkShape shape plan
  return plan

/-- Plan an expression whose result is to be mapped into a type. -/
def planFor (p : QueryProvider) (t : ResultType) (e : Expr) : Except Error Plan :=
  p.planAs t.target.shape e

/-- Run an expression on the spot. -/
def execute (p : QueryProvider) (t : ResultType) (e : Expr) : Except Error MappedGraph := do
  match p.onTheSpot with
  | none => .error (.noProvider .synchronous)
  | some run => t.map (← run (← p.planFor t e))

/-- Run a plan for one awaited value; the elements of a stream are collected if the plan stands for
a collection, else there must be one. -/
def await (p : QueryProvider) (plan : Plan) : Except Error Value :=
  match p.awaited, p.streamed with
  | some run, _ => run plan
  | none, some start =>
    if plan.type.isCollection then (start plan).collect.map .list else (start plan).single
  | none, none => .error (.noProvider .asynchronous)

/-- Run an expression for one awaited value unless called off. -/
def executeAwaited (p : QueryProvider) (t : ResultType) (signal : Signal) (e : Expr) :
    Except Error MappedGraph := do
  if p.awaited.isNone && p.streamed.isNone then .error (.noProvider .asynchronous)
  else
    signal.check
    t.map (← p.await (← p.planFor t e))

/-- The records of an awaited value as elements. -/
def elementsOf : Value → Elements
  | .list items => .finite ((Value.detach items).map .ok)
  | .null => .finite []
  | v => .finite ((Value.detach [v]).map .ok)

/-- Open a stream of elements, and the calls that this takes. -/
def openStream (p : QueryProvider) (signal : Moment → Signal) (e : Expr) :
    Except Error Elements × List Call :=
  if p.streamed.isNone && p.awaited.isNone then (.error (.noProvider .streaming), [])
  else
    match p.planAs .sequence e with
    | .error fault => (.error fault, [.plan e])
    | .ok plan =>
      if (signal .planned).isCancelled then (.error .cancelled, [.plan e, .look .planned])
      else
        match p.streamed, p.awaited with
        | some start, _ => (.ok (start plan), [.plan e, .look .planned, .send plan])
        | none, some run =>
          ((signal .answering).check >>= fun _ => (run plan).map elementsOf,
            [.plan e, .look .planned, .send plan, .look .answering])
        | none, none => (.error (.noProvider .streaming), [.plan e, .look .planned])

/-- Give the element at a place unless called off. -/
def pull (t : ResultType) (signal : Moment → Signal) (elements : Elements) (place : Nat) :
    Polled :=
  if (signal .opened).isCancelled then
    ⟨.item (.error .cancelled), .finished, [.look .opened]⟩
  else if (signal .pulling).isCancelled then
    ⟨.item (.error .cancelled), .finished, [.look .opened, .pull place, .look .pulling]⟩
  else
    match elements.get? place with
    | none => ⟨.ended, .finished, [.look .opened, .pull place, .look .pulling]⟩
    | some (.ok v) =>
      ⟨.item (t.map v), .running elements (place + 1),
        [.look .opened, .pull place, .look .pulling, .map v]⟩
    | some (.error e) =>
      ⟨.item (.error e), .finished, [.look .opened, .pull place, .look .pulling]⟩

/-- Poll a stream of mapped elements under a signal that may change meanwhile. Nothing is planned
before the first poll, an element that cannot be mapped does not end the stream, and nothing follows
any other fault. -/
def pollWatching (p : QueryProvider) (t : ResultType) (signal : Moment → Signal) :
    ProviderStream → Polled
  | .finished => ⟨.ended, .finished, []⟩
  | .waiting e =>
    if (signal .starting).isCancelled then
      ⟨.item (.error .cancelled), .finished, [.look .starting]⟩
    else
      match p.openStream signal e with
      | (.ok elements, calls) =>
        let polled := pull t signal elements 0
        { polled with calls := .look .starting :: calls ++ polled.calls }
      | (.error fault, calls) => ⟨.item (.error fault), .finished, .look .starting :: calls⟩
  | .running elements place => pull t signal elements place

/-- Poll a stream of mapped elements under a signal that does not change meanwhile. -/
def poll (p : QueryProvider) (t : ResultType) (signal : Signal) (s : ProviderStream) :
    Poll MappedGraph × ProviderStream :=
  let polled := p.pollWatching t (fun _ => signal) s
  (polled.answer, polled.stream)

end QueryProvider
end QueryRelay
