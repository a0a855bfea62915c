import QueryRelay.Error
import QueryRelay.Payload.Plan
import QueryRelay.Payload.Schema

/-!
# Messages

What the two sides of a connection say to each other: a request asks for one value or a stream of
elements, a stream frame is an element or the end, and a remote error is an error in the words of
the side where it arose. A message type ties a type to its shape and to its data.
-/

namespace QueryRelay

/-- How a request wants to be answered. -/
inductive Mode where
  /-- By one value. -/
  | single
  /-- Element by element. -/
  | stream
deriving DecidableEq, Inhabited

namespace Mode

/-- The name of a mode. -/
def name : Mode → String
  | .single => "Single"
  | .stream => "Stream"

/-- Both modes, in the order of their numbers. -/
def all : List Mode := [.single, .stream]

end Mode

/-- What a client asks for. -/
structure Request where
  /-- How it wants to be answered. -/
  mode : Mode
  /-- The query. -/
  plan : Plan
deriving Inhabited

/-- A message of a streamed answer. -/
inductive StreamFrame where
  /-- An element. -/
  | item (value : Value)
  /-- There are no more elements. -/
  | done
deriving Inhabited

/-- An error as the other side reports it. -/
structure RemoteError where
  /-- The text. -/
  message : String
  /-- The name of its kind. -/
  typeName : String
deriving DecidableEq, Inhabited

namespace RemoteError

/-- Report an error. One that was reported to this side is passed on as it came. -/
def ofError : Error → RemoteError
  | .remote message typeName => ⟨message, typeName⟩
  | e => ⟨e.message, e.kindName⟩

/-- The error that a report is to its receiver. -/
def toError (e : RemoteError) : Error := .remote e.message e.typeName

end RemoteError

/-- A type that can be sent. -/
structure MessageType (α : Type) where
  /-- The shape of its data. -/
  shape : Payload.Shape
  /-- The datum of a message. -/
  toDatum : α → Datum
  /-- The message that a datum stands for. -/
  ofDatum? : Datum → Option α

namespace MessageType

/-- Values. -/
def value : MessageType Value := ⟨.sort .value, Value.toDatum, Value.ofDatum?⟩

/-- Type descriptors. -/
def descriptor : MessageType Descriptor :=
  ⟨.sort .descriptor, Descriptor.toDatum, Descriptor.ofDatum?⟩

/-- Plans. -/
def plan : MessageType Plan := ⟨.sort .plan, Plan.toDatum, Plan.ofDatum?⟩

/-- The datum of a request. -/
def requestToDatum (r : Request) : Datum :=
  .product [("mode", .ofChoice Mode.all Mode.name r.mode), ("expression", r.plan.toDatum)]

/-- The request that a datum stands for. -/
def requestOfDatum? : Datum → Option Request
  | .product [(_, mode), (_, plan)] => do
    let mode ← Datum.choice? Mode.all Mode.name mode
    return ⟨mode, ← Plan.ofDatum? plan⟩
  | _ => none

/-- Requests. -/
def request : MessageType Request := ⟨.sort .request, requestToDatum, requestOfDatum?⟩

/-- The datum of a stream frame. -/
def streamFrameToDatum : StreamFrame → Datum
  | .item v => .wrapped 0 "Item" v.toDatum
  | .done => .variant 1 "End"

/-- The stream frame that a datum stands for. -/
def streamFrameOfDatum? : Datum → Option StreamFrame
  | .wrapped _ "Item" d => (Value.ofDatum? d).map .item
  | .variant _ "End" => some .done
  | _ => none

/-- Stream frames. -/
def streamFrame : MessageType StreamFrame :=
  ⟨.sort .streamFrame, streamFrameToDatum, streamFrameOfDatum?⟩

/-- The datum of a remote error. -/
def remoteErrorToDatum (e : RemoteError) : Datum :=
  .product [("message", .text e.message), ("type_name", .text e.typeName)]

/-- The remote error that a datum stands for. -/
def remoteErrorOfDatum? : Datum → Option RemoteError
  | .product [(_, .text message), (_, .text typeName)] => some ⟨message, typeName⟩
  | _ => none

/-- Remote errors. -/
def remoteError : MessageType RemoteError :=
  ⟨.sort .remoteError, remoteErrorToDatum, remoteErrorOfDatum?⟩

end MessageType
end QueryRelay
