import QueryRelay.Remote.Client
import QueryRelay.Remote.Service

/-!
# Clients and services in one process

A pipe hands the bytes that a client sends to a service at once, and the bytes of the answer back to
the client.
-/

namespace QueryRelay.Executor

/-- The way to a service in this process. -/
def connector (x : Executor) (c : Codec) : Connector := fun bytes =>
  .ok (.ofBytes (x.serve c (.ofBytes bytes)).bytes)

/-- A client of this executor; both sides write and read in one payload format. -/
def client (x : Executor) (f : PayloadFormat) : RemoteClient :=
  let c := Codec.ofFormat f
  ⟨x.connector c, c⟩

end QueryRelay.Executor
