import QueryRelay.Signal
import QueryRelay.Wire.Codec

/-!
# The asking side

A client sends each request over a connection of its own. One value is one answer; a stream of
elements is pulled poll by poll, and each poll first looks whether the query was called off.
-/

namespace QueryRelay

/-- What comes back for the bytes that are sent. -/
abbrev Connector := List UInt8 → Except Error ByteSource

/-- What a poll of a stream gives. -/
inductive Poll (α : Type) where
  /-- An element, or a fault in its place. -/
  | item (result : Except Error α)
  /-- The end. -/
  | ended

/-- One side that asks. -/
structure RemoteClient where
  /-- The way to the other side. -/
  connect : Connector
  /-- How this side writes and reads. -/
  codec : Codec

/-- Where a stream from the other side stands. -/
inductive RemoteStream where
  /-- Nothing was sent yet. -/
  | waiting (plan : Plan)
  /-- Elements are coming. -/
  | reading (source : ByteSource)
  /-- A fault was given. -/
  | failed
  /-- The end was given. -/
  | closed

namespace RemoteClient

/-- Send a request and get what comes back. -/
def send (c : RemoteClient) (r : Request) : Except Error ByteSource :=
  c.connect (c.codec.messageFrame .request r).encode

/-- Ask for one value. -/
def exchange (c : RemoteClient) (plan : Plan) : Except Error Value := do
  let source ← c.send ⟨.single, plan⟩
  return (← c.codec.readMessage .awaiting .value source).1

/-- Ask for one value unless called off. -/
def execute (c : RemoteClient) (signal : Signal) (plan : Plan) : Except Error Value := do
  signal.check
  c.exchange plan

/-- Read the next message of a stream. -/
def next (c : RemoteClient) (source : ByteSource) : Poll Value × RemoteStream :=
  match c.codec.readMessage .awaiting .streamFrame source with
  | .ok (.item v, source) => (.item (.ok v), .reading source)
  | .ok (.done, _) => (.ended, .closed)
  | .error e => (.item (.error e), .failed)

/-- Go on with a stream that was not called off. -/
def advance (c : RemoteClient) : RemoteStream → Poll Value × RemoteStream
  | .waiting plan =>
    match c.send ⟨.stream, plan⟩ with
    | .ok source => c.next source
    | .error e => (.item (.error e), .failed)
  | .reading source => c.next source
  | .failed => (.ended, .closed)
  | .closed => (.ended, .closed)

/-- Poll a stream. A stream that has not ended gives a fault whenever it was called off. -/
def poll (c : RemoteClient) (signal : Signal) : RemoteStream → Poll Value × RemoteStream
  | .closed => (.ended, .closed)
  | s => if signal.isCancelled then (.item (.error .cancelled), .failed) else c.advance s

/-- The results that polls give until the end, when nobody calls the stream off. Each message takes
some bytes, which is what the fuel bounds. -/
def pollAllWithin (c : RemoteClient) : Nat → RemoteStream → List (Except Error Value)
  | 0, _ => []
  | fuel + 1, s =>
    match c.advance s with
    | (.item r, s) => r :: pollAllWithin c fuel s
    | (.ended, _) => []

/-- The elements of a stream, when nobody calls it off. -/
def elements (c : RemoteClient) (plan : Plan) : List (Except Error Value) :=
  match c.send ⟨.stream, plan⟩ with
  | .ok source => c.pollAllWithin (source.bytes.length + 2) (.reading source)
  | .error e => [.error e]

end RemoteClient
end QueryRelay
