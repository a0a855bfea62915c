import QueryRelay.Executor
import QueryRelay.Wire.Codec

/-!
# The serving side

A service answers the frames of one connection in order, each by itself: a request for one value by
a value, a request for a stream by its elements and the end, and whatever goes wrong by a report. It
stops where the frames stop, with a fault unless the bytes end between two frames.
-/

namespace QueryRelay

/-- What a service wrote, and why it stopped. -/
structure Served where
  /-- The frames in order. -/
  frames : List Frame
  /-- The fault that stopped it, unless the connection was closed. -/
  fault : Option Error

namespace Served

/-- The bytes of all frames. -/
def bytes (s : Served) : List UInt8 := s.frames.flatMap Frame.encode

end Served

namespace Executor

/-- The frames that answer a request. -/
def answerRequest (x : Executor) (c : Codec) (r : Request) : List Frame :=
  match r.mode with
  | .single =>
    match x.execute r.plan with
    | .ok v => [c.messageFrame .value v]
    | .error e => [c.errorFrame e]
  | .stream =>
    match x.records r.plan with
    | .ok rs =>
      (Value.detach rs.records).map (fun v => c.messageFrame .streamFrame (.item v)) ++
        [c.messageFrame .streamFrame .done]
    | .error e => [c.errorFrame e]

/-- The frames that answer a frame. -/
def answer (x : Executor) (c : Codec) (f : Frame) : List Frame :=
  match c.openFrame .request f with
  | .ok r => x.answerRequest c r
  | .error e => [c.errorFrame e]

/-- Answer all frames of a connection. -/
def serve (x : Executor) (c : Codec) (s : ByteSource) : Served :=
  let received := c.readFrames .awaiting s
  ⟨received.frames.flatMap (x.answer c), received.fault⟩

end Executor
end QueryRelay
