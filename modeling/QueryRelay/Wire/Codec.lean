import QueryRelay.Payload.Format
import QueryRelay.Wire.Frame
import QueryRelay.Wire.Source

/-!
# Codecs

A codec puts messages and errors into frames and takes them out, in one payload format and up to a
length of payload. The bytes may end between two frames; that they end within one, or where an
answer is due, is a fault.
-/

namespace QueryRelay

/-- How one side of a connection writes and reads. -/
structure Codec where
  /-- The payload format. -/
  format : PayloadFormat
  /-- The longest payload that is read. -/
  maxLength : Nat
deriving Inhabited

namespace Codec

variable {α : Type}

/-- The longest payload that is read unless another limit is set: 256 MiB. -/
def defaultMaxLength : Nat := 256 * 1024 * 1024

/-- A codec with the default limit. -/
def ofFormat (f : PayloadFormat) : Codec := ⟨f, defaultMaxLength⟩

/-- The frame of a message. -/
def messageFrame (c : Codec) (m : MessageType α) (x : α) : Frame :=
  ⟨.message, c.format.encode m x⟩

/-- The frame that reports an error. -/
def errorFrame (c : Codec) (e : Error) : Frame :=
  ⟨.error, c.format.encode .remoteError (.ofError e)⟩

/-- The message of a frame; a reported error is the error. -/
def openFrame (c : Codec) (m : MessageType α) (f : Frame) : Except Error α :=
  match f.kind with
  | .message => c.format.decode m f.payload
  | .error => do
    let e ← c.format.decode .remoteError f.payload
    .error e.toError

/-- Read one frame; none at the end of the bytes. -/
def readFrame (c : Codec) (reader : Reader) (s : ByteSource) :
    Except Error (Option Frame × ByteSource) := do
  let (head, s) ← s.fill reader Frame.headerLength
  if head.isEmpty then return (none, s)
  if head.length < Frame.headerLength then
    .error (.framing (.truncatedHeader head.length Frame.headerLength))
  else
    let h ← Frame.readHeader head
    if c.maxLength < h.length then .error (.framing (.overLimit h.length c.maxLength))
    else
      let (payload, s) ← s.fill reader h.length
      if payload.length < h.length then
        .error (.framing (.truncatedPayload payload.length h.length))
      else return (some ⟨h.kind, payload⟩, s)

/-- Read the frame of an answer and take the message out. -/
def readMessage (c : Codec) (reader : Reader) (m : MessageType α) (s : ByteSource) :
    Except Error (α × ByteSource) := do
  match ← c.readFrame reader s with
  | (none, _) => .error (.framing .closed)
  | (some f, s) => return (← c.openFrame m f, s)

/-- Frames that were read, and what ended the reading. -/
structure Received where
  /-- The frames in order. -/
  frames : List Frame
  /-- The fault, unless the bytes ended between two frames. -/
  fault : Option Error

/-- Read all frames; each has a header, which is what the fuel bounds. -/
def readFramesWithin (c : Codec) (reader : Reader) : Nat → ByteSource → Received
  | 0, _ => ⟨[], none⟩
  | fuel + 1, s =>
    match c.readFrame reader s with
    | .error e => ⟨[], some e⟩
    | .ok (none, _) => ⟨[], none⟩
    | .ok (some f, s) =>
      let r := readFramesWithin c reader fuel s
      { r with frames := f :: r.frames }

/-- Read all frames. -/
def readFrames (c : Codec) (reader : Reader) (s : ByteSource) : Received :=
  c.readFramesWithin reader (s.bytes.length + 1) s

end Codec
end QueryRelay
