import QueryRelay.Payload.Binary
import QueryRelay.Payload.Message
import QueryRelay.Payload.Text

/-!
# Payload formats

The bytes of a message in the text form or the binary form, and the message of some bytes.
-/

namespace QueryRelay

/-- How messages become bytes. -/
inductive PayloadFormat where
  /-- The text form. -/
  | json
  /-- The binary form. -/
  | binary
deriving DecidableEq, Inhabited

namespace PayloadFormat

/-- The word for a format. -/
def name : PayloadFormat → String
  | .json => "json"
  | .binary => "binary"

variable {α : Type}

/-- The text form of a message. -/
def toText (m : MessageType α) (x : α) : String := (m.toDatum x).toJson.toText

/-- The bytes of a message. -/
def encode (f : PayloadFormat) (m : MessageType α) (x : α) : List UInt8 :=
  match f with
  | .json => Text.utf8 (toText m x)
  | .binary => (m.toDatum x).toBytes

/-- The datum of a shape that some bytes hold. -/
def readDatum? (f : PayloadFormat) (shape : Payload.Shape) (bytes : List UInt8) : Option Datum :=
  match f with
  | .json => (Text.ofUtf8? bytes).bind (Payload.readText? shape)
  | .binary => Payload.readBytes? shape bytes

/-- The message that some bytes hold. -/
def decode (f : PayloadFormat) (m : MessageType α) (bytes : List UInt8) : Except Error α :=
  match (f.readDatum? m.shape bytes).bind m.ofDatum? with
  | some x => .ok x
  | none => .error (.serialization "malformed payload")

/-- The message that a text holds. -/
def ofText (m : MessageType α) (s : String) : Except Error α :=
  match (Payload.readText? m.shape s).bind m.ofDatum? with
  | some x => .ok x
  | none => .error (.serialization "malformed payload")

end PayloadFormat
end QueryRelay
