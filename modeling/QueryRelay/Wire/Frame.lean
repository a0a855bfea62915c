import QueryRelay.Error
import QueryRelay.Number.Bytes

/-!
# Frames

A frame is a payload after a header of nine bytes: its length in eight bytes, the lowest first, and
a byte that tells a message from an error. `Frame.decode` takes one frame off the front of a buffer
that may still be filling up.
-/

namespace QueryRelay

/-- What a frame holds. -/
inductive FrameKind where
  /-- A message. -/
  | message
  /-- A report of an error. -/
  | error
deriving DecidableEq, Inhabited

/-- The byte for a kind of frame. -/
def FrameKind.flag : FrameKind → UInt8
  | .message => 0
  | .error => 1

/-- The kind of frame for a byte. -/
def FrameKind.ofFlag (flag : UInt8) : Except Error FrameKind :=
  if flag = 0 then .ok .message
  else if flag = 1 then .ok .error
  else .error (.framing (.unknownKind flag.toNat))

/-- A payload of one kind. -/
structure Frame where
  /-- What the frame holds. -/
  kind : FrameKind
  /-- The payload. -/
  payload : List UInt8
deriving DecidableEq, Inhabited

namespace Frame

/-- The length of a header. -/
def headerLength : Nat := 9

/-- The header for a payload of a length. -/
def header (kind : FrameKind) (length : Nat) : List UInt8 := Bytes.ofNat 8 length ++ [kind.flag]

/-- The bytes of a frame. -/
def encode (f : Frame) : List UInt8 := header f.kind f.payload.length ++ f.payload

/-- What a header says. -/
structure Header where
  /-- The length of the payload. -/
  length : Nat
  /-- What the frame holds. -/
  kind : FrameKind

/-- Read the nine bytes of a header. -/
def readHeader (bytes : List UInt8) : Except Error Header := do
  let kind ← FrameKind.ofFlag (bytes[8]?.getD 0)
  return ⟨Bytes.toNat (bytes.take 8), kind⟩

/-- The number of addresses. -/
def addressSpace : Nat := 18446744073709551616

/-- A frame and the number of bytes that it took. -/
structure Taken where
  /-- The frame. -/
  frame : Frame
  /-- The number of bytes. -/
  length : Nat
deriving DecidableEq, Inhabited

/-- Take one frame off the front, if it is there as a whole. A frame whose end has no address cannot
be looked for. -/
def decode (bytes : List UInt8) : Except Error (Option Taken) := do
  if bytes.length < headerLength then return none
  let h ← readHeader (bytes.take headerLength)
  if headerLength + h.length ≥ addressSpace then .error .addressOverflow
  else if bytes.length < headerLength + h.length then return none
  else
    return some ⟨⟨h.kind, (bytes.drop headerLength).take h.length⟩, headerLength + h.length⟩

/-- What can be taken off the front of a buffer. -/
structure Drained where
  /-- The frames in order. -/
  taken : List Taken
  /-- The bytes that are left. -/
  rest : List UInt8
  /-- What ended the taking early. -/
  fault : Option Error

/-- Take frames off the front while there are any; each takes at least one byte, which is what the
fuel bounds. -/
def drainWithin : Nat → List UInt8 → Drained
  | 0, bytes => ⟨[], bytes, none⟩
  | fuel + 1, bytes =>
    match decode bytes with
    | .error e => ⟨[], bytes, some e⟩
    | .ok none => ⟨[], bytes, none⟩
    | .ok (some t) =>
      let d := drainWithin fuel (bytes.drop t.length)
      { d with taken := t :: d.taken }

/-- Take all frames off the front. -/
def drain (bytes : List UInt8) : Drained := drainWithin bytes.length bytes

end Frame
end QueryRelay
