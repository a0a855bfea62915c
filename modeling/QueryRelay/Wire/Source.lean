import QueryRelay.Error

/-!
# Sources of bytes

Bytes that arrive in pieces. A schedule says what each read does: it gives at most so many bytes, at
least one while there are any, or it is interrupted; when the schedule is over, a read gives as much
as was asked for. `ByteSource.fill` reads in windows until it has what it wants or the bytes end. A
blocking reader tries again after an interruption, any other gives up.
-/

namespace QueryRelay

/-- What a read does. -/
inductive ReadEvent where
  /-- It gives at most so many bytes, and at least one. -/
  | upTo (limit : Nat)
  /-- It gives nothing and may be tried again. -/
  | interrupted
deriving DecidableEq

/-- Bytes yet to be read, and how the reads go. -/
structure ByteSource where
  /-- The bytes. -/
  bytes : List UInt8
  /-- The next reads. -/
  schedule : List ReadEvent
deriving Inhabited

/-- How a reader takes an interruption. -/
inductive Reader where
  /-- It tries again. -/
  | blocking
  /-- It gives up. -/
  | awaiting
deriving DecidableEq, Inhabited

/-- What a read gave. -/
inductive ReadResult where
  /-- Some bytes; none at the end. -/
  | given (bytes : List UInt8)
  /-- An interruption. -/
  | interrupted

namespace ByteSource

/-- Bytes that come as they are asked for. -/
def ofBytes (bytes : List UInt8) : ByteSource := ⟨bytes, []⟩

/-- Read at most so many bytes. -/
def read (limit : Nat) (s : ByteSource) : ReadResult × ByteSource :=
  match s.schedule with
  | [] => (.given (s.bytes.take limit), { s with bytes := s.bytes.drop limit })
  | .interrupted :: rest => (.interrupted, { s with schedule := rest })
  | .upTo n :: rest =>
    let count := min limit (max n 1)
    (.given (s.bytes.take count), ⟨s.bytes.drop count, rest⟩)

/-- The largest number of bytes that one read asks for. -/
def window : Nat := 256

/-- Read until there are `wanted` bytes or no more come. A read that gives something shortens the
bytes, and an interruption the schedule, which is what the fuel bounds. -/
def fillWithin (reader : Reader) : Nat → Nat → ByteSource → Except Error (List UInt8 × ByteSource)
  | 0, _, s => .ok ([], s)
  | fuel + 1, wanted, s =>
    if wanted = 0 then .ok ([], s)
    else
      match s.read (min wanted window) with
      | (.given [], s) => .ok ([], s)
      | (.given bytes, s) => do
        let (more, s) ← fillWithin reader fuel (wanted - bytes.length) s
        return (bytes ++ more, s)
      | (.interrupted, s) =>
        match reader with
        | .blocking => fillWithin reader fuel wanted s
        | .awaiting => .error (.io "interrupted")

/-- Read `wanted` bytes, or fewer if the bytes end before. -/
def fill (reader : Reader) (wanted : Nat) (s : ByteSource) :
    Except Error (List UInt8 × ByteSource) :=
  fillWithin reader (s.bytes.length + s.schedule.length + 1) wanted s

end ByteSource
end QueryRelay
