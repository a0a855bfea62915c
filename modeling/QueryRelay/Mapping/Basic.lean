import QueryRelay.Mapping.Convert
import QueryRelay.Mapping.Result
import QueryRelay.Value.Detach

/-!
# Mapping raw results

`Target.map` builds a typed result from a raw value graph. A reference stands for the first record
of its identity. A shared record of an identity is built once for each type and then handed out
again; while it is being built only a weak holder can point at it. A record that is read by value
must not contain itself.
-/

namespace QueryRelay

namespace Mapping

/-- A shared result: the identity of its record and its type. -/
abbrev SharedKey := ObjectId × Target

/-- What mapping knows at a place of the graph. -/
structure Context where
  /-- The record types. -/
  types : RecordTargets
  /-- The records with an identity. -/
  records : List Value.Identified
  /-- The shared results that are being built, with their cells. -/
  pending : List (SharedKey × Nat)
  /-- The identities of the records that are being read. -/
  visiting : List ObjectId

/-- What mapping has built so far. -/
structure State where
  /-- The heap. -/
  heap : Heap
  /-- The shared results that are finished, with their cells. -/
  finished : List (SharedKey × Nat)
deriving Inhabited

/-- A step of mapping. -/
abbrev Mapper := StateT State (Except MappingFault)

/-- Fail for a cause that lies here. -/
def fail {α : Type} (cause : MappingCause) : Mapper α := throw ⟨[], cause⟩

/-- Do a step inside a part, so that its fault tells the way there. -/
def inside {α : Type} (step : PathStep) (action : Mapper α) : Mapper α := fun s =>
  match action s with
  | .ok r => .ok r
  | .error f => .error (f.within step)

/-- A conversion as a step. -/
def convert {α : Type} (result : Except MappingFault α) (wrap : α → Mapped) : Mapper Mapped :=
  match result with
  | .ok x => return wrap x
  | .error f => throw f

/-- Take a new cell, to be filled later. -/
def reserve : Mapper Nat := fun s => .ok (s.heap.length, { s with heap := s.heap ++ [none] })

/-- Fill a cell. -/
def fill (cell : Nat) (content : Mapped) : Mapper Unit :=
  modify fun s => { s with heap := s.heap.set cell (some content) }

/-- Put a result into a new cell. -/
def allocate (content : Mapped) : Mapper Mapped := do
  let cell ← reserve
  fill cell content
  return .shared cell

/-- The identity that a value carries or refers to. -/
def objectId? : Value → Option ObjectId
  | .record id _ => id
  | .ref id => some id
  | _ => none

/-- The value that a value stands for: of a reference the record. -/
def follow (ctx : Context) : Value → Mapper Value
  | .ref id =>
    match Value.findRecord ctx.records id with
    | some r => return .record (some r.id) r.fields
    | none => fail (.dangling id.render)
  | v => return v

/-! ## Absent fields -/

/-- The result of a type when there is nothing to build it from; the fuel bounds how deep records
hold records. -/
def default (types : RecordTargets) : Nat → Target → Mapper Mapped
  | fuel, target =>
    match target with
    | .integer _ => return .integer 0
    | .single => return .single (.zero false)
    | .double => return .double (.zero false)
    | .bool => return .bool false
    | .text => return .text ""
    | .timestamp => return .timestamp ⟨0, 0⟩
    | .value => return .value .null
    | .rawRecord => return .rawRecord none []
    | .enum _ variants => return .variant (variants.headD "")
    | .option _ => return .absent
    | .list _ => return .list []
    | .weak _ => return .weak none
    | .boxed t =>
      match fuel with
      | 0 => return .absent
      | fuel + 1 => default types fuel t
    | .shared t =>
      match fuel with
      | 0 => return .absent
      | fuel + 1 => do allocate (← default types fuel t)
    | .record name =>
      match fuel with
      | 0 => return .absent
      | fuel + 1 =>
        match types.get? name with
        | some (.fields fields) => do
          return .record (← fields.mapM fun f => return (f.1, ← default types fuel f.2))
        | _ => return .outline none 0
termination_by structural fuel => fuel

/-- The depth to which defaults are built. -/
def defaultDepth : Nat := 64

/-- What stands for a field that is absent, if anything does. -/
def missing (types : RecordTargets) : Target → Option (Mapper Mapped)
  | .timestamp | .rawRecord | .enum _ _ | .shared _ => none
  | .boxed t => missing types t
  | t => some (default types defaultDepth t)

/-! ## Mapping -/

mutual

/-- Build a result of a type from a value. The fuel bounds the depth of the call. -/
def build (ctx : Context) : Nat → Target → Value → Mapper Mapped
  | 0, _, _ => fail (.reported "too deep")
  | fuel + 1, target, v =>
    match target with
    | .integer t => convert (v.toInteger t) .integer
    | .single => convert v.toSingle .single
    | .double => convert v.toDouble .double
    | .bool => convert v.toBool .bool
    | .text => convert v.toText .text
    | .timestamp => convert v.toTimestamp .timestamp
    | .enum name variants => convert (v.toVariant name variants) .variant
    | .value => return .value v
    | .rawRecord => do
      match ← follow ctx v with
      | .record id fields => return .rawRecord id fields
      | w => fail (.notRecord w.kindName)
    | .option t => if v.isNull then return .absent else return .present (← build ctx fuel t v)
    | .boxed t => build ctx fuel t v
    | .list t => do
      match ← follow ctx v with
      | .null => return .list []
      | .list items => return .list (← buildItems ctx fuel t 0 items)
      | w => fail (.notList w.kindName)
    | .shared t => return .shared (← buildShared ctx fuel t v)
    | .weak t =>
      if v.isNull then return .weak none
      else
        match (objectId? v).bind fun id => ctx.pending.lookup (id, t) with
        | some cell => return .weak (some cell)
        | none => return .weak (some (← buildShared ctx fuel t v))
    | .record name => do
      match ← follow ctx v with
      | .record id fields =>
        match id with
        | some i =>
          if ctx.visiting.contains i then fail (.selfReference i.render)
          else buildRecord { ctx with visiting := i :: ctx.visiting } fuel name id fields
        | none => buildRecord ctx fuel name id fields
      | w => fail (.notRecord w.kindName)
termination_by structural fuel => fuel

/-- Build the cell of a shared result. -/
def buildShared (ctx : Context) : Nat → Target → Value → Mapper Nat
  | 0, _, _ => fail (.reported "too deep")
  | fuel + 1, t, v =>
    match objectId? v with
    | none => do
      let content ← build ctx fuel t v
      let cell ← reserve
      fill cell content
      return cell
    | some id => do
      match (← get).finished.lookup (id, t) with
      | some cell => return cell
      | none =>
        if (ctx.pending.lookup (id, t)).isSome then fail (.cycle id.render)
        else
          let w ← follow ctx v
          let cell ← reserve
          let content ← build { ctx with pending := ((id, t), cell) :: ctx.pending } fuel t w
          fill cell content
          modify fun s => { s with finished := ((id, t), cell) :: s.finished }
          return cell
termination_by structural fuel => fuel

/-- Build the items of a list. -/
def buildItems (ctx : Context) : Nat → Target → Nat → List Value → Mapper (List Mapped)
  | _, _, _, [] => return []
  | 0, _, _, _ :: _ => fail (.reported "too deep")
  | fuel + 1, t, index, v :: rest => do
    let item ← inside (.element index) (build ctx fuel t v)
    return item :: (← buildItems ctx fuel t (index + 1) rest)
termination_by structural fuel => fuel

/-- Build a record of a type from fields. -/
def buildRecord (ctx : Context) :
    Nat → String → Option ObjectId → List (String × Value) → Mapper Mapped
  | 0, _, _, _ => fail (.reported "too deep")
  | fuel + 1, name, id, source =>
    match ctx.types.get? name with
    | some (.fields fields) => return .record (← buildFields ctx fuel source fields)
    | _ => return .outline id source.length
termination_by structural fuel => fuel

/-- Build the fields of a record in order. -/
def buildFields (ctx : Context) :
    Nat → List (String × Value) → List (String × Target) → Mapper (List (String × Mapped))
  | _, _, [] => return []
  | 0, _, _ :: _ => fail (.reported "too deep")
  | fuel + 1, source, (name, t) :: rest => do
    let content ← match Fields.lookup? source name with
      | some v => inside (.field name) (build ctx fuel t v)
      | none =>
        match missing ctx.types t with
        | some action => action
        | none => fail (.missingField name)
    return (name, content) :: (← buildFields ctx fuel source rest)
termination_by structural fuel => fuel

end

/-! ## The fuel -/

/-- The number of nodes of a result type. -/
def weight : Target → Nat
  | .option t | .boxed t | .list t | .shared t | .weak t => weight t + 1
  | _ => 1

/-- The number of nodes of a record type. -/
def readingWeight : RecordReading → Nat
  | .fields fields => fields.foldl (fun n f => n + (weight f.2 + 1)) 1
  | .outline => 1

/-- The number of nodes of all record types. -/
def totalWeight (types : RecordTargets) : Nat :=
  types.foldl (fun n entry => n + readingWeight entry.2) 0

mutual

/-- The number of nodes of a value. -/
def size : Value → Nat
  | .list items => sizeOfItems items + 1
  | .record _ fields => sizeOfFields fields + 1
  | _ => 1
termination_by structural v => v

/-- The number of nodes of the items of a list. -/
def sizeOfItems : List Value → Nat
  | [] => 0
  | v :: rest => size v + sizeOfItems rest + 1
termination_by structural items => items

/-- The number of nodes of the fields of a record. -/
def sizeOfFields : List (String × Value) → Nat
  | [] => 0
  | (_, v) :: rest => size v + sizeOfFields rest + 1
termination_by structural fields => fields

end

/-- Enough fuel to map a value. A call goes into a part of the value or of a type, until it follows
a reference; that it does at most once for each identity and type. -/
def fuelFor (types : RecordTargets) (target : Target) (v : Value) : Nat :=
  Nat.pow (size v + totalWeight types + weight target + 4) 4

end Mapping

namespace Target

open Mapping in
/-- Map a raw result into a type. -/
def map (types : RecordTargets) (target : Target) (v : Value) : Except Error MappedGraph :=
  let ctx : Context := ⟨types, v.identified, [], []⟩
  match build ctx (fuelFor types target v) target v ⟨[], []⟩ with
  | .ok (root, s) => .ok ⟨root, s.heap⟩
  | .error f => .error (.mapping f)

open Mapping in
/-- What stands for a field of a type that is absent, if anything does. -/
def missing? (types : RecordTargets) (target : Target) : Option MappedGraph :=
  (missing types target).bind fun action =>
    match action ⟨[], []⟩ with
    | .ok (root, s) => some ⟨root, s.heap⟩
    | .error _ => none

end Target
end QueryRelay
