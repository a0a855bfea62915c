import QueryRelay.Payload.Format
import QueryRelay.Proofs.Payload.Plans

/-!
# Messages in the binary form

A message whose datum is of the shape of its type and stands for the message is read back from its
bytes in the binary form. Requests, values, stream frames and reports of errors are such messages as
far as their values can be sent. Main statement: they are all read off the front of their bytes,
whatever follows them.
-/

namespace QueryRelay

open Payload (OfShape wordSpace)

namespace MessageType

variable {α : Type}

/-- A message type carries a message: the datum of the message is of the shape of the type and
stands for the message. -/
structure Carries (m : MessageType α) (x : α) : Prop where
  /-- The datum is of the shape of the type. -/
  ofShape : OfShape m.shape (m.toDatum x)
  /-- The datum stands for the message. -/
  ofDatum? : m.ofDatum? (m.toDatum x) = some x

/-- A value that can be sent is carried. -/
theorem value_carries {v : Value} (h : v.IsPortable) : value.Carries v :=
  ⟨h.ofShape, h.ofDatum?_toDatum⟩

/-- A request is carried when its plan can be sent. -/
theorem request_carries {r : Request} (h : r.plan.IsPortable) : request.Carries r where
  ofShape := by
    have hmode : OfShape (.sort .mode) (.ofChoice Mode.all Mode.name r.mode) := by
      cases r.mode <;> exact .variant rfl rfl
    exact .product rfl (.required rfl hmode (.required rfl h.ofShape .nil))
  ofDatum? := by
    have hmode : Datum.choice? Mode.all Mode.name (.ofChoice Mode.all Mode.name r.mode) =
        some r.mode := Datum.choice?_ofChoice (by cases r.mode <;> rfl)
    change requestOfDatum? (requestToDatum r) = some r
    rw [requestToDatum, requestOfDatum?, hmode, h.ofDatum?_toDatum]
    rfl

/-- An element is carried when its value can be sent. -/
theorem item_carries {v : Value} (h : v.IsPortable) : streamFrame.Carries (.item v) where
  ofShape := .wrapped rfl rfl h.ofShape
  ofDatum? := by
    change (Value.ofDatum? v.toDatum).map StreamFrame.item = some (.item v)
    rw [h.ofDatum?_toDatum, Option.map_some]

/-- The end of a stream is carried. -/
theorem done_carries : streamFrame.Carries .done := ⟨.variant rfl rfl, rfl⟩

/-- A stream frame is carried when its element, if it has one, can be sent. -/
theorem streamFrame_carries {f : StreamFrame} (h : ∀ v, f = .item v → v.IsPortable) :
    streamFrame.Carries f := by
  cases f with
  | item v => exact item_carries (h v rfl)
  | done => exact done_carries

/-- The report of an error is carried. -/
theorem remoteError_carries (e : RemoteError) : remoteError.Carries e :=
  ⟨.product rfl (.required rfl (.text e.message) (.required rfl (.text e.typeName) .nil)), rfl⟩

end MessageType

namespace PayloadFormat

variable {α : Type}

/-- A message that is carried is read off the front of its bytes, whatever follows them. -/
theorem decode_encode_append {m : MessageType α} {x : α} (h : m.Carries x)
    (hsize : (encode .binary m x).length < wordSpace) (tail : List UInt8) :
    decode .binary m (encode .binary m x ++ tail) = .ok x := by
  have hread : readDatum? .binary m.shape (encode .binary m x ++ tail) = some (m.toDatum x) :=
    h.ofShape.readBytes?_append hsize tail
  rw [decode, hread, Option.bind_some, h.ofDatum?]

/-- A message that is carried is read back from its bytes. -/
theorem decode_encode_binary {m : MessageType α} {x : α} (h : m.Carries x)
    (hsize : (encode .binary m x).length < wordSpace) :
    decode .binary m (encode .binary m x) = .ok x := by
  have hread := decode_encode_append h hsize []
  rwa [List.append_nil] at hread

/-- Every message is read off the front of its bytes in the binary form, whatever follows them: a
request of either mode of which the constants can be sent, a value that can be sent, a stream frame
of which the element can be sent, and any report of an error. The bytes themselves are as many as a
length can count. -/
theorem decode_encode_messages (tail : List UInt8) :
    (∀ r : Request, r.plan.IsPortable → (encode .binary .request r).length < wordSpace →
        decode .binary .request (encode .binary .request r ++ tail) = .ok r) ∧
      (∀ v : Value, v.IsPortable → (encode .binary .value v).length < wordSpace →
        decode .binary .value (encode .binary .value v ++ tail) = .ok v) ∧
      (∀ f : StreamFrame, (∀ v, f = .item v → v.IsPortable) →
        (encode .binary .streamFrame f).length < wordSpace →
          decode .binary .streamFrame (encode .binary .streamFrame f ++ tail) = .ok f) ∧
      ∀ e : RemoteError, (encode .binary .remoteError e).length < wordSpace →
        decode .binary .remoteError (encode .binary .remoteError e ++ tail) = .ok e := by
  refine ⟨fun r hr hsize => ?_, fun v hv hsize => ?_, fun f hf hsize => ?_, fun e hsize => ?_⟩
  · exact decode_encode_append (MessageType.request_carries hr) hsize tail
  · exact decode_encode_append (MessageType.value_carries hv) hsize tail
  · exact decode_encode_append (MessageType.streamFrame_carries hf) hsize tail
  · exact decode_encode_append (MessageType.remoteError_carries e) hsize tail

end PayloadFormat

/-- A record with an identity, a number that is not one, a leap second and a reference to the record
itself. -/
def Value.specimen : Value :=
  .record (some ⟨7⟩) [("ratio", .float ⟨0x7ff8000000000001⟩),
    ("at", .timestamp ⟨1483228799, 1500000000⟩), ("self", .list [.ref ⟨7⟩, .null])]

open PayloadFormat in
/-- A request for a stream with this record for a constant is read back, and so are the record, an
element and a report, with two bytes that follow. -/
theorem specimen_decode_encode_messages :
    let r : Request := ⟨.stream, .query (.skip (.constant .specimen (.plain none "dynamic")) 3)
      (.sequence (.plain none "dynamic"))⟩
    decode .binary .request (encode .binary .request r ++ [1, 2]) = .ok r ∧
      decode .binary .value (encode .binary .value .specimen ++ [1, 2]) = .ok .specimen ∧
      decode .binary .streamFrame (encode .binary .streamFrame (.item .specimen) ++ [1, 2]) =
        .ok (.item .specimen) ∧
      decode .binary .remoteError (encode .binary .remoteError ⟨"no", "IoError"⟩ ++ [1, 2]) =
        .ok ⟨"no", "IoError"⟩ := by
  have hinstant : Timestamp.readLenient (Timestamp.payloadText ⟨1483228799, 1500000000⟩) =
      .ok ⟨1483228799, 1500000000⟩ := rfl
  have hlist : ∀ v ∈ [Value.ref ⟨7⟩, .null], v.IsPortable :=
    List.forall_mem_cons.mpr ⟨.ref ⟨7⟩, List.forall_mem_singleton.mpr .null⟩
  have hvalue : Value.specimen.IsPortable := by
    refine .record (by decide) (List.forall_mem_cons.mpr ⟨.float _, ?_⟩)
    exact List.forall_mem_cons.mpr
      ⟨.timestamp hinstant, List.forall_mem_singleton.mpr (.list hlist)⟩
  obtain ⟨hrequest, hvalues, hframes, hreports⟩ := decode_encode_messages [1, 2]
  refine ⟨hrequest _ ?_ (by decide +kernel), hvalues _ hvalue (by decide +kernel),
    hframes _ ?_ (by decide +kernel), hreports _ (by decide +kernel)⟩
  · intro v t h
    cases List.mem_cons.mp h with
    | inl h => cases h
    | inr h =>
      cases List.mem_singleton.mp h
      exact hvalue
  · intro v h
    cases h
    exact hvalue

end QueryRelay
