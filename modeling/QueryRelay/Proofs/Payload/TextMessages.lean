import QueryRelay.Proofs.Payload.Floats
import QueryRelay.Proofs.Payload.Messages

/-!
# Messages in the text form

A message whose datum is of the shape of its type and stands for the message is read back from its
text, as long as the text form carries its floating-point numbers and it nests no deeper than what
is read. Main statement: this holds of all messages without floating-point numbers, whatever their
texts contain.
-/

namespace QueryRelay

open Datum (Carried)

namespace MessageType

variable {α : Type}

/-- How deep arrays and objects nest in the text of a message. -/
def nesting (m : MessageType α) (x : α) : Nat := (m.toDatum x).toJson.depth

/-- The floating-point numbers of a message. -/
def floats (m : MessageType α) (x : α) : List Binary64 := (m.toDatum x).floats

/-- The numbers of a request are carried when those of the constants in its plan are. -/
theorem request_carried {r : Request}
    (h : ∀ v t, .constant v t ∈ r.plan.nodes → Carried v.floats) : Carried (request.floats r) := by
  have hplan := Plan.carried_toDatum h
  change Carried ([] ++ (r.plan.toDatum.floats ++ []))
  rwa [List.nil_append, List.append_nil]

/-- The numbers of a value as a message are those of the value. -/
theorem floats_value (v : Value) : value.floats v = v.floats := v.floats_toDatum

/-- The numbers of an element as a message are those of the element. -/
theorem floats_item (v : Value) : streamFrame.floats (.item v) = v.floats := v.floats_toDatum

/-- The end of a stream has no numbers. -/
theorem floats_done : streamFrame.floats .done = [] := rfl

/-- A report of an error has no numbers. -/
theorem floats_remoteError (e : RemoteError) : remoteError.floats e = [] := rfl

/-- The text of a report of an error nests one level deep. -/
theorem nesting_remoteError (e : RemoteError) : remoteError.nesting e = 1 := rfl

end MessageType

namespace Text

/-- The bytes of a text are those of its characters. -/
theorem utf8_ofList (cs : List Char) :
    utf8 (String.ofList cs) = cs.flatMap String.utf8EncodeChar := by
  rw [utf8, String.toUTF8, String.toByteArray_ofList, List.utf8Encode, List.data_toByteArray]

/-- No character takes more than four bytes. -/
theorem length_utf8_ofList_le (cs : List Char) :
    (utf8 (String.ofList cs)).length ≤ 4 * cs.length := by
  rw [utf8_ofList]
  induction cs with
  | nil => exact Nat.le_refl 0
  | cons c cs ih =>
    have hsize := c.utf8Size_le_four
    rw [List.flatMap_cons, List.length_append, String.length_utf8EncodeChar, List.length_cons]
    omega

end Text

namespace PayloadFormat

open MessageType

variable {α : Type}

/-- A message in the text form takes at most four bytes for each character. -/
theorem length_encode_json_le (m : MessageType α) (x : α) :
    (encode .json m x).length ≤ 4 * (m.toDatum x).toJson.write.length :=
  Text.length_utf8_ofList_le _

/-- A message that is carried is read back from its text. -/
theorem decode_encode_json {m : MessageType α} {x : α} (h : m.Carries x)
    (hcarried : Carried (m.floats x)) (hnesting : m.nesting x ≤ 127) :
    decode .json m (encode .json m x) = .ok x := by
  have hread : readDatum? .json m.shape (encode .json m x) = some (m.toDatum x) := by
    rw [encode, readDatum?, Text.ofUtf8?_utf8, Option.bind_some]
    exact h.ofShape.readText?_toText hcarried hnesting
  rw [decode, hread, Option.bind_some, h.ofDatum?]

/-- Every message without floating-point numbers is read back from its text, if that nests at most
127 levels deep: a request of either mode of which the constants can be sent, a value that can be
sent, a stream frame of which the element can be sent, and any report of an error. -/
theorem decode_encode_json_messages :
    (∀ r : Request, r.plan.IsPortable → (∀ v t, .constant v t ∈ r.plan.nodes → v.floats = []) →
        request.nesting r ≤ 127 → decode .json .request (encode .json .request r) = .ok r) ∧
      (∀ v : Value, v.IsPortable → v.floats = [] → value.nesting v ≤ 127 →
        decode .json .value (encode .json .value v) = .ok v) ∧
      (∀ f : StreamFrame, (∀ v, f = .item v → v.IsPortable ∧ v.floats = []) →
        streamFrame.nesting f ≤ 127 →
          decode .json .streamFrame (encode .json .streamFrame f) = .ok f) ∧
      ∀ e : RemoteError, decode .json .remoteError (encode .json .remoteError e) = .ok e := by
  refine ⟨fun r hr hfloats hnesting => ?_, fun v hv hfloats hnesting => ?_,
    fun f hf hnesting => ?_, fun e => ?_⟩
  · have hcarried := request_carried fun v t h => Datum.carried_of_eq_nil (hfloats v t h)
    exact decode_encode_json (request_carries hr) hcarried hnesting
  · have hcarried : Carried (value.floats v) :=
      Datum.carried_of_eq_nil ((floats_value v).trans hfloats)
    exact decode_encode_json (value_carries hv) hcarried hnesting
  · have hcarried : Carried (streamFrame.floats f) := by
      cases f with
      | item v => exact Datum.carried_of_eq_nil ((floats_item v).trans (hf v rfl).2)
      | done => exact Datum.carried_of_eq_nil floats_done
    exact decode_encode_json (streamFrame_carries fun v h => (hf v h).1) hcarried hnesting
  · have hcarried : Carried (remoteError.floats e) :=
      Datum.carried_of_eq_nil (floats_remoteError e)
    have hnesting : remoteError.nesting e ≤ 127 := by
      rw [nesting_remoteError]
      decide
    exact decode_encode_json (remoteError_carries e) hcarried hnesting

end PayloadFormat

/-- A record of an unprintable text, a large identity, a leap second and a reference, its names
being unusual as well. -/
def Value.inscription : Value :=
  .record (some ⟨18446744073709551615⟩) [("say \"hi\"", .text "tab\t, \\, \u0000, é, 𝄞, \u007f"),
    ("", .timestamp ⟨1483228799, 1500000000⟩), ("n", .int (-9223372036854775808)),
    ("self", .list [.ref ⟨18446744073709551615⟩, .null, .bool false])]

open PayloadFormat in
/-- A request for a stream with this record for a constant is read back from its text, and so are
the record, an element, the end and a report. -/
theorem inscription_decode_encode_json_messages :
    let r : Request := ⟨.stream, .query (.skip (.constant .inscription (.plain none "dynamic"))
      18446744073709551615) (.sequence (.plain none "dynamic"))⟩
    decode .json .request (encode .json .request r) = .ok r ∧
      decode .json .value (encode .json .value .inscription) = .ok .inscription ∧
      decode .json .streamFrame (encode .json .streamFrame (.item .inscription)) =
        .ok (.item .inscription) ∧
      decode .json .streamFrame (encode .json .streamFrame .done) = .ok .done ∧
      decode .json .remoteError (encode .json .remoteError ⟨"no \"x\"\n", "IoError"⟩) =
        .ok ⟨"no \"x\"\n", "IoError"⟩ := by
  have hinstant : Timestamp.readLenient (Timestamp.payloadText ⟨1483228799, 1500000000⟩) =
      .ok ⟨1483228799, 1500000000⟩ := rfl
  have hlist : ∀ v ∈ [Value.ref ⟨18446744073709551615⟩, .null, .bool false], v.IsPortable :=
    List.forall_mem_cons.mpr ⟨.ref _, List.forall_mem_cons.mpr
      ⟨.null, List.forall_mem_singleton.mpr (.bool false)⟩⟩
  have hvalue : Value.inscription.IsPortable := by
    refine .record (by decide) (List.forall_mem_cons.mpr ⟨.text _, ?_⟩)
    refine List.forall_mem_cons.mpr ⟨.timestamp hinstant, ?_⟩
    exact List.forall_mem_cons.mpr ⟨.int _, List.forall_mem_singleton.mpr (.list hlist)⟩
  obtain ⟨hrequest, hvalues, hframes, hreports⟩ := decode_encode_json_messages
  refine ⟨hrequest _ ?_ ?_ (by decide +kernel), hvalues _ hvalue rfl (by decide +kernel),
    hframes _ ?_ (by decide +kernel), hframes _ nofun (by decide +kernel), hreports _⟩
  · intro v t h
    cases List.mem_cons.mp h with
    | inl h => cases h
    | inr h =>
      cases List.mem_singleton.mp h
      exact hvalue
  · intro v t h
    cases List.mem_cons.mp h with
    | inl h => cases h
    | inr h =>
      cases List.mem_singleton.mp h
      rfl
  · intro v h
    cases h
    exact ⟨hvalue, rfl⟩

end QueryRelay
