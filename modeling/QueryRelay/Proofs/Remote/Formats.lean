import QueryRelay.Proofs.Payload.TextMessages
import QueryRelay.Proofs.Remote.Transparency

/-!
# Payload formats seen from a client

A client and a service may both use the text form or both the binary form. Main statement: as long
as the text form carries the floating-point numbers in a query and in its answer, and nothing nests
too deep for it, the client gets the same in both forms. Queries that divide show what happens to
other numbers: an infinity makes the client fail, and some quotients arrive changed.
-/

namespace QueryRelay

open Datum (Carried)
open Payload (wordSpace)

namespace Codec

/-- A codec that writes and reads the text form, up to a length that fits eight bytes. -/
structure IsText (c : Codec) : Prop where
  /-- The payload format. -/
  format : c.format = .json
  /-- The limit. -/
  limit : c.maxLength < wordSpace

variable {α : Type} {m : MessageType α} {c d : Codec}

/-- A message that is carried passes from one codec to another in the text form, if that carries its
numbers and it nests no deeper than what is read. -/
theorem IsText.conveys (hc : c.IsText) (hd : d.IsText) {x : α} (h : m.Carries x)
    (hcarried : Carried (m.floats x)) (hnesting : m.nesting x ≤ 127) : c.Conveys d m x := by
  intro _
  rw [messageFrame, hd.format, openFrame, hc.format]
  exact PayloadFormat.decode_encode_json h hcarried hnesting

/-- A request passes from one codec to another in the text form, if that carries the numbers in its
constants and it nests no deeper than what is read. -/
theorem IsText.conveys_request (hc : c.IsText) (hd : d.IsText) {r : Request}
    (hplan : r.plan.IsPortable)
    (hconstants : ∀ v t, .constant v t ∈ r.plan.nodes → Carried v.floats)
    (hnesting : MessageType.request.nesting r ≤ 127) : c.Conveys d .request r :=
  hc.conveys hd (MessageType.request_carries hplan) (MessageType.request_carried hconstants)
    hnesting

/-- Reports of errors pass from one codec to another in the text form. -/
theorem IsText.conveysErrors (hc : c.IsText) (hd : d.IsText) : c.ConveysErrors d := by
  intro e α m _
  have hcarries := MessageType.remoteError_carries (.ofError e)
  have hread := PayloadFormat.decode_encode_json hcarries (List.forall_mem_nil _)
    (by decide : 1 ≤ 127)
  rw [errorFrame, hd.format, openFrame, hc.format]
  dsimp only
  rw [hread]
  rfl

end Codec

namespace Executor

variable {x : Executor} {service client : Codec} {plan : Plan}

/-- The text form can hold a request to an executor and the answer to it: it carries the
floating-point numbers in them, and they nest at most 127 levels deep. -/
structure IsLegible (x : Executor) (r : Request) : Prop where
  /-- The numbers in the constants of the request. -/
  constants : ∀ v t, .constant v t ∈ r.plan.nodes → Carried v.floats
  /-- The nesting of the request. -/
  request : MessageType.request.nesting r ≤ 127
  /-- The answer of one value. -/
  value : r.mode = .single → ∀ v, x.execute r.plan = .ok v →
    Carried v.floats ∧ MessageType.value.nesting v ≤ 127
  /-- The elements of a stream. -/
  item : r.mode = .stream → ∀ rs, x.records r.plan = .ok rs → ∀ v ∈ Value.detach rs.records,
    Carried v.floats ∧ MessageType.streamFrame.nesting (.item v) ≤ 127

/-- In the text form a request and its answer that it can hold pass between two sides when the
values in them can be sent. -/
theorem conveys_text (hservice : service.IsText) (hclient : client.IsText)
    (hplan : plan.IsPortable)
    (hrecords : ∀ rs, x.records plan = .ok rs → ∀ v ∈ rs.records, v.IsPortable) {mode : Mode}
    (h : x.IsLegible ⟨mode, plan⟩) : x.Conveys service client ⟨mode, plan⟩ where
  limits := ⟨hservice.limit, hclient.limit⟩
  request := hservice.conveys_request hclient hplan h.constants h.request
  value hmode v hv := by
    have hcarries := MessageType.value_carries (isPortable_of_execute_eq_ok hrecords hv)
    obtain ⟨hcarried, hnesting⟩ := h.value hmode v hv
    exact hclient.conveys hservice hcarries ((MessageType.floats_value v).symm ▸ hcarried) hnesting
  item hmode rs hrs v hv := by
    have hcarries := MessageType.item_carries (Value.isPortable_of_mem_detach (hrecords rs hrs) hv)
    obtain ⟨hcarried, hnesting⟩ := h.item hmode rs hrs v hv
    exact hclient.conveys hservice hcarries ((MessageType.floats_item v).symm ▸ hcarried) hnesting
  done := hclient.conveys hservice MessageType.done_carries (List.forall_mem_nil _) (by decide)
  errors := hclient.conveysErrors hservice

/-- A request and its answer are short enough in either form when the document and the bytes of the
request are short and the answer is. -/
theorem fits_of_length_le {r : Request} {limit : Nat}
    (htext : (MessageType.request.toDatum r).toJson.write.length ≤ limit / 4)
    (hbytes : (MessageType.request.toDatum r).toBytes.length ≤ limit)
    (hanswer : ∀ f, ∀ g ∈ x.answerRequest ⟨f, limit⟩ r, g.payload.length ≤ limit)
    (f : PayloadFormat) : x.Fits ⟨f, limit⟩ ⟨f, limit⟩ r := by
  have hfour : 4 * (MessageType.request.toDatum r).toJson.write.length ≤ limit := by omega
  refine ⟨?_, hanswer f⟩
  cases f with
  | json => exact Nat.le_trans (PayloadFormat.length_encode_json_le .request r) hfour
  | binary => exact hbytes

/-- A client of an executor through a pipe, in one payload format. The sides read payloads of at
most the given lengths. -/
def clientThrough (x : Executor) (serviceLimit clientLimit : Nat)
    (toService toClient : PayloadFormat → List Nat) (f : PayloadFormat) : RemoteClient :=
  ⟨x.pipe ⟨f, serviceLimit⟩ (toService f) (toClient f), ⟨f, clientLimit⟩⟩

end Executor

/-- A client gets the same in the text form as in the binary form, one value or a stream of elements
with every error, for every query and answer that fit the limits in both forms and that the text
form can hold. The pipes may cut the bytes as they like. -/
theorem clientThrough_json_eq_binary {x : Executor} {plan : Plan} {serviceLimit clientLimit : Nat}
    (hservice : serviceLimit < wordSpace) (hclient : clientLimit < wordSpace)
    (toService toClient : PayloadFormat → List Nat) (hplan : plan.IsPortable)
    (hrecords : ∀ rs, x.records plan = .ok rs → ∀ v ∈ rs.records, v.IsPortable) :
    let client := x.clientThrough serviceLimit clientLimit toService toClient
    let Fits (mode : Mode) := ∀ f, x.Fits ⟨f, serviceLimit⟩ ⟨f, clientLimit⟩ ⟨mode, plan⟩
    (Fits .single → x.IsLegible ⟨.single, plan⟩ →
      (client .json).execute .clear plan = (client .binary).execute .clear plan) ∧
    (Fits .stream → x.IsLegible ⟨.stream, plan⟩ → ∀ n,
      (client .json).polls .clear n (.waiting plan) =
        (client .binary).polls .clear n (.waiting plan)) := by
  intro client Fits
  have htext (mode : Mode) (h : x.IsLegible ⟨mode, plan⟩) :
      x.Conveys ⟨.json, serviceLimit⟩ ⟨.json, clientLimit⟩ ⟨mode, plan⟩ :=
    Executor.conveys_text ⟨rfl, hservice⟩ ⟨rfl, hclient⟩ hplan hrecords h
  have hbinary (mode : Mode) :
      x.Conveys ⟨.binary, serviceLimit⟩ ⟨.binary, clientLimit⟩ ⟨mode, plan⟩ :=
    Executor.conveys_binary ⟨rfl, hservice⟩ ⟨rfl, hclient⟩ hplan hrecords mode
  -- In either form the client gets what the executor gives.
  constructor
  · intro hfits hlegible
    have hjson := Executor.execute_conveyed (htext .single hlegible) (toService .json)
      (toClient .json) (hfits .json)
    exact hjson.trans (Executor.execute_conveyed (hbinary .single) (toService .binary)
      (toClient .binary) (hfits .binary)).symm
  · intro hfits hlegible n
    have hjson := Executor.polls_conveyed (htext .stream hlegible) (toService .json)
      (toClient .json) (hfits .json) n
    exact hjson.trans (Executor.polls_conveyed (hbinary .stream) (toService .binary)
      (toClient .binary) (hfits .binary) n).symm

/-! ## Quotients -/

/-- A query that divides one number by another. -/
def Plan.quotient (a b : Nat) : Plan :=
  .binary .div (.constant (.float (.ofNat a)) Ty.float.describe)
    (.constant (.float (.ofNat b)) Ty.float.describe) Ty.float.describe

/-- An executor over a small table. -/
def Executor.people : Executor := .ofCatalog .people Store.people.elements

/-- The constants of a division are its numbers. -/
theorem Plan.constant_mem_quotient {a b : Nat} {v : Value} {t : Descriptor}
    (h : .constant v t ∈ (quotient a b).nodes) : v = .float (.ofNat a) ∨ v = .float (.ofNat b) := by
  rcases List.mem_cons.mp h with h | h
  · cases h
  · rcases List.mem_cons.mp h with h | h
    · cases h
      exact .inl rfl
    · cases List.mem_singleton.mp h
      exact .inr rfl

/-- A division can be sent. -/
theorem Plan.quotient_isPortable (a b : Nat) : (quotient a b).IsPortable := by
  intro v t h
  rcases constant_mem_quotient h with rfl | rfl <;> exact .float _

/-- The numbers of a division are carried if each is. -/
theorem Plan.quotient_carried {a b : Nat} (ha : (Binary64.ofNat a).IsCarried)
    (hb : (Binary64.ofNat b).IsCarried) :
    ∀ v t, .constant v t ∈ (quotient a b).nodes → Carried v.floats := by
  intro v t h
  rcases constant_mem_quotient h with rfl | rfl
  · exact List.forall_mem_singleton.mpr ha
  · exact List.forall_mem_singleton.mpr hb

/-- A division gives the quotient. -/
theorem Executor.records_quotient (a b : Nat) : Executor.people.records (.quotient a b) =
    .ok ⟨[.float ((Binary64.ofNat a).div (.ofNat b))], false⟩ := rfl

/-- Asked for one value, a division gives the quotient. -/
theorem Executor.execute_quotient (a b : Nat) : Executor.people.execute (.quotient a b) =
    .ok (.float ((Binary64.ofNat a).div (.ofNat b))) := rfl

/-- The records of a division can be sent. -/
theorem Executor.isPortable_of_records_quotient {a b : Nat} :
    ∀ rs, Executor.people.records (.quotient a b) = .ok rs → ∀ v ∈ rs.records, v.IsPortable := by
  intro rs hrs
  rw [records_quotient] at hrs
  cases hrs
  exact List.forall_mem_singleton.mpr (.float _)

/-- One half arrives as such in both forms. -/
theorem half_json_eq_binary :
    let client := Executor.people.clientThrough 4096 4096 (fun _ => [4, 1]) (fun _ => [1, 0, 7])
    (client .json).execute .clear (.quotient 1 2) =
        (client .binary).execute .clear (.quotient 1 2) ∧
      (client .json).polls .clear 3 (.waiting (.quotient 1 2)) =
        (client .binary).polls .clear 3 (.waiting (.quotient 1 2)) := by
  have hfits (mode : Mode) (f : PayloadFormat) :
      Executor.people.Fits ⟨f, 4096⟩ ⟨f, 4096⟩ ⟨mode, .quotient 1 2⟩ := by
    refine Executor.fits_of_length_le ?_ ?_ (fun f => ?_) f
    · cases mode <;> decide +kernel
    · cases mode <;> decide +kernel
    · cases mode <;> cases f <;> decide +kernel
  have hhalf : Carried (Value.float ((Binary64.ofNat 1).div (.ofNat 2))).floats :=
    List.forall_mem_singleton.mpr (by decide +kernel)
  have hlegible (mode : Mode) : Executor.people.IsLegible ⟨mode, .quotient 1 2⟩ := by
    refine ⟨Plan.quotient_carried (by decide +kernel) (by decide +kernel), ?_, ?_, ?_⟩
    · cases mode <;> decide +kernel
    · rintro - v hv
      cases (Executor.execute_quotient 1 2).symm.trans hv
      exact ⟨hhalf, by decide +kernel⟩
    · rintro - rs hrs v hv
      cases (Executor.records_quotient 1 2).symm.trans hrs
      cases List.mem_singleton.mp hv
      exact ⟨hhalf, by decide +kernel⟩
  have hlimit : 4096 < wordSpace := by decide
  obtain ⟨hsingle, hstream⟩ := clientThrough_json_eq_binary hlimit hlimit (fun _ => [4, 1])
    (fun _ => [1, 0, 7]) (Plan.quotient_isPortable 1 2) Executor.isPortable_of_records_quotient
  exact ⟨hsingle (hfits .single) (hlegible .single), hstream (hfits .stream) (hlegible .stream) 3⟩

/-- In the text form a client gets what is read back from the text of the quotient, if the numbers
of the division are carried. -/
theorem Executor.execute_quotient_json {a b limit : Nat} (hlimit : limit < wordSpace)
    (ha : (Binary64.ofNat a).IsCarried) (hb : (Binary64.ofNat b).IsCarried)
    (hnesting : MessageType.request.nesting ⟨.single, .quotient a b⟩ ≤ 127)
    (hfits : Executor.people.Fits ⟨.json, limit⟩ ⟨.json, limit⟩ ⟨.single, .quotient a b⟩) :
    (Executor.people.clientThrough limit limit (fun _ => []) (fun _ => []) .json).execute .clear
        (.quotient a b) =
      PayloadFormat.decode .json .value
        (PayloadFormat.encode .json .value (.float ((Binary64.ofNat a).div (.ofNat b)))) :=
  have hrequest : Codec.Conveys ⟨.json, limit⟩ ⟨.json, limit⟩ .request ⟨.single, .quotient a b⟩ :=
    Codec.IsText.conveys_request ⟨rfl, hlimit⟩ ⟨rfl, hlimit⟩ (Plan.quotient_isPortable a b)
      (Plan.quotient_carried ha hb) hnesting
  Executor.execute_eq_openFrame ⟨hlimit, hlimit⟩ hrequest [] [] hfits rfl

/-- In the binary form a client gets the quotient. -/
theorem Executor.execute_quotient_binary {a b limit : Nat} (hlimit : limit < wordSpace)
    (hfits : Executor.people.Fits ⟨.binary, limit⟩ ⟨.binary, limit⟩ ⟨.single, .quotient a b⟩) :
    (Executor.people.clientThrough limit limit (fun _ => []) (fun _ => []) .binary).execute .clear
        (.quotient a b) = .ok (.float ((Binary64.ofNat a).div (.ofNat b))) :=
  Executor.execute_pipe ⟨rfl, hlimit⟩ ⟨rfl, hlimit⟩ [] [] (Plan.quotient_isPortable a b)
    Executor.isPortable_of_records_quotient hfits

/-- A query in which the payload format shows: it can be sent and so can its records, it fits both
forms, and nothing nests too deep, but a client gets one thing in the text form and another in the
binary form. -/
structure Executor.ShowsFormat (x : Executor) (plan : Plan) (limit : Nat) : Prop where
  /-- The query can be sent. -/
  portable : plan.IsPortable
  /-- Its records can be sent. -/
  records : ∀ rs, x.records plan = .ok rs → ∀ v ∈ rs.records, v.IsPortable
  /-- The messages fit both forms. -/
  fits : ∀ f, x.Fits ⟨f, limit⟩ ⟨f, limit⟩ ⟨.single, plan⟩
  /-- The request nests at most 127 levels deep. -/
  request : MessageType.request.nesting ⟨.single, plan⟩ ≤ 127
  /-- The answer nests at most 127 levels deep. -/
  value : ∀ v, x.execute plan = .ok v → MessageType.value.nesting v ≤ 127
  /-- A client gets different things. -/
  differs : (x.clientThrough limit limit (fun _ => []) (fun _ => []) .json).execute .clear plan ≠
    (x.clientThrough limit limit (fun _ => []) (fun _ => []) .binary).execute .clear plan

/-- The format shows in a division when another number than the quotient is read back, or none. -/
theorem Executor.showsFormat_quotient {a b limit : Nat} (hlimit : limit < wordSpace)
    (ha : (Binary64.ofNat a).IsCarried) (hb : (Binary64.ofNat b).IsCarried)
    (hfits : ∀ f, Executor.people.Fits ⟨f, limit⟩ ⟨f, limit⟩ ⟨.single, .quotient a b⟩)
    (hrequest : MessageType.request.nesting ⟨.single, .quotient a b⟩ ≤ 127)
    (hvalue : MessageType.value.nesting (.float ((Binary64.ofNat a).div (.ofNat b))) ≤ 127)
    (hread : (PayloadFormat.decode .json .value (PayloadFormat.encode .json .value
      (.float ((Binary64.ofNat a).div (.ofNat b))))).toOption.bind Value.asFloat? ≠
        some ((Binary64.ofNat a).div (.ofNat b))) :
    Executor.people.ShowsFormat (.quotient a b) limit where
  portable := Plan.quotient_isPortable a b
  records := isPortable_of_records_quotient
  fits := hfits
  request := hrequest
  value v hv := by
    cases (execute_quotient a b).symm.trans hv
    exact hvalue
  differs heq := by
    rw [execute_quotient_json hlimit ha hb hrequest (hfits .json),
      execute_quotient_binary hlimit (hfits .binary)] at heq
    rw [heq] at hread
    exact hread rfl

/-- The format shows in the division of one by eleven, where the quotient arrives changed, and of
one by zero, where it does not arrive. -/
theorem quotients_showFormat :
    Executor.people.ShowsFormat (.quotient 1 11) 4096 ∧
      Executor.people.ShowsFormat (.quotient 1 0) 4096 := by
  have heleven : ∀ f, Executor.people.Fits ⟨f, 4096⟩ ⟨f, 4096⟩ ⟨.single, .quotient 1 11⟩ :=
    Executor.fits_of_length_le (by decide +kernel) (by decide +kernel)
      (fun f => by cases f <;> decide +kernel)
  have hzero : ∀ f, Executor.people.Fits ⟨f, 4096⟩ ⟨f, 4096⟩ ⟨.single, .quotient 1 0⟩ :=
    Executor.fits_of_length_le (by decide +kernel) (by decide +kernel)
      (fun f => by cases f <;> decide +kernel)
  exact ⟨Executor.showsFormat_quotient (by decide) (by decide +kernel) (by decide +kernel) heleven
      (by decide +kernel) (by decide +kernel) (by decide +kernel),
    Executor.showsFormat_quotient (by decide) (by decide +kernel) (by decide +kernel) hzero
      (by decide +kernel) (by decide +kernel) (by decide +kernel)⟩

end QueryRelay
