import QueryRelay.Proofs.Plan.Translation
import QueryRelay.Proofs.Remote.Streams
import QueryRelay.Remote.Pipe

/-!
# Clients see what executors give

A client and a service on the two ends of a pipe, which cuts the bytes into pieces as it likes. Main
statement: a query that nobody calls off gives the client what the executor gives, one value or the
elements one by one, with every error as a report of it.
-/

namespace QueryRelay

open Payload (wordSpace)

/-- An error as the other side of a connection sees it: a report that was passed on stays as it is,
any other error is reported by its text and the name of its kind. -/
def Error.reported : Error → Error
  | .remote message typeName => .remote message typeName
  | e => .remote e.message e.kindName

/-- A report of an error is the reported error to its receiver. -/
theorem RemoteError.toError_ofError (e : Error) : (RemoteError.ofError e).toError = e.reported := by
  cases e <;> rfl

/-- Asking for one value that nobody called off is asking the other side. -/
theorem RemoteClient.execute_clear (c : RemoteClient) (plan : Plan) :
    c.execute .clear plan = c.exchange plan := rfl

namespace Executor

/-- A pipe between a client and a service in this process. Each side receives the bytes of the other
in pieces, the next ones of at most the given lengths. -/
def pipe (x : Executor) (c : Codec) (toService toClient : List Nat) : Connector := fun bytes =>
  .ok ⟨(x.serve c ⟨bytes, toService.map .upTo⟩).bytes, toClient.map .upTo⟩

/-- The payloads of a request and of the answer to it are short enough for the side that reads
them. -/
structure Fits (x : Executor) (service client : Codec) (r : Request) : Prop where
  /-- The request. -/
  request : (client.messageFrame .request r).payload.length ≤ service.maxLength
  /-- The answer. -/
  answer : ∀ f ∈ x.answerRequest service r, f.payload.length ≤ client.maxLength

/-- A request to an executor and the answer to it pass between two sides: each takes out of the
frames what the other puts into them. -/
structure Conveys (x : Executor) (service client : Codec) (r : Request) : Prop where
  /-- The limits fit eight bytes. -/
  limits : service.maxLength < wordSpace ∧ client.maxLength < wordSpace
  /-- The request. -/
  request : service.Conveys client .request r
  /-- The answer of one value. -/
  value : r.mode = .single → ∀ v, x.execute r.plan = .ok v → client.Conveys service .value v
  /-- The elements of a stream. -/
  item : r.mode = .stream → ∀ rs, x.records r.plan = .ok rs → ∀ v ∈ Value.detach rs.records,
    client.Conveys service .streamFrame (.item v)
  /-- The end of a stream. -/
  done : client.Conveys service .streamFrame .done
  /-- Reports of errors. -/
  errors : client.ConveysErrors service

variable {x : Executor} {service client : Codec} {r : Request}

/-- What a client receives for a request is the answer to it. -/
theorem send_pipe (hlimit : service.maxLength < wordSpace)
    (hrequest : service.Conveys client .request r) (toService toClient : List Nat)
    (hfits : x.Fits service client r) :
    RemoteClient.send ⟨x.pipe service toService toClient, client⟩ r =
      .ok ⟨(x.answerRequest service r).flatMap Frame.encode, toClient.map .upTo⟩ := by
  have hs := (ByteSource.isSteady_upTo
    ((client.messageFrame .request r).encode) toService).serves .awaiting
  have hsplit : Frame.SplitsInto service.maxLength (client.messageFrame .request r).encode
      [client.messageFrame .request r] none := by
    rw [← List.flatMap_singleton Frame.encode]
    exact Frame.splitsInto_flatMap (List.forall_mem_singleton.mpr
      ⟨Nat.lt_of_le_of_lt hfits.request hlimit, hfits.request⟩)
  have hread := Codec.readFrames_splitsInto hs hsplit
  have hanswer : x.answer service (client.messageFrame .request r) = x.answerRequest service r := by
    rw [answer, hrequest hfits.request]
  simp only [RemoteClient.send, pipe, serve, Served.bytes, hread, List.flatMap_singleton, hanswer]

/-! ## Answers -/

/-- A value that an executor gives can be sent when its records can. -/
theorem isPortable_of_execute_eq_ok {plan : Plan} {v : Value}
    (hrecords : ∀ rs, x.records plan = .ok rs → ∀ w ∈ rs.records, w.IsPortable)
    (h : x.execute plan = .ok v) : v.IsPortable := by
  obtain ⟨rs, hrs, hv⟩ := Outcome.bind_eq_ok.mp h
  have hall := hrecords rs hrs
  rw [Outcome.pure_eq_ok] at hv
  subst hv
  split
  · exact .list hall
  · cases hlist : rs.records with
    | nil => exact .null
    | cons w rest => exact hall w (hlist ▸ List.mem_cons_self)

/-- What the polls of a stream from the other side give: the self-contained records, or the report
of the error. -/
def remoteResults (x : Executor) (plan : Plan) : List (Except Error Value) :=
  match x.records plan with
  | .ok rs => (Value.detach rs.records).map .ok
  | .error e => [.error e.reported]

/-- A stream from the other side gives what a stream in this process gives, errors as reports. -/
theorem remoteResults_eq_stream (x : Executor) (plan : Plan) :
    x.remoteResults plan = (x.stream .clear plan).map fun r => r.mapError Error.reported := by
  have hclear : (do Signal.clear.check; x.records plan : Except Error Records) = x.records plan :=
    rfl
  rw [remoteResults, stream, hclear]
  cases x.records plan with
  | ok rs =>
    rw [List.map_map]
    rfl
  | error e => rfl

variable {plan : Plan}

/-- What a client gets that asks for one value is what it takes out of the frame of the answer. -/
theorem execute_eq_openFrame
    (hlimits : service.maxLength < wordSpace ∧ client.maxLength < wordSpace)
    (hrequest : service.Conveys client .request ⟨.single, plan⟩) (toService toClient : List Nat)
    (hfits : x.Fits service client ⟨.single, plan⟩) {f : Frame}
    (hframes : x.answerRequest service ⟨.single, plan⟩ = [f]) :
    RemoteClient.execute ⟨x.pipe service toService toClient, client⟩ .clear plan =
      client.openFrame .value f := by
  have hsend := send_pipe hlimits.1 hrequest toService toClient hfits
  have hanswer := hfits.answer
  rw [hframes] at hsend hanswer
  have hsteady := ByteSource.isSteady_upTo ([f].flatMap Frame.encode) toClient
  have hbytes : [f].flatMap Frame.encode = f.encode ++ [] := by
    rw [List.flatMap_singleton, List.append_nil]
  obtain ⟨t, -, -, hread⟩ := Codec.readMessage_encode (hsteady.serves .awaiting) .value hbytes
    (hanswer f (.head _)) hlimits.2
  rw [RemoteClient.execute_clear, RemoteClient.exchange, hsend]
  change (do return (← client.readMessage .awaiting .value _).1) = _
  rw [hread]
  cases client.openFrame .value f <;> rfl

/-- Asking for one value gives what the executor gives, when the request and its answer pass between
the two sides. -/
theorem execute_conveyed (h : x.Conveys service client ⟨.single, plan⟩)
    (toService toClient : List Nat) (hfits : x.Fits service client ⟨.single, plan⟩) :
    RemoteClient.execute ⟨x.pipe service toService toClient, client⟩ .clear plan =
      (x.execute plan).mapError Error.reported := by
  have hanswer := hfits.answer
  obtain ⟨f, hframes, hopen⟩ : ∃ f, x.answerRequest service ⟨.single, plan⟩ = [f] ∧
      client.openFrame .value f = (x.execute plan).mapError Error.reported := by
    rw [answerRequest] at hanswer ⊢
    cases hrun : x.execute plan with
    | ok v =>
      rw [hrun] at hanswer
      exact ⟨_, rfl, h.value rfl v hrun (hanswer _ (.head _))⟩
    | error e =>
      rw [hrun] at hanswer
      refine ⟨_, rfl, ?_⟩
      rw [h.errors e _ (hanswer _ (.head _)), RemoteError.toError_ofError]
      rfl
  rw [execute_eq_openFrame h.limits h.request toService toClient hfits hframes, hopen]

/-- The frames that answer a request for a stream hold the self-contained records, or the report of
the error. -/
theorem results_answerRequest (h : x.Conveys service client ⟨.stream, plan⟩)
    (hlength : ∀ f ∈ x.answerRequest service ⟨.stream, plan⟩,
      f.payload.length ≤ client.maxLength) :
    client.results (x.answerRequest service ⟨.stream, plan⟩) none = x.remoteResults plan := by
  rw [remoteResults]
  rw [answerRequest] at hlength ⊢
  cases hrun : x.records plan with
  | ok rs =>
    rw [hrun] at hlength
    obtain ⟨hitems, hdone⟩ := List.forall_mem_append.mp hlength
    exact Codec.results_items
      (fun v hv => h.item rfl rs hrun v hv (hitems _ (List.mem_map_of_mem hv)))
      (h.done (hdone _ (.head _)))
  | error e =>
    rw [hrun] at hlength
    have hopen := h.errors e .streamFrame (hlength _ (.head _))
    rw [RemoteError.toError_ofError] at hopen
    exact Codec.results_singleton hopen

/-- The polls of a stream give the self-contained records and then the end, when the request and its
answer pass between the two sides. -/
theorem polls_conveyed (h : x.Conveys service client ⟨.stream, plan⟩)
    (toService toClient : List Nat) (hfits : x.Fits service client ⟨.stream, plan⟩) (n : Nat) :
    RemoteClient.polls ⟨x.pipe service toService toClient, client⟩ .clear n (.waiting plan) =
      Poll.first n (x.remoteResults plan) := by
  have hsend := send_pipe h.limits.1 h.request toService toClient hfits
  have hs := (ByteSource.isSteady_upTo
    ((x.answerRequest service ⟨.stream, plan⟩).flatMap Frame.encode) toClient).serves .awaiting
  have hsplit := Frame.splitsInto_flatMap fun f hf =>
    ⟨Nat.lt_of_le_of_lt (hfits.answer f hf) h.limits.2, hfits.answer f hf⟩
  have hgives := RemoteClient.Gives.waiting hsend (RemoteClient.gives_reading hs hsplit)
  rw [results_answerRequest h hfits.answer] at hgives
  exact hgives.polls n

variable (hservice : service.IsBinary) (hclient : client.IsBinary)
  (toService toClient : List Nat) (hplan : plan.IsPortable)
  (hrecords : ∀ rs, x.records plan = .ok rs → ∀ v ∈ rs.records, v.IsPortable)
include hservice hclient hplan hrecords

/-- In the binary form every request and its answer pass between two sides when the values in them
can be sent. -/
theorem conveys_binary (mode : Mode) : x.Conveys service client ⟨mode, plan⟩ where
  limits := ⟨hservice.limit, hclient.limit⟩
  request := hservice.conveys hclient (MessageType.request_carries hplan)
  value _ _ hv :=
    hclient.conveys hservice (MessageType.value_carries (isPortable_of_execute_eq_ok hrecords hv))
  item _ rs hrs _ hv := hclient.conveys hservice
    (MessageType.item_carries (Value.isPortable_of_mem_detach (hrecords rs hrs) hv))
  done := hclient.conveys hservice MessageType.done_carries
  errors := hclient.conveysErrors hservice

/-- Asking for one value in the binary form gives what the executor gives. -/
theorem execute_pipe (hfits : x.Fits service client ⟨.single, plan⟩) :
    RemoteClient.execute ⟨x.pipe service toService toClient, client⟩ .clear plan =
      (x.execute plan).mapError Error.reported :=
  execute_conveyed (conveys_binary hservice hclient hplan hrecords .single) toService toClient hfits

/-- The polls of a stream in the binary form give the self-contained records and then the end. -/
theorem polls_pipe (hfits : x.Fits service client ⟨.stream, plan⟩) (n : Nat) :
    RemoteClient.polls ⟨x.pipe service toService toClient, client⟩ .clear n (.waiting plan) =
      Poll.first n (x.remoteResults plan) :=
  polls_conveyed (conveys_binary hservice hclient hplan hrecords .stream) toService toClient hfits n

end Executor

/-- A query of which every value can be sent gives the same on both sides of a pipe, however the
pipe cuts the bytes: one value is the value that the executor gives, and the polls of a stream give
the self-contained records in order and then the end. An error of the executor arrives as a report
of it. -/
theorem remote_eq_executor {x : Executor} {service client : Codec} {plan : Plan}
    (hservice : service.IsBinary) (hclient : client.IsBinary) (toService toClient : List Nat)
    (hplan : plan.IsPortable)
    (hrecords : ∀ rs, x.records plan = .ok rs → ∀ v ∈ rs.records, v.IsPortable) :
    (x.Fits service client ⟨.single, plan⟩ →
      RemoteClient.execute ⟨x.pipe service toService toClient, client⟩ .clear plan =
        (x.execute plan).mapError Error.reported) ∧
    (x.Fits service client ⟨.stream, plan⟩ → ∀ n,
      RemoteClient.polls ⟨x.pipe service toService toClient, client⟩ .clear n (.waiting plan) =
        Poll.first n (x.remoteResults plan)) :=
  ⟨x.execute_pipe hservice hclient toService toClient hplan hrecords,
    x.polls_pipe hservice hclient toService toClient hplan hrecords⟩

/-- The table of all persons. -/
def Plan.everybody : Plan :=
  .query (.source (.plain (some "app") "Person")) (.sequence (.plain (some "app") "Person"))

/-- The table of all persons arrives whole, and row by row, through a pipe that cuts off a few bytes
now and then. -/
theorem everybody_remote_eq_executor :
    let row : Value := .record none [("Name", .text "Ann"), ("Age", .int 30)]
    let c := Codec.ofFormat .binary
    let client : RemoteClient :=
      ⟨(Executor.ofCatalog .people Store.people.elements).pipe c [4, 1] [1, 0, 7], c⟩
    client.execute .clear .everybody = .ok (.list [row]) ∧
      client.polls .clear 3 (.waiting .everybody) = [.item (.ok row), .ended, .ended] := by
  have hcodec : (Codec.ofFormat .binary).IsBinary := ⟨rfl, by decide⟩
  have hplan : Plan.everybody.IsPortable := by
    intro v t h
    cases List.mem_singleton.mp h
  have hrow : (Value.record none [("Name", .text "Ann"), ("Age", .int 30)]).IsPortable :=
    .record (by decide)
      (List.forall_mem_cons.mpr ⟨.text "Ann", List.forall_mem_singleton.mpr (.int 30)⟩)
  obtain ⟨hsingle, hstream⟩ := remote_eq_executor hcodec hcodec [4, 1] [1, 0, 7]
    (x := .ofCatalog .people Store.people.elements) hplan fun rs hrs => by
      cases hrs
      exact List.forall_mem_singleton.mpr hrow
  exact ⟨hsingle ⟨by decide +kernel, by decide +kernel⟩,
    hstream ⟨by decide +kernel, by decide +kernel⟩ 3⟩

end QueryRelay
