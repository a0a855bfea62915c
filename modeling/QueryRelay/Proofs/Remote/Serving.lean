import QueryRelay.Proofs.Wire.Splitting
import QueryRelay.Remote.Service

/-!
# Whole connections

A service takes one turn for each frame that it reads: it writes the answer to the frame and goes
on. Main statement: whatever bytes a client sends, and in whatever pieces they arrive, the service
has one run. It answers each frame that the bytes can be split into, in order and each by itself,
and then it stops, without a fault exactly when no bytes are left.
-/

namespace QueryRelay

namespace Executor

/-- The frames that answer a frame, by what it holds and how the query in it goes. -/
inductive Answers (x : Executor) (c : Codec) (f : Frame) : List Frame → Prop
  /-- A request for one value is answered by the value. -/
  | value {plan : Plan} {v : Value} (hkind : f.kind = .message)
      (hrequest : c.format.decode .request f.payload = .ok ⟨.single, plan⟩)
      (hrun : x.execute plan = .ok v) : Answers x c f [c.messageFrame .value v]
  /-- A request for a stream is answered by its self-contained elements and the end. -/
  | stream {plan : Plan} {rs : Records} (hkind : f.kind = .message)
      (hrequest : c.format.decode .request f.payload = .ok ⟨.stream, plan⟩)
      (hrun : x.records plan = .ok rs) : Answers x c f
        ((Value.detach rs.records).map (fun v => c.messageFrame .streamFrame (.item v)) ++
          [c.messageFrame .streamFrame .done])
  /-- A request for one value that fails is answered by a report. -/
  | valueFault {plan : Plan} {e : Error} (hkind : f.kind = .message)
      (hrequest : c.format.decode .request f.payload = .ok ⟨.single, plan⟩)
      (hrun : x.execute plan = .error e) : Answers x c f [c.errorFrame e]
  /-- A request for a stream that fails is answered by a report. -/
  | streamFault {plan : Plan} {e : Error} (hkind : f.kind = .message)
      (hrequest : c.format.decode .request f.payload = .ok ⟨.stream, plan⟩)
      (hrun : x.records plan = .error e) : Answers x c f [c.errorFrame e]
  /-- A message that is no request is answered by a report. -/
  | malformed {e : Error} (hkind : f.kind = .message)
      (hpayload : c.format.decode .request f.payload = .error e) : Answers x c f [c.errorFrame e]
  /-- A report is answered by a report of the error that it is. -/
  | reported {e : RemoteError} (hkind : f.kind = .error)
      (hpayload : c.format.decode .remoteError f.payload = .ok e) :
      Answers x c f [c.errorFrame e.toError]
  /-- A report that cannot be read is answered by a report. -/
  | malformedReport {e : Error} (hkind : f.kind = .error)
      (hpayload : c.format.decode .remoteError f.payload = .error e) :
      Answers x c f [c.errorFrame e]

variable {x : Executor} {c : Codec}

/-- A request of either mode is answered by what it asks for, or by a report. -/
theorem answers_answerRequest {f : Frame} {r : Request} (hkind : f.kind = .message)
    (hrequest : c.format.decode .request f.payload = .ok r) :
    x.Answers c f (x.answerRequest c r) := by
  obtain ⟨mode, plan⟩ := r
  cases mode with
  | single =>
    cases hrun : x.execute plan with
    | ok v =>
      simp only [answerRequest, hrun]
      exact .value hkind hrequest hrun
    | error e =>
      simp only [answerRequest, hrun]
      exact .valueFault hkind hrequest hrun
  | stream =>
    cases hrun : x.records plan with
    | ok rs =>
      simp only [answerRequest, hrun]
      exact .stream hkind hrequest hrun
    | error e =>
      simp only [answerRequest, hrun]
      exact .streamFault hkind hrequest hrun

/-- Every frame has an answer. -/
theorem answers_answer (x : Executor) (c : Codec) (f : Frame) : x.Answers c f (x.answer c f) := by
  rw [answer, Codec.openFrame]
  cases hkind : f.kind with
  | message =>
    cases hpayload : c.format.decode .request f.payload with
    | ok r => exact answers_answerRequest hkind hpayload
    | error e => exact .malformed hkind hpayload
  | error =>
    cases hpayload : c.format.decode .remoteError f.payload with
    | ok e => exact .reported hkind hpayload
    | error e => exact .malformedReport hkind hpayload

/-- No frame has more than one answer. -/
theorem Answers.eq_answer {f : Frame} {out : List Frame} (h : x.Answers c f out) :
    out = x.answer c f := by
  rw [answer, Codec.openFrame]
  cases h with
  | value hkind hrequest hrun | stream hkind hrequest hrun | valueFault hkind hrequest hrun
  | streamFault hkind hrequest hrun =>
    rw [hkind]
    simp only [hrequest, answerRequest, hrun]
  | malformed hkind hpayload =>
    rw [hkind]
    simp only [hpayload]
  | reported hkind hpayload | malformedReport hkind hpayload =>
    rw [hkind]
    simp only [hpayload]
    rfl

/-- A run of a service over the bytes of a connection, turn by turn: what it writes, and why it
stops. -/
inductive Runs (x : Executor) (c : Codec) : ByteSource → Served → Prop
  /-- The connection is closed. -/
  | closed {s t : ByteSource} (hread : c.readFrame .awaiting s = .ok (none, t)) :
      Runs x c s ⟨[], none⟩
  /-- No frame can be read. -/
  | fault {s : ByteSource} {e : Error} (hread : c.readFrame .awaiting s = .error e) :
      Runs x c s ⟨[], some e⟩
  /-- A frame is read and answered, and the service goes on. -/
  | turn {s t : ByteSource} {f : Frame} {out : List Frame} {rest : Served}
      (hread : c.readFrame .awaiting s = .ok (some f, t)) (hanswer : x.Answers c f out)
      (hrest : Runs x c t rest) : Runs x c s ⟨out ++ rest.frames, rest.fault⟩

/-- A service has at most one run over the bytes of a connection. -/
theorem Runs.unique {s : ByteSource} {served served' : Served} (h : x.Runs c s served)
    (h' : x.Runs c s served') : served' = served := by
  induction h generalizing served' with
  | closed hread =>
    cases h' with
    | closed => rfl
    | fault hread' | turn hread' => cases hread.symm.trans hread'
  | fault hread =>
    cases h' with
    | fault hread' =>
      cases hread.symm.trans hread'
      rfl
    | closed hread' | turn hread' => cases hread.symm.trans hread'
  | turn hread hanswer _ ih =>
    cases h' with
    | turn hread' hanswer' hrest' =>
      cases hread.symm.trans hread'
      rw [hanswer.eq_answer, hanswer'.eq_answer, ih hrest']
    | closed hread' | fault hread' => cases hread.symm.trans hread'

variable {s : ByteSource} {frames : List Frame} {fault : Option FrameFault}

/-- Over bytes that are split into frames, a run answers the frames and stops at the fault behind
them. -/
theorem runs_of_splitsInto (x : Executor) (hs : s.Serves .awaiting)
    (h : Frame.SplitsInto c.maxLength s.bytes frames fault) :
    x.Runs c s ⟨frames.flatMap (x.answer c), fault.map .framing⟩ := by
  induction frames generalizing s with
  | nil =>
    rcases Codec.readFrame_splitsInto hs h with
      ⟨-, rfl, t, hread⟩ | ⟨e, -, rfl, hread⟩ | ⟨f, others, t, hcons, -⟩
    · exact .closed hread
    · exact .fault hread
    · cases hcons
  | cons f frames ih =>
    rcases Codec.readFrame_splitsInto hs h with
      ⟨hnil, -⟩ | ⟨e, hnil, -⟩ | ⟨g, others, t, hcons, ht, hrest, hread⟩
    · cases hnil
    · cases hnil
    · cases hcons
      rw [List.flatMap_cons]
      exact .turn hread (answers_answer x c f) (ih ht hrest)

/-- Reading all frames first and answering them then comes to the same. -/
theorem serve_of_splitsInto (x : Executor) (hs : s.Serves .awaiting)
    (h : Frame.SplitsInto c.maxLength s.bytes frames fault) :
    x.serve c s = ⟨frames.flatMap (x.answer c), fault.map .framing⟩ := by
  rw [serve, Codec.readFrames_splitsInto hs h]

end Executor

/-- Whatever bytes a client sends, and in whatever pieces they arrive, there is one way to split
them into frames, and the service has one run: it writes the answers to the frames in order, each by
what its frame holds and nothing else, and then it stops. It stops without a fault exactly when the
bytes are those of the frames, and with a fault of the connection otherwise. -/
theorem runs_answers (x : Executor) (c : Codec) (bytes : List UInt8) (limits : List Nat) :
    ∃ frames fault answers,
      (∀ fs e, Frame.SplitsInto c.maxLength bytes fs e ↔ fs = frames ∧ e = fault) ∧
      (fault = none ↔ bytes = frames.flatMap Frame.encode) ∧
      List.Forall₂ (x.Answers c) frames answers ∧
      (∀ served, x.Runs c ⟨bytes, limits.map .upTo⟩ served ↔
        served = ⟨answers.flatten, fault.map .framing⟩) ∧
      x.serve c ⟨bytes, limits.map .upTo⟩ = ⟨answers.flatten, fault.map .framing⟩ := by
  have hs : ByteSource.Serves ⟨bytes, limits.map .upTo⟩ .awaiting :=
    (ByteSource.isSteady_upTo bytes limits).serves .awaiting
  obtain ⟨frames, fault, hsplit⟩ := Frame.exists_splitsInto c.maxLength bytes
  have hanswers : List.Forall₂ (x.Answers c) frames (frames.map (x.answer c)) := by
    rw [List.forall₂_map_right_iff, List.forall₂_same]
    exact fun f _ => x.answers_answer c f
  have hrun := x.runs_of_splitsInto hs hsplit
  rw [List.flatMap_def] at hrun
  refine ⟨frames, fault, frames.map (x.answer c), fun fs e => ⟨fun h => hsplit.unique h, ?_⟩,
    hsplit.fault_eq_none_iff, hanswers, fun served => ⟨fun h => hrun.unique h, ?_⟩, ?_⟩
  · rintro ⟨rfl, rfl⟩
    exact hsplit
  · rintro rfl
    exact hrun
  · rw [x.serve_of_splitsInto hs hsplit, List.flatMap_def]

end QueryRelay
