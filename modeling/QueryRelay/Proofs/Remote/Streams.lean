import QueryRelay.Proofs.Wire.Splitting
import QueryRelay.Remote.Client

/-!
# Streams from the other side

The frames of a streamed answer hold elements in order until the end or the first fault. Main
statement: a stream that nobody calls off gives these, poll by poll, in whatever pieces the frames
arrive, and then the end.
-/

namespace QueryRelay

/-- The results of a streamed answer, by the frames that it is split into and what is wrong behind
them: elements in order until the end or the first fault, which may be that the frames are over. -/
def Codec.results (c : Codec) : List Frame → Option FrameFault → List (Except Error Value)
  | [], fault => [.error (.framing (fault.getD .closed))]
  | f :: rest, fault =>
    match c.openFrame .streamFrame f with
    | .ok (.item v) => .ok v :: c.results rest fault
    | .ok .done => []
    | .error e => [.error e]

/-- Results stop at the first fault: they are elements and then at most one fault. -/
def StopAtFault (results : List (Except Error Value)) : Prop :=
  ∃ (values : List Value) (failure : Option Error),
    results = values.map .ok ++ failure.toList.map .error

/-- The results of a streamed answer stop at the first fault. -/
theorem Codec.stopAtFault_results (c : Codec) (frames : List Frame) (fault : Option FrameFault) :
    StopAtFault (c.results frames fault) := by
  induction frames with
  | nil => exact ⟨[], some (.framing (fault.getD .closed)), rfl⟩
  | cons f rest ih =>
    rw [results]
    split
    · next v _ =>
      obtain ⟨values, failure, hrest⟩ := ih
      exact ⟨v :: values, failure, congrArg (.ok v :: ·) hrest⟩
    · exact ⟨[], none, rfl⟩
    · next e _ => exact ⟨[], some e, rfl⟩

/-- The frames of elements and of the end hold the elements, when each can be taken out. -/
theorem Codec.results_items {c d : Codec} {values : List Value}
    (hitems : ∀ v ∈ values,
      c.openFrame .streamFrame (d.messageFrame .streamFrame (.item v)) = .ok (.item v))
    (hdone : c.openFrame .streamFrame (d.messageFrame .streamFrame .done) = .ok .done) :
    c.results (values.map (fun v => d.messageFrame .streamFrame (.item v)) ++
      [d.messageFrame .streamFrame .done]) none = values.map .ok := by
  induction values with
  | nil =>
    rw [List.map_nil, List.nil_append, results, hdone]
    rfl
  | cons v values ih =>
    obtain ⟨hv, hrest⟩ := List.forall_mem_cons.mp hitems
    rw [List.map_cons, List.cons_append, results, hv]
    exact congrArg (.ok v :: ·) (ih hrest)

/-- The frame of a fault holds the fault. -/
theorem Codec.results_singleton {c : Codec} {f : Frame} {e : Error}
    (h : c.openFrame .streamFrame f = .error e) : c.results [f] none = [.error e] := by
  rw [results, h]

/-- The first polls of a stream that gives some results and has ended then. -/
def Poll.first {α : Type} (n : Nat) (results : List (Except Error α)) : List (Poll α) :=
  (results.map Poll.item ++ List.replicate n Poll.ended).take n

/-- A further poll gives the first result. -/
theorem Poll.first_cons {α : Type} (n : Nat) (r : Except Error α)
    (results : List (Except Error α)) :
    Poll.first (n + 1) (r :: results) = .item r :: Poll.first n results := by
  have hle : n ≤ (results.map Poll.item ++ List.replicate n Poll.ended).length := by
    rw [List.length_append, List.length_replicate]
    omega
  rw [first, List.map_cons, List.cons_append, List.take_succ_cons, List.replicate_succ',
    ← List.append_assoc, List.take_append_of_le_length hle, first]

/-- All polls of a stream that has ended give the end. -/
theorem Poll.first_nil {α : Type} (n : Nat) :
    Poll.first n ([] : List (Except Error α)) = List.replicate n .ended := by
  rw [first, List.map_nil, List.nil_append, List.take_replicate, Nat.min_self]

namespace RemoteClient

variable {c : RemoteClient} {s t : RemoteStream} {results : List (Except Error Value)}

/-- So many polls of a stream in a row. -/
def polls (c : RemoteClient) (signal : Signal) : Nat → RemoteStream → List (Poll Value)
  | 0, _ => []
  | n + 1, s =>
    let (p, s) := c.poll signal s
    p :: polls c signal n s

/-- A poll of a stream that nobody called off goes on with it. -/
theorem poll_clear (c : RemoteClient) (s : RemoteStream) : c.poll .clear s = c.advance s := by
  cases s <;> rfl

/-- A stream that nobody calls off gives these results, poll by poll, and then the end. -/
inductive Gives (c : RemoteClient) : RemoteStream → List (Except Error Value) → Prop
  /-- The end. -/
  | ended {s : RemoteStream} (h : c.advance s = (.ended, .closed)) : Gives c s []
  /-- A result, and the stream is not closed. -/
  | item {s t : RemoteStream} {r : Except Error Value} {results : List (Except Error Value)}
      (h : c.advance s = (.item r, t)) (hopen : t ≠ .closed) (hrest : Gives c t results) :
      Gives c s (r :: results)

/-- The polls of a stream that nobody calls off. -/
theorem Gives.polls (h : c.Gives s results) (n : Nat) :
    c.polls .clear n s = Poll.first n results := by
  induction n generalizing s results with
  | zero => rfl
  | succ n ih =>
    rw [RemoteClient.polls, poll_clear]
    cases h with
    | ended h =>
      have hrest := ih (.ended rfl : c.Gives .closed [])
      rw [Poll.first_nil] at hrest
      rw [h, Poll.first_nil, List.replicate_succ, ← hrest]
    | item h _ hrest => rw [h, Poll.first_cons, ← ih hrest]

/-- A stream that gives a fault gives the end from then on. -/
theorem gives_fault {e : Error} (h : c.advance s = (.item (.error e), .failed)) :
    c.Gives s [.error e] := by
  have hopen : RemoteStream.failed ≠ .closed := fun heq => by cases heq
  exact .item h hopen (.ended rfl)

/-- A stream of which the answer is to be read gives the results of the answer. -/
theorem gives_reading {source : ByteSource} {frames : List Frame} {fault : Option FrameFault}
    (hs : source.Serves .awaiting)
    (h : Frame.SplitsInto c.codec.maxLength source.bytes frames fault) :
    c.Gives (.reading source) (c.codec.results frames fault) := by
  induction frames generalizing source with
  | nil =>
    have hread : c.codec.readMessage .awaiting .streamFrame source =
        .error (.framing (fault.getD .closed)) := by
      rcases Codec.readFrame_splitsInto hs h with
        ⟨-, rfl, t, hread⟩ | ⟨e, -, rfl, hread⟩ | ⟨f, others, t, hcons, -⟩
      · rw [Codec.readMessage, hread]
        rfl
      · rw [Codec.readMessage, hread]
        rfl
      · cases hcons
    have hadvance : c.advance (.reading source) =
        (.item (.error (.framing (fault.getD .closed))), .failed) := by
      rw [advance, next, hread]
    exact gives_fault hadvance
  | cons f frames ih =>
    rcases Codec.readFrame_splitsInto hs h with
      ⟨hnil, -⟩ | ⟨e, hnil, -⟩ | ⟨g, others, t, hcons, ht, hrest, hread⟩
    · cases hnil
    · cases hnil
    · cases hcons
      have hmessage : c.codec.readMessage .awaiting .streamFrame source =
          (c.codec.openFrame .streamFrame f).map fun x => (x, t) := by
        rw [Codec.readMessage, hread]
        change (do return (← c.codec.openFrame .streamFrame f, t)) = _
        cases c.codec.openFrame .streamFrame f <;> rfl
      have hadvance : c.advance (.reading source) = c.next source := rfl
      rw [next, hmessage] at hadvance
      rw [Codec.results]
      split
      · next v hopen =>
        rw [hopen] at hadvance
        exact .item hadvance (fun heq => by cases heq) (ih ht hrest)
      · next hopen =>
        rw [hopen] at hadvance
        exact .ended hadvance
      · next e hopen =>
        rw [hopen] at hadvance
        exact gives_fault hadvance

/-- Once its request is sent, a stream gives the results of the answer. -/
theorem Gives.waiting {plan : Plan} {source : ByteSource}
    (hsend : c.send ⟨.stream, plan⟩ = .ok source) (h : c.Gives (.reading source) results) :
    c.Gives (.waiting plan) results := by
  have hadvance : c.advance (.waiting plan) = c.advance (.reading source) := by
    rw [advance, hsend, advance]
  cases h with
  | ended h => exact .ended (hadvance.trans h)
  | item h hopen hrest => exact .item (hadvance.trans h) hopen hrest

end RemoteClient
end QueryRelay
