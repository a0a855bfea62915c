import QueryRelay.Proofs.Remote.Transparency

/-!
# Streams that are called off

A stream from the other side is polled again and again up to its end, and at some point it may be
called off, once and for all. Main statement: until then the polls give the elements that the other
side sent, in order and without loss, then at most one fault, and then the end; from then on, if the
end was not given before, they give one cancellation after the other without ever ending, even after
a fault.
-/

namespace QueryRelay.RemoteClient

variable {c : RemoteClient} {s : RemoteStream} {results : List (Except Error Value)}

/-- Polls of a stream up to its end, each under the signal as it stands when the poll gives its
result. -/
def pollEach (c : RemoteClient) : List Signal → RemoteStream → List (Poll Value)
  | [], _ => []
  | signal :: rest, s =>
    match c.poll signal s with
    | (.item r, t) => .item r :: pollEach c rest t
    | (.ended, _) => [.ended]

/-- A stream that is not closed gives one cancellation after the other once it is called off. -/
theorem pollEach_cancelled (hopen : s ≠ .closed) (m : Nat) :
    c.pollEach (List.replicate m Signal.clear.cancel) s =
      List.replicate m (.item (.error .cancelled)) := by
  induction m generalizing s with
  | zero => rfl
  | succ m ih =>
    -- The poll looks at the signal before it looks at the state.
    have hpoll : c.poll Signal.clear.cancel s = (.item (.error .cancelled), .failed) := by
      cases s with
      | closed => exact absurd rfl hopen
      | _ => rfl
    rw [List.replicate_succ, List.replicate_succ, pollEach, hpoll]
    exact congrArg (_ :: ·) (ih nofun)

/-- The polls of a stream that is called off after some of them, by the results that it gives. -/
theorem Gives.pollEach (h : c.Gives s results) (hopen : s ≠ .closed) (n m : Nat) :
    c.pollEach (List.replicate n .clear ++ List.replicate m Signal.clear.cancel) s =
      if n ≤ results.length then
        (results.take n).map .item ++ List.replicate m (.item (.error .cancelled))
      else results.map .item ++ [.ended] := by
  induction n generalizing s results with
  | zero =>
    rw [if_pos (Nat.zero_le _)]
    exact pollEach_cancelled hopen m
  | succ n ih =>
    rw [List.replicate_succ, List.cons_append, RemoteClient.pollEach, poll_clear]
    cases h with
    | ended h =>
      have hover : ¬ n + 1 ≤ ([] : List (Except Error Value)).length := Nat.not_succ_le_zero n
      rw [h, if_neg hover]
      rfl
    | @item _ t r results h hrestOpen hrest =>
      have hiff : n + 1 ≤ (r :: results).length ↔ n ≤ results.length := Nat.succ_le_succ_iff
      rw [h]
      simp only [ih hrest hrestOpen, hiff]
      split <;> rfl

/-- Whatever frames the other side sends for a stream, in whatever pieces they arrive, and after
however many polls it is called off: until then the polls give the elements that the frames hold, in
order and without loss, then at most one fault, and then the end. If the end is not among them, they
give a cancellation each from then on. -/
theorem pollEach_waiting {plan : Plan} {bytes : List UInt8} {limits : List Nat}
    {frames : List Frame} {fault : Option FrameFault}
    (hsend : c.send ⟨.stream, plan⟩ = .ok ⟨bytes, limits.map .upTo⟩)
    (hsplit : Frame.SplitsInto c.codec.maxLength bytes frames fault) (n m : Nat) :
    let results := c.codec.results frames fault
    StopAtFault results ∧
      c.pollEach (List.replicate n .clear ++ List.replicate m Signal.clear.cancel)
          (.waiting plan) =
        if n ≤ results.length then
          (results.take n).map .item ++ List.replicate m (.item (.error .cancelled))
        else results.map .item ++ [.ended] := by
  intro results
  have hs := (ByteSource.isSteady_upTo bytes limits).serves .awaiting
  have hgives : c.Gives (.waiting plan) results := .waiting hsend (gives_reading hs hsplit)
  exact ⟨c.codec.stopAtFault_results frames fault, hgives.pollEach nofun n m⟩

/-- A client of a side that sends these frames whatever it is asked, the first bytes one by one. -/
def hearing (frames : List Frame) : RemoteClient :=
  ⟨fun _ => .ok ⟨frames.flatMap Frame.encode, [1, 1, 1].map .upTo⟩, .ofFormat .binary⟩

/-- Short frames are all that a stream gives whose other side sends them. -/
theorem splitsInto_hearing {frames : List Frame} (h : ∀ f ∈ frames, f.payload.length ≤ 100) :
    Frame.SplitsInto (Codec.ofFormat .binary).maxLength (frames.flatMap Frame.encode) frames
      none := by
  refine Frame.splitsInto_flatMap fun f hf => ⟨Nat.lt_of_le_of_lt (h f hf) (by decide), ?_⟩
  exact Nat.le_trans (h f hf) (by decide)

/-- A stream of one element that is called off after the element gives cancellations, and one that
is called off after the end has ended. -/
theorem oneElement_pollEach_waiting :
    let c := Codec.ofFormat .binary
    let client := hearing
      [c.messageFrame .streamFrame (.item (.int 1)), c.messageFrame .streamFrame .done]
    client.pollEach [.clear, Signal.clear.cancel, Signal.clear.cancel] (.waiting .everybody) =
        [.item (.ok (.int 1)), .item (.error .cancelled), .item (.error .cancelled)] ∧
      client.pollEach [.clear, .clear, Signal.clear.cancel] (.waiting .everybody) =
        [.item (.ok (.int 1)), .ended] := by
  intro c client
  have hc : c.IsBinary := ⟨rfl, by decide⟩
  have hitems : ∀ v ∈ [Value.int 1],
      c.openFrame .streamFrame (c.messageFrame .streamFrame (.item v)) = .ok (.item v) :=
    List.forall_mem_singleton.mpr
      (hc.conveys hc (MessageType.item_carries (.int 1)) (by decide +kernel))
  have hresults := Codec.results_items hitems
    (hc.conveys hc MessageType.done_carries (by decide +kernel))
  have hshort : ∀ f ∈ [c.messageFrame .streamFrame (.item (.int 1)),
      c.messageFrame .streamFrame .done], f.payload.length ≤ 100 := by decide +kernel
  have hsplit := splitsInto_hearing hshort
  have hsend : client.send ⟨.stream, .everybody⟩ = .ok ⟨_, [1, 1, 1].map .upTo⟩ := rfl
  have hfirst := (pollEach_waiting hsend hsplit 1 2).2
  have hsecond := (pollEach_waiting hsend hsplit 2 1).2
  change client.codec.results [c.messageFrame .streamFrame (.item (.int 1)),
    c.messageFrame .streamFrame .done] none = _ at hresults
  rw [hresults] at hfirst hsecond
  exact ⟨hfirst, hsecond⟩

/-- Polls as of a stream that ends after its first fault: elements, then at most one fault and then
the end, or some of these from the first on. -/
def EndAtFault (polls : List (Poll Value)) : Prop :=
  ∃ results, StopAtFault results ∧ polls <+: results.map .item ++ [.ended]

/-- Nothing but the end follows a fault. -/
theorem not_endAtFault {e : Error} {r : Except Error Value} {rest : List (Poll Value)} :
    ¬ EndAtFault (.item (.error e) :: .item r :: rest) := by
  rintro ⟨results, ⟨values, failure, rfl⟩, hprefix⟩
  cases values with
  | cons v values => cases (List.cons_prefix_cons.mp hprefix).1
  | nil =>
    cases failure with
    | none => cases (List.cons_prefix_cons.mp hprefix).1
    | some e' => cases (List.cons_prefix_cons.mp (List.cons_prefix_cons.mp hprefix).2).1

/-- Some streams do not end after their first fault: one that was called off before it is polled,
and one that is called off after a report of the other side. -/
theorem calledOff_not_endAtFault :
    let report := (Codec.ofFormat .binary).errorFrame (.io "disk full")
    ¬ EndAtFault ((hearing []).pollEach [Signal.clear.cancel, Signal.clear.cancel]
        (.waiting .everybody)) ∧
      ¬ EndAtFault ((hearing [report]).pollEach [.clear, Signal.clear.cancel]
        (.waiting .everybody)) := by
  intro report
  have hc : (Codec.ofFormat .binary).IsBinary := ⟨rfl, by decide⟩
  have htwice := pollEach_cancelled (c := hearing []) (s := .waiting .everybody) nofun 2
  have hresults : (hearing [report]).codec.results [report] none = _ := Codec.results_singleton
    (hc.conveysErrors hc (.io "disk full") .streamFrame (by decide +kernel))
  have hshort : ∀ f ∈ [report], f.payload.length ≤ 100 := by decide +kernel
  have hsplit := splitsInto_hearing hshort
  have hgives : (hearing [report]).Gives (.waiting .everybody) _ :=
    .waiting rfl (gives_reading ((ByteSource.isSteady_upTo _ [1, 1, 1]).serves .awaiting) hsplit)
  rw [hresults] at hgives
  have hafter := hgives.pollEach nofun 1 1
  constructor
  · exact fun h => not_endAtFault (htwice ▸ h)
  · exact fun h => not_endAtFault (hafter ▸ h)

end QueryRelay.RemoteClient
