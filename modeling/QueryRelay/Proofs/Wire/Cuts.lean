import QueryRelay.Proofs.Wire.Framing

/-!
# Frames before a cut

The bytes of frames in a row are cut off somewhere and arrive in pieces of any size. A reader that
no interruption stops gets the frames that lie wholly before the cut, and the cut shows only then:
between two frames as the end, within a frame as a fault of the connection. A buffer that holds the
unread bytes gives up the same frames. Main statement: this holds of both readers, of every cut and
of all ways in which the reads give the bytes.
-/

namespace QueryRelay

open Payload (wordSpace)

namespace Frame

/-- The frames that lie wholly before a cut through their bytes. -/
def before : Nat → List Frame → List Frame
  | _, [] => []
  | cut, f :: rest =>
    if f.encode.length ≤ cut then f :: before (cut - f.encode.length) rest else []

/-- A cut lies between two frames, or at one of the ends. -/
def IsBoundary (cut : Nat) (frames : List Frame) : Prop :=
  ∃ front, front <+: frames ∧ (front.flatMap encode).length = cut

variable {f : Frame} {frames : List Frame} {cut : Nat}

/-- A frame takes at least the nine bytes of its header. -/
theorem nine_le_length_encode (f : Frame) : 9 ≤ f.encode.length := by
  have hlength := length_encode f
  rw [headerLength] at hlength
  omega

/-- Frames before a cut behind the first frame are the first and those of the others before the
rest of the cut. -/
theorem before_cons (h : f.encode.length ≤ cut) :
    before cut (f :: frames) = f :: before (cut - f.encode.length) frames := if_pos h

/-- Bytes before a cut behind the first frame are those of the first and those of the others before
the rest of the cut. -/
theorem take_flatMap_cons (h : f.encode.length ≤ cut) :
    ((f :: frames).flatMap encode).take cut =
      f.encode ++ (frames.flatMap encode).take (cut - f.encode.length) := by
  rw [List.flatMap_cons, List.take_append, List.take_of_length_le h]

/-- A cut behind the first frame lies between two frames when the rest of the cut does so among the
others. -/
theorem isBoundary_cons (h : f.encode.length ≤ cut) :
    IsBoundary cut (f :: frames) ↔ IsBoundary (cut - f.encode.length) frames := by
  have hnine := nine_le_length_encode f
  constructor
  · rintro ⟨front, hprefix, hlength⟩
    cases front with
    | nil =>
      rw [List.flatMap_nil, List.length_nil] at hlength
      omega
    | cons g front =>
      obtain ⟨rfl, hrest⟩ := List.cons_prefix_cons.mp hprefix
      rw [List.flatMap_cons, List.length_append] at hlength
      exact ⟨front, hrest, by omega⟩
  · rintro ⟨front, hprefix, hlength⟩
    refine ⟨f :: front, List.cons_prefix_cons.mpr ⟨rfl, hprefix⟩, ?_⟩
    rw [List.flatMap_cons, List.length_append, hlength]
    omega

/-- A cut within the first frame lies between no frames. -/
theorem not_isBoundary_cons (hpos : 0 < cut) (h : cut < f.encode.length) :
    ¬ IsBoundary cut (f :: frames) := by
  rintro ⟨front, hprefix, hlength⟩
  cases front with
  | nil =>
    rw [List.flatMap_nil, List.length_nil] at hlength
    omega
  | cons g front =>
    obtain ⟨rfl, -⟩ := List.cons_prefix_cons.mp hprefix
    rw [List.flatMap_cons, List.length_append] at hlength
    omega

/-! ## Buffers -/

/-- The payload of a frame that has an address for each byte is no longer than a length can tell. -/
theorem length_payload_lt (h : f.encode.length < addressSpace) :
    f.payload.length < wordSpace := by
  have hspace : addressSpace = wordSpace := rfl
  have hlength := length_encode f
  omega

/-- A buffer that is too short for a header gives up nothing yet. -/
theorem decode_short {bytes : List UInt8} (h : bytes.length < headerLength) :
    decode bytes = .ok none := by
  rw [decode, if_pos h]
  rfl

/-- A buffer with a header is not too short for one. -/
theorem not_short_header (kind : FrameKind) (length : Nat) (rest : List UInt8) :
    ¬ (header kind length ++ rest).length < headerLength := by
  rw [List.length_append, length_header]
  omega

/-- The header in front of a buffer is read. -/
theorem readHeader_take (kind : FrameKind) {length : Nat} (hword : length < wordSpace)
    (rest : List UInt8) :
    readHeader ((header kind length ++ rest).take headerLength) = .ok ⟨length, kind⟩ := by
  rw [List.take_left' (length_header kind length)]
  exact readHeader_header kind hword

/-- Behind a header the payload is given up when it is there, if its end has an address. -/
theorem decode_header (kind : FrameKind) {length : Nat} (hword : length < wordSpace)
    (rest : List UInt8) :
    decode (header kind length ++ rest) =
      if addressSpace ≤ headerLength + length then .error .addressOverflow
      else if rest.length < length then .ok none
      else .ok (some ⟨⟨kind, rest.take length⟩, headerLength + length⟩) := by
  have hheader := length_header kind length
  rw [decode, if_neg (not_short_header kind length rest), readHeader_take kind hword,
    List.drop_left' hheader, List.length_append, hheader]
  simp only [bind, Except.bind, pure, Except.pure, ge_iff_le, Nat.add_lt_add_iff_left]

/-- A frame in front of a buffer is given up whole, with the number of its bytes. -/
theorem decode_encode_append (h : f.encode.length < addressSpace) (rest : List UInt8) :
    decode (f.encode ++ rest) = .ok (some ⟨f, f.encode.length⟩) := by
  have hlength := length_encode f
  have hwhole : ¬ (f.payload ++ rest).length < f.payload.length := by
    rw [List.length_append]
    omega
  rw [encode, List.append_assoc, decode_header f.kind (length_payload_lt h), if_neg (by omega),
    if_neg hwhole, List.take_left' rfl, ← encode, hlength]

/-- A buffer that holds a part of a frame gives up nothing yet. -/
theorem decode_take_encode (h : f.encode.length < addressSpace) (hcut : cut < f.encode.length) :
    decode (f.encode.take cut) = .ok none := by
  have hlength := length_encode f
  have hheader := length_header f.kind f.payload.length
  by_cases hshort : cut < headerLength
  · exact decode_short (Nat.lt_of_le_of_lt (List.length_take_le cut _) hshort)
  · have hpart : (f.payload.take (cut - headerLength)).length < f.payload.length := by
      rw [List.length_take]
      omega
    rw [encode, List.take_append, hheader, List.take_of_length_le (by omega),
      decode_header f.kind (length_payload_lt h), if_neg (by omega), if_pos hpart]

end Frame

namespace Codec

open QueryRelay.Frame (IsBoundary before addressSpace)

variable {c : Codec} {reader : Reader} {s t : ByteSource} {frames : List Frame} {cut : Nat}

/-! ## Readers -/

/-- A part of a frame is a fault of the connection. -/
theorem readFrame_take (hs : s.Serves reader) {f : Frame} (hbytes : s.bytes = f.encode.take cut)
    (hpos : 0 < cut) (hcut : cut < f.encode.length) (hlength : f.payload.length ≤ c.maxLength)
    (hword : f.payload.length < wordSpace) :
    ∃ fault, c.readFrame reader s = .error (.framing fault) := by
  have hencode := f.length_encode
  have hsize : s.bytes.length = cut := by rw [hbytes, List.length_take_of_le (by omega)]
  by_cases hshort : cut < Frame.headerLength
  · have hsome : s.bytes ≠ [] := List.length_pos_iff.mp (by omega)
    exact ⟨_, readFrame_short hs hsome (by omega)⟩
  · have hheader := Frame.length_header f.kind f.payload.length
    have hparts : s.bytes = Frame.header f.kind f.payload.length ++
        f.payload.take (cut - Frame.headerLength) := by
      rw [hbytes, Frame.encode, List.take_append, hheader, List.take_of_length_le (by omega)]
    have hpayload : ((f.payload.take (cut - Frame.headerLength)).take f.payload.length).length <
        f.payload.length := by
      rw [List.length_take, List.length_take]
      omega
    obtain ⟨t, -, -, hread⟩ := readFrame_header (c := c) hs hparts hword
    rw [if_neg (by omega), if_pos hpayload] at hread
    exact ⟨_, hread⟩

/-- Frames read one after the other, and what is left of the source behind them. -/
inductive Reads (c : Codec) (reader : Reader) : ByteSource → List Frame → ByteSource → Prop
  /-- Nothing is read yet. -/
  | nil (s : ByteSource) : Reads c reader s [] s
  /-- One frame is read, and others after it. -/
  | cons {s t u : ByteSource} {f : Frame} {frames : List Frame}
      (h : c.readFrame reader s = .ok (some f, t)) (hrest : Reads c reader t frames u) :
      Reads c reader s (f :: frames) u

/-- The next frame that a reader gets, if it gets one. -/
def next? (c : Codec) (reader : Reader) (s : ByteSource) : Option Frame :=
  match c.readFrame reader s with
  | .ok (next, _) => next
  | .error _ => none

/-- A reader and a buffer with the unread bytes give the same next frame, the buffer with the number
of its bytes, or both give none. -/
def DecodesAlike (c : Codec) (reader : Reader) (s : ByteSource) : Prop :=
  Frame.decode s.bytes = .ok ((c.next? reader s).map fun f => ⟨f, f.encode.length⟩)

/-- What reading comes to at a cut: the end between two frames, and a fault of the connection within
a frame. -/
def EndsAt (c : Codec) (reader : Reader) (t : ByteSource) (isBoundary : Prop) : Prop :=
  (isBoundary → ∃ u, c.readFrame reader t = .ok (none, u)) ∧
    (¬ isBoundary → ∃ fault, c.readFrame reader t = .error (.framing fault))

/-- Where a reader gets no frame and a buffer gives up nothing, nothing is read. -/
theorem decodesAlike_of_none (hnext : c.next? reader s = none)
    (hdecode : Frame.decode s.bytes = .ok none) {front : List Frame} {u : ByteSource}
    (h : c.Reads reader s front u) : c.DecodesAlike reader u := by
  cases h with
  | nil =>
    rw [DecodesAlike, hnext, Option.map_none]
    exact hdecode
  | cons hread =>
    rw [next?, hread] at hnext
    cases hnext

/-- At the end of the bytes reading ends, and a buffer gives up nothing. -/
theorem reads_nil (hs : s.Serves reader) (hbytes : s.bytes = []) {isBoundary : Prop}
    (hboundary : isBoundary) : c.EndsAt reader s isBoundary ∧
      ∀ front u, c.Reads reader s front u → c.DecodesAlike reader u := by
  obtain ⟨u, hread⟩ := readFrame_nil (c := c) hs hbytes
  have hnext : c.next? reader s = none := by rw [next?, hread]
  have hdecode : Frame.decode s.bytes = .ok none := by
    rw [hbytes]
    rfl
  exact ⟨⟨fun _ => ⟨u, hread⟩, fun h => absurd hboundary h⟩,
    fun _ _ => decodesAlike_of_none hnext hdecode⟩

/-- Within a frame reading ends with a fault, and a buffer gives up nothing. -/
theorem reads_take (hs : s.Serves reader) {f : Frame} (hbytes : s.bytes = f.encode.take cut)
    (hpos : 0 < cut) (hcut : cut < f.encode.length) (hlength : f.payload.length ≤ c.maxLength)
    (haddress : f.encode.length < addressSpace) {isBoundary : Prop} (hboundary : ¬ isBoundary) :
    c.EndsAt reader s isBoundary ∧
      ∀ front u, c.Reads reader s front u → c.DecodesAlike reader u := by
  obtain ⟨fault, hread⟩ :=
    readFrame_take hs hbytes hpos hcut hlength (Frame.length_payload_lt haddress)
  have hnext : c.next? reader s = none := by rw [next?, hread]
  have hdecode : Frame.decode s.bytes = .ok none := by
    rw [hbytes]
    exact Frame.decode_take_encode haddress hcut
  exact ⟨⟨fun h => absurd h hboundary, fun _ => ⟨fault, hread⟩⟩,
    fun _ _ => decodesAlike_of_none hnext hdecode⟩

/-- A frame in front of the bytes is read, a buffer gives it up, and what follows goes on as the
rest of the bytes does. -/
theorem reads_cons (hs : s.Serves reader) {f : Frame} {rest : List UInt8}
    (hbytes : s.bytes = f.encode ++ rest) (hlength : f.payload.length ≤ c.maxLength)
    (haddress : f.encode.length < addressSpace) :
    ∃ t : ByteSource, t.Serves reader ∧ t.bytes = rest ∧ c.readFrame reader s = .ok (some f, t) ∧
      ((∀ front u, c.Reads reader t front u → c.DecodesAlike reader u) →
        ∀ front u, c.Reads reader s front u → c.DecodesAlike reader u) := by
  obtain ⟨t, ht, htbytes, hread⟩ :=
    readFrame_encode hs hbytes hlength (Frame.length_payload_lt haddress)
  refine ⟨t, ht, htbytes, hread, fun halike front u h => ?_⟩
  cases h with
  | nil =>
    have hnext : c.next? reader s = some f := by rw [next?, hread]
    rw [DecodesAlike, hnext, hbytes]
    exact Frame.decode_encode_append haddress rest
  | cons hother hrest =>
    rw [hread] at hother
    cases hother
    exact halike _ _ hrest

/-- The bytes of frames up to a cut are read as the frames that lie wholly before the cut, whatever
pieces the reads give and, for a reader that tries again, however often they are interrupted. Then
the reader comes to the end if the cut lies between two frames, and to a fault of the connection if
not. At each step a buffer with the unread bytes gives up the frame that the reader gets next, with
the number of its bytes, or nothing if it gets none. -/
theorem reads_before_cut (hs : s.Serves reader)
    (hcut : cut ≤ (frames.flatMap Frame.encode).length)
    (hbytes : s.bytes = (frames.flatMap Frame.encode).take cut)
    (hlength : ∀ f ∈ frames, f.payload.length ≤ c.maxLength)
    (haddress : ∀ f ∈ frames, f.encode.length < addressSpace) :
    ∃ t, c.Reads reader s (before cut frames) t ∧ c.EndsAt reader t (IsBoundary cut frames) ∧
      ∀ front u, c.Reads reader s front u → c.DecodesAlike reader u := by
  induction frames generalizing cut s with
  | nil =>
    have hzero : cut = 0 := Nat.le_zero.mp hcut
    have hboundary : IsBoundary cut [] := ⟨[], List.prefix_refl [], hzero.symm⟩
    rw [List.flatMap_nil, List.take_nil] at hbytes
    exact ⟨s, .nil s, reads_nil hs hbytes hboundary⟩
  | cons f rest ih =>
    obtain ⟨hf, hrest⟩ := List.forall_mem_cons.mp hlength
    obtain ⟨hfaddress, hrestaddress⟩ := List.forall_mem_cons.mp haddress
    -- The first frame is read as a whole, or the cut is in it and nothing is read.
    by_cases hwhole : f.encode.length ≤ cut
    · rw [List.flatMap_cons, List.length_append] at hcut
      rw [Frame.take_flatMap_cons hwhole] at hbytes
      obtain ⟨t, ht, htbytes, hread, halike⟩ := reads_cons hs hbytes hf hfaddress
      obtain ⟨u, hreads, hends, halikeRest⟩ := ih ht (by omega) htbytes hrest hrestaddress
      rw [Frame.before_cons hwhole, Frame.isBoundary_cons hwhole]
      exact ⟨u, .cons hread hreads, hends, halike halikeRest⟩
    · have hnone : before cut (f :: rest) = [] := if_neg hwhole
      have hpart : s.bytes = f.encode.take cut := by
        rw [hbytes, List.flatMap_cons, List.take_append_of_le_length (by omega)]
      rw [hnone]
      by_cases hzero : cut = 0
      · have hboundary : IsBoundary cut (f :: rest) := ⟨[], List.nil_prefix, hzero.symm⟩
        rw [hzero, List.take_zero] at hpart
        exact ⟨s, .nil s, reads_nil hs hpart hboundary⟩
      · have hboundary : ¬ IsBoundary cut (f :: rest) :=
          Frame.not_isBoundary_cons (Nat.pos_of_ne_zero hzero) (Nat.lt_of_not_le hwhole)
        exact ⟨s, .nil s, reads_take hs hpart (Nat.pos_of_ne_zero hzero)
          (Nat.lt_of_not_le hwhole) hf hfaddress hboundary⟩

/-- Two frames of which the second is cut off: interrupted twice, a reader that tries again gets the
first and then a fault. Cut off behind the first they come to an end there, whatever the pieces. -/
theorem twoFrames_reads_before_cut :
    let frames : List Frame := [⟨.message, [7, 8]⟩, ⟨.error, [9]⟩]
    let bytes := frames.flatMap Frame.encode
    let c := Codec.ofFormat .binary
    (∃ t, c.Reads .blocking ⟨bytes.take 15, [.interrupted, .upTo 3, .interrupted, .upTo 20]⟩
        [⟨.message, [7, 8]⟩] t ∧
      ∃ fault, c.readFrame .blocking t = .error (.framing fault)) ∧
    ∃ t, c.Reads .awaiting ⟨bytes.take 11, [.upTo 1, .upTo 9, .upTo 0]⟩ [⟨.message, [7, 8]⟩] t ∧
      ∃ u, c.readFrame .awaiting t = .ok (none, u) := by
  intro frames bytes c
  have hlength : ∀ f ∈ frames, f.payload.length ≤ c.maxLength := by decide
  have haddress : ∀ f ∈ frames, f.encode.length < addressSpace := by decide
  have hinside : ¬ IsBoundary 15 frames := fun h =>
    Frame.not_isBoundary_cons (by decide) (by decide) ((Frame.isBoundary_cons (by decide)).mp h)
  have hbehind : IsBoundary 11 frames := ⟨[⟨.message, [7, 8]⟩], ⟨[⟨.error, [9]⟩], rfl⟩, rfl⟩
  have hsteady : ByteSource.IsSteady ⟨bytes.take 11, [.upTo 1, .upTo 9, .upTo 0]⟩ :=
    ByteSource.isSteady_upTo (bytes.take 11) [1, 9, 0]
  have hserves : ByteSource.Serves
      ⟨bytes.take 15, [.interrupted, .upTo 3, .interrupted, .upTo 20]⟩ .blocking := nofun
  have hfifteen : 15 ≤ (frames.flatMap Frame.encode).length := by decide
  have heleven : 11 ≤ (frames.flatMap Frame.encode).length := by decide
  obtain ⟨t, ht, htend, -⟩ :=
    reads_before_cut (c := c) hserves hfifteen rfl hlength haddress
  obtain ⟨u, hu, huend, -⟩ :=
    reads_before_cut (c := c) (hsteady.serves .awaiting) heleven rfl hlength haddress
  exact ⟨⟨t, ht, htend.2 hinside⟩, u, hu, huend.1 hbehind⟩

end Codec
end QueryRelay
