import QueryRelay.Proofs.Outcome
import QueryRelay.Proofs.Payload.Messages
import QueryRelay.Wire.Codec

/-!
# Frames from bytes in pieces

Reads give the same bytes however they cut them, when no interruption stops them: there is none, or
the reader tries again. So a frame in front of the bytes is read whole, and what follows it is left
for the next.
-/

namespace QueryRelay

namespace ByteSource

/-- No read of the source is interrupted. -/
def IsSteady (s : ByteSource) : Prop := .interrupted ∉ s.schedule

/-- Reads of at most so many bytes each are not interrupted. -/
theorem isSteady_upTo (bytes : List UInt8) (limits : List Nat) :
    IsSteady ⟨bytes, limits.map .upTo⟩ := by
  intro h
  obtain ⟨n, -, hn⟩ := List.mem_map.mp h
  cases hn

/-- No interruption stops a reader: it tries again, or no read is interrupted. -/
def Serves (s : ByteSource) (reader : Reader) : Prop := reader = .awaiting → s.IsSteady

variable {s : ByteSource} {reader : Reader}

/-- Reads that are not interrupted stop no reader. -/
theorem IsSteady.serves (hs : s.IsSteady) (reader : Reader) : s.Serves reader := fun _ => hs

/-- A read gives some of the first bytes, at least one where it may, and leaves the others; or it is
interrupted, and the reader tries again. -/
theorem Serves.read (hs : s.Serves reader) (limit : Nat) (hlimit : 0 < limit) :
    (∃ count rest, 0 < count ∧ count ≤ limit ∧ rest.length ≤ s.schedule.length ∧
        s.read limit = (.given (s.bytes.take count), ⟨s.bytes.drop count, rest⟩) ∧
          Serves ⟨s.bytes.drop count, rest⟩ reader) ∨
      ∃ rest, reader = .blocking ∧ s.schedule.length = rest.length + 1 ∧
        s.read limit = (.interrupted, ⟨s.bytes, rest⟩) := by
  obtain ⟨bytes, schedule⟩ := s
  cases schedule with
  | nil =>
    have hsteady : IsSteady ⟨bytes.drop limit, []⟩ := List.not_mem_nil
    exact .inl ⟨limit, [], hlimit, Nat.le_refl limit, Nat.le_refl 0, rfl, hsteady.serves reader⟩
  | cons event rest =>
    cases event with
    | upTo n =>
      have hcount : 0 < min limit (max n 1) := by omega
      have hle : min limit (max n 1) ≤ limit := by omega
      exact .inl ⟨min limit (max n 1), rest, hcount, hle, Nat.le_succ _, rfl,
        fun hreader h => hs hreader (.tail _ h)⟩
    | interrupted =>
      cases reader with
      | blocking => exact .inr ⟨rest, rfl, rfl, rfl⟩
      | awaiting => exact absurd (.head rest) (hs rfl)

/-- The first bytes are some first ones of them and the first of those that are left. -/
theorem take_append_take_drop (bytes : List UInt8) {count wanted : Nat} (h : count ≤ wanted) :
    bytes.take count ++ (bytes.drop count).take (wanted - (bytes.take count).length) =
      bytes.take wanted := by
  have htake : (bytes.take count).take wanted = bytes.take count := by
    rw [List.take_take, Nat.min_eq_right h]
  calc bytes.take count ++ (bytes.drop count).take (wanted - (bytes.take count).length)
      = (bytes.take count ++ bytes.drop count).take wanted := by rw [List.take_append, htake]
    _ = bytes.take wanted := by rw [List.take_append_drop]

/-- The first bytes may be dropped in two steps. -/
theorem drop_drop_take (bytes : List UInt8) {count wanted : Nat} (h : count ≤ wanted) :
    (bytes.drop count).drop (wanted - (bytes.take count).length) = bytes.drop wanted := by
  have hdrop : (bytes.take count).drop wanted = [] :=
    List.drop_eq_nil_of_le (Nat.le_trans (List.length_take_le count bytes) h)
  calc (bytes.drop count).drop (wanted - (bytes.take count).length)
      = (bytes.take count ++ bytes.drop count).drop wanted := by
        rw [List.drop_append, hdrop, List.nil_append]
    _ = bytes.drop wanted := by rw [List.take_append_drop]

/-- However the reads cut the bytes, filling a buffer gives the first of them and leaves the
others. -/
theorem Serves.fillWithin (hs : s.Serves reader) (wanted : Nat) {fuel : Nat}
    (hfuel : s.bytes.length + s.schedule.length < fuel) :
    ∃ t : ByteSource, t.Serves reader ∧ t.bytes = s.bytes.drop wanted ∧
      ByteSource.fillWithin reader fuel wanted s = .ok (s.bytes.take wanted, t) := by
  induction fuel generalizing s wanted with
  | zero => omega
  | succ fuel ih =>
    rw [ByteSource.fillWithin]
    by_cases hwanted : wanted = 0
    · subst hwanted
      exact ⟨s, hs, rfl, if_pos rfl⟩
    · have hlimit : 0 < min wanted window := by
        rw [window]
        omega
      rw [if_neg hwanted]
      rcases hs.read _ hlimit with ⟨count, rest, hpos, hle, hlength, hread, hrest⟩ | hinterrupted
      · have hcount : count ≤ wanted := by omega
        rw [hread]
        have htake := take_append_take_drop s.bytes hcount
        have hdrop := drop_drop_take s.bytes hcount
        cases hgiven : s.bytes.take count with
        | nil =>
          -- A read that gives nothing has come to the end.
          have hbytes : s.bytes = [] := by
            rcases List.take_eq_nil_iff.mp hgiven with h | h
            · omega
            · exact h
          refine ⟨⟨s.bytes.drop count, rest⟩, hrest, ?_, ?_⟩
          · simp only [hbytes, List.drop_nil]
          · rw [hbytes, List.take_nil]
        | cons b front =>
          rw [hgiven] at htake hdrop
          have hsome := congrArg List.length hgiven
          rw [List.length_take, List.length_cons] at hsome
          have hleft : (s.bytes.drop count).length + rest.length < fuel := by
            rw [List.length_drop]
            omega
          obtain ⟨t, ht, hbytes, hfill⟩ :=
            ih (s := ⟨s.bytes.drop count, rest⟩) hrest (wanted - (b :: front).length) hleft
          refine ⟨t, ht, hbytes.trans hdrop, ?_⟩
          dsimp only
          rw [hfill, ← htake]
          rfl
      · obtain ⟨rest, rfl, hlength, hread⟩ := hinterrupted
        have hleft : s.bytes.length + rest.length < fuel := by omega
        rw [hread]
        exact ih (s := ⟨s.bytes, rest⟩) nofun wanted hleft

/-- However the reads cut the bytes, a buffer is filled with the first of them. -/
theorem Serves.fill (hs : s.Serves reader) (wanted : Nat) :
    ∃ t : ByteSource, t.Serves reader ∧ t.bytes = s.bytes.drop wanted ∧
      ByteSource.fill reader wanted s = .ok (s.bytes.take wanted, t) :=
  hs.fillWithin wanted (Nat.lt_succ_self _)

end ByteSource

namespace Frame

/-- A header has nine bytes. -/
theorem length_header (kind : FrameKind) (length : Nat) :
    (header kind length).length = headerLength := by
  rw [header, List.length_append, Bytes.length_ofNat]
  rfl

/-- The kind of a frame is read back from its byte. -/
theorem ofFlag_flag (kind : FrameKind) : FrameKind.ofFlag kind.flag = .ok kind := by
  cases kind <;> rfl

/-- A header is read back when the length fits eight bytes. -/
theorem readHeader_header (kind : FrameKind) {length : Nat} (h : length < Payload.wordSpace) :
    readHeader (header kind length) = .ok ⟨length, kind⟩ := by
  have hlength := Bytes.length_ofNat 8 length
  have hflag : (header kind length)[8]?.getD 0 = kind.flag := by
    rw [header, List.getElem?_append_right (by omega), hlength]
    rfl
  have htake : (header kind length).take 8 = Bytes.ofNat 8 length := by
    rw [header, List.take_append_of_le_length (by omega), List.take_of_length_le (by omega)]
  rw [readHeader, hflag, ofFlag_flag, htake, Bytes.toNat_ofNat 8 length h]
  rfl

/-- The first nine bytes are eight and that of the kind. -/
theorem take_headerLength {length : List UInt8} (hlength : length.length = 8) (flag : UInt8)
    (rest : List UInt8) : (length ++ flag :: rest).take headerLength = length ++ [flag] := by
  rw [headerLength, List.take_append, List.take_of_length_le (by omega), hlength]
  rfl

/-- Eight bytes and that of no kind are no header. -/
theorem readHeader_unknownKind {length : List UInt8} {flag : UInt8} (hlength : length.length = 8)
    (hflag : flag ≠ 0 ∧ flag ≠ 1) :
    readHeader (length ++ [flag]) = .error (.framing (.unknownKind flag.toNat)) := by
  rw [readHeader, List.getElem?_append_right (by omega), hlength]
  change (do let kind ← FrameKind.ofFlag flag; _) = _
  rw [FrameKind.ofFlag, if_neg hflag.1, if_neg hflag.2]
  rfl

/-- A frame takes its header and its payload. -/
theorem length_encode (f : Frame) : f.encode.length = headerLength + f.payload.length := by
  rw [encode, List.length_append, length_header]

end Frame

namespace Codec

open Payload (wordSpace)

variable {c : Codec} {s : ByteSource} {reader : Reader}

/-- Too few bytes for a header are a fault. -/
theorem readFrame_short (hs : s.Serves reader) (hsome : s.bytes ≠ [])
    (hshort : s.bytes.length < Frame.headerLength) : c.readFrame reader s =
      .error (.framing (.truncatedHeader s.bytes.length Frame.headerLength)) := by
  obtain ⟨t, -, -, hhead⟩ := hs.fill Frame.headerLength
  have hnonempty : s.bytes.isEmpty = false := List.isEmpty_eq_false_iff.mpr hsome
  rw [List.take_of_length_le (Nat.le_of_lt hshort)] at hhead
  rw [readFrame, hhead]
  simp only [bind, Except.bind, hnonempty, Bool.false_eq_true, if_false, hshort, if_true]

/-- Behind a header the payload is read, if it is not too long. -/
theorem readFrame_header (hs : s.Serves reader) {kind : FrameKind} {length : Nat}
    {rest : List UInt8} (hbytes : s.bytes = Frame.header kind length ++ rest)
    (hword : length < wordSpace) :
    ∃ t : ByteSource, t.Serves reader ∧ t.bytes = rest.drop length ∧ c.readFrame reader s =
      if c.maxLength < length then .error (.framing (.overLimit length c.maxLength))
      else if (rest.take length).length < length then
        .error (.framing (.truncatedPayload (rest.take length).length length))
      else .ok (some ⟨kind, rest.take length⟩, t) := by
  have hheader := Frame.length_header kind length
  obtain ⟨t, ht, htbytes, hhead⟩ := hs.fill Frame.headerLength
  obtain ⟨u, hu, hubytes, hpayload⟩ := ht.fill length
  rw [hbytes, List.take_left' hheader] at hhead
  rw [hbytes, List.drop_left' hheader] at htbytes
  rw [htbytes] at hpayload hubytes
  have hnonempty : (Frame.header kind length).isEmpty = false := by
    rw [List.isEmpty_eq_false_iff, ← List.length_pos_iff, hheader]
    decide
  refine ⟨u, hu, hubytes, ?_⟩
  rw [readFrame, hhead]
  simp only [bind, Except.bind, hnonempty, Bool.false_eq_true, if_false, hheader, Nat.lt_irrefl,
    Frame.readHeader_header kind hword, hpayload]
  rfl

/-- A frame in front of the bytes is read whole, however the reads cut them. -/
theorem readFrame_encode (hs : s.Serves reader) {f : Frame} {rest : List UInt8}
    (hbytes : s.bytes = f.encode ++ rest) (hlength : f.payload.length ≤ c.maxLength)
    (hword : f.payload.length < wordSpace) :
    ∃ t : ByteSource, t.Serves reader ∧ t.bytes = rest ∧
      c.readFrame reader s = .ok (some f, t) := by
  rw [Frame.encode, List.append_assoc] at hbytes
  obtain ⟨t, ht, htbytes, hread⟩ := readFrame_header (c := c) hs hbytes hword
  rw [List.take_left' rfl, if_neg (Nat.not_lt.mpr hlength), if_neg (Nat.lt_irrefl _)] at hread
  rw [List.drop_left' rfl] at htbytes
  exact ⟨t, ht, htbytes, hread⟩

/-- No frame is read at the end of the bytes. -/
theorem readFrame_nil (hs : s.Serves reader) (hbytes : s.bytes = []) :
    ∃ t, c.readFrame reader s = .ok (none, t) := by
  obtain ⟨t, -, -, hhead⟩ := hs.fill Frame.headerLength
  rw [hbytes, List.take_nil] at hhead
  exact ⟨t, Outcome.bind_eq_ok.mpr ⟨([], t), hhead, rfl⟩⟩

/-! ## Messages -/

variable {α : Type} {m : MessageType α} {d : Codec}

/-- What one codec puts into a frame another takes out: the message is read back when the frame is
not too long. -/
def Conveys (c d : Codec) (m : MessageType α) (x : α) : Prop :=
  (d.messageFrame m x).payload.length ≤ c.maxLength → c.openFrame m (d.messageFrame m x) = .ok x

/-- What one codec reports another sees: it takes the error out of the frame, whatever message is
due, when the frame is not too long. -/
def ConveysErrors (c d : Codec) : Prop :=
  ∀ (e : Error) {α : Type} (m : MessageType α),
    (d.errorFrame e).payload.length ≤ c.maxLength →
      c.openFrame m (d.errorFrame e) = .error (RemoteError.ofError e).toError

/-- A codec that writes and reads the binary form, up to a length that fits eight bytes. -/
structure IsBinary (c : Codec) : Prop where
  /-- The payload format. -/
  format : c.format = .binary
  /-- The limit. -/
  limit : c.maxLength < wordSpace

/-- A message that is carried passes from one codec to another in the binary form. -/
theorem IsBinary.conveys (hc : c.IsBinary) (hd : d.IsBinary) {x : α} (h : m.Carries x) :
    c.Conveys d m x := by
  intro hlength
  rw [messageFrame, hd.format] at hlength ⊢
  rw [openFrame, hc.format]
  exact PayloadFormat.decode_encode_binary h (Nat.lt_of_le_of_lt hlength hc.limit)

/-- Reports of errors pass from one codec to another in the binary form. -/
theorem IsBinary.conveysErrors (hc : c.IsBinary) (hd : d.IsBinary) : c.ConveysErrors d := by
  intro e α m hlength
  rw [errorFrame, hd.format] at hlength ⊢
  rw [openFrame, hc.format]
  dsimp only
  rw [PayloadFormat.decode_encode_binary (MessageType.remoteError_carries _)
    (Nat.lt_of_le_of_lt hlength hc.limit)]
  rfl

/-- The message of a frame in front of the bytes is read, however the reads cut them. -/
theorem readMessage_encode (hs : s.Serves reader) (m : MessageType α) {f : Frame}
    {rest : List UInt8} (hbytes : s.bytes = f.encode ++ rest)
    (hlength : f.payload.length ≤ c.maxLength) (hlimit : c.maxLength < wordSpace) :
    ∃ t : ByteSource, t.Serves reader ∧ t.bytes = rest ∧
      c.readMessage reader m s = (c.openFrame m f).map fun x => (x, t) := by
  obtain ⟨t, ht, htbytes, hread⟩ :=
    readFrame_encode hs hbytes hlength (Nat.lt_of_le_of_lt hlength hlimit)
  refine ⟨t, ht, htbytes, ?_⟩
  rw [readMessage, hread]
  change (do return (← c.openFrame m f, t)) = _
  cases c.openFrame m f <;> rfl

end Codec
end QueryRelay
