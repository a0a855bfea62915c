import QueryRelay.Proofs.Wire.Framing

/-!
# Bytes split into frames

Any bytes are split from the front into frames, up to where they end or stop being frames: within a
header, within a payload, at a kind that does not exist or at a length above the limit. Main
statement: there is one such split, and a reader that no interruption stops reads the frames of the
split, whatever pieces the reads give, and then comes to the end or to the fault of the split.
-/

namespace QueryRelay

open Payload (wordSpace)

namespace Bytes

/-- Bytes stand for a natural that fits as many bytes. -/
theorem toNat_lt (bytes : List UInt8) : toNat bytes < Nat.pow 256 bytes.length := by
  induction bytes with
  | nil => decide
  | cons b rest ih =>
    have hb := b.toNat_lt
    have hpow : Nat.pow 256 (b :: rest).length = 256 * Nat.pow 256 rest.length :=
      Nat.pow_succ'
    rw [toNat, hpow]
    omega

/-- Bytes are those of the natural that they stand for. -/
theorem ofNat_toNat (bytes : List UInt8) : ofNat bytes.length (toNat bytes) = bytes := by
  induction bytes with
  | nil => rfl
  | cons b rest ih =>
    have hb := b.toNat_lt
    have hlow : UInt8.ofNat (b.toNat + 256 * toNat rest) = b := by
      rw [← UInt8.toNat_inj, UInt8.toNat_ofNat']
      omega
    have hhigh : (b.toNat + 256 * toNat rest) / 256 = toNat rest := by omega
    rw [toNat, List.length_cons, ofNat, hlow, hhigh, ih]

end Bytes

namespace Frame

/-- Bytes are split into frames with payloads up to a limit: the frames in order, and what is wrong
with the bytes behind them, unless none are left. -/
inductive SplitsInto (limit : Nat) : List UInt8 → List Frame → Option FrameFault → Prop
  /-- No bytes are left. -/
  | ended : SplitsInto limit [] [] none
  /-- The bytes end within a header. -/
  | inHeader {bytes : List UInt8} (hsome : bytes ≠ []) (hshort : bytes.length < headerLength) :
      SplitsInto limit bytes [] (some (.truncatedHeader bytes.length headerLength))
  /-- A header names a kind that does not exist. -/
  | unknownKind {length rest : List UInt8} {flag : UInt8} (hlength : length.length = 8)
      (hflag : flag ≠ 0 ∧ flag ≠ 1) :
      SplitsInto limit (length ++ flag :: rest) [] (some (.unknownKind flag.toNat))
  /-- A header gives a length above the limit. -/
  | overLimit {kind : FrameKind} {length : Nat} {rest : List UInt8} (hword : length < wordSpace)
      (hlimit : limit < length) :
      SplitsInto limit (header kind length ++ rest) [] (some (.overLimit length limit))
  /-- The bytes end within a payload. -/
  | inPayload {kind : FrameKind} {length : Nat} {rest : List UInt8} (hword : length < wordSpace)
      (hlimit : length ≤ limit) (hshort : rest.length < length) :
      SplitsInto limit (header kind length ++ rest) []
        (some (.truncatedPayload rest.length length))
  /-- A frame stands in front. -/
  | frame {f : Frame} {rest : List UInt8} {frames : List Frame} {fault : Option FrameFault}
      (hword : f.payload.length < wordSpace) (hlimit : f.payload.length ≤ limit)
      (hrest : SplitsInto limit rest frames fault) :
      SplitsInto limit (f.encode ++ rest) (f :: frames) fault

variable {limit : Nat} {bytes : List UInt8} {frames : List Frame} {fault : Option FrameFault}

/-- Nine bytes or more start with a header, or with eight bytes and that of no kind. -/
theorem exists_header (h : headerLength ≤ bytes.length) :
    (∃ kind length rest, length < wordSpace ∧ bytes = header kind length ++ rest) ∨
      ∃ (length : List UInt8) (flag : UInt8) (rest : List UInt8),
        length.length = 8 ∧ (flag ≠ 0 ∧ flag ≠ 1) ∧ bytes = length ++ flag :: rest := by
  have hnine : 8 < bytes.length := h
  obtain ⟨flag, rest, hrest⟩ : ∃ flag rest, bytes.drop 8 = flag :: rest :=
    ⟨_, _, List.drop_eq_getElem_cons hnine⟩
  have hlength : (bytes.take 8).length = 8 := List.length_take_of_le (Nat.le_of_lt hnine)
  have hbytes : bytes = bytes.take 8 ++ flag :: rest := by rw [← hrest, List.take_append_drop]
  have hword := Bytes.toNat_lt (bytes.take 8)
  have hback := Bytes.ofNat_toNat (bytes.take 8)
  rw [hlength] at hword hback
  have hheader (kind : FrameKind) (hkind : flag = kind.flag) :
      bytes = header kind (Bytes.toNat (bytes.take 8)) ++ rest := by
    rw [header, hback, List.append_assoc, List.singleton_append, ← hkind]
    exact hbytes
  by_cases hzero : flag = 0
  · exact .inl ⟨.message, _, rest, hword, hheader .message hzero⟩
  · by_cases hone : flag = 1
    · exact .inl ⟨.error, _, rest, hword, hheader .error hone⟩
    · exact .inr ⟨bytes.take 8, flag, rest, hlength, ⟨hzero, hone⟩, hbytes⟩

/-- Any bytes can be split into frames. -/
theorem exists_splitsInto (limit : Nat) (bytes : List UInt8) :
    ∃ frames fault, SplitsInto limit bytes frames fault := by
  induction hn : bytes.length using Nat.strongRecOn generalizing bytes with
  | ind n ih =>
    by_cases hempty : bytes = []
    · subst hempty
      exact ⟨[], none, .ended⟩
    by_cases hshort : bytes.length < headerLength
    · exact ⟨[], _, .inHeader hempty hshort⟩
    rcases exists_header (Nat.le_of_not_lt hshort) with
      ⟨kind, length, rest, hword, rfl⟩ | ⟨length, flag, rest, hlength, hflag, rfl⟩
    · by_cases hlimit : limit < length
      · exact ⟨[], _, .overLimit hword hlimit⟩
      by_cases hpayload : rest.length < length
      · exact ⟨[], _, .inPayload hword (Nat.le_of_not_lt hlimit) hpayload⟩
      -- The payload is there, and what follows it is shorter.
      have hlength : (rest.take length).length = length :=
        List.length_take_of_le (Nat.le_of_not_lt hpayload)
      have hheader := length_header kind length
      rw [List.length_append, hheader, headerLength] at hn
      have hless : (rest.drop length).length < n := by
        rw [List.length_drop]
        omega
      obtain ⟨frames, fault, hsplit⟩ := ih _ hless (rest.drop length) rfl
      have hframe : SplitsInto limit (encode ⟨kind, rest.take length⟩ ++ rest.drop length)
          (⟨kind, rest.take length⟩ :: frames) fault :=
        .frame (by rw [hlength]; exact hword) (by rw [hlength]; exact Nat.le_of_not_lt hlimit)
          hsplit
      rw [encode, hlength, List.append_assoc, List.take_append_drop] at hframe
      exact ⟨_, fault, hframe⟩
    · exact ⟨[], _, .unknownKind hlength hflag⟩

/-- The bytes of frames are split into them. -/
theorem splitsInto_flatMap
    (h : ∀ f ∈ frames, f.payload.length < wordSpace ∧ f.payload.length ≤ limit) :
    SplitsInto limit (frames.flatMap encode) frames none := by
  induction frames with
  | nil => exact .ended
  | cons f frames ih =>
    obtain ⟨⟨hword, hlimit⟩, hrest⟩ := List.forall_mem_cons.mp h
    rw [List.flatMap_cons]
    exact .frame hword hlimit (ih hrest)

/-- The bytes are those of the frames exactly when nothing is wrong behind them. -/
theorem SplitsInto.fault_eq_none_iff (h : SplitsInto limit bytes frames fault) :
    fault = none ↔ bytes = frames.flatMap encode := by
  have hnonempty (kind : FrameKind) (length : Nat) (rest : List UInt8) :
      header kind length ++ rest ≠ [] := by
    intro hnil
    have hheader := length_header kind length
    rw [(List.append_eq_nil_iff.mp hnil).1] at hheader
    cases hheader
  induction h with
  | ended => exact ⟨fun _ => rfl, fun _ => rfl⟩
  | inHeader hsome => exact ⟨nofun, fun hnil => absurd hnil hsome⟩
  | unknownKind => exact ⟨nofun, fun hnil => by cases (List.append_eq_nil_iff.mp hnil).2⟩
  | overLimit | inPayload => exact ⟨nofun, fun hnil => absurd hnil (hnonempty _ _ _)⟩
  | frame _ _ _ ih =>
    rw [List.flatMap_cons, List.append_right_inj]
    exact ih

/-- The frames are no more than the bytes. -/
theorem SplitsInto.length_le (h : SplitsInto limit bytes frames fault) :
    frames.length ≤ bytes.length := by
  induction h with
  | @frame f rest others _ _ _ _ ih =>
    have hlength := length_encode f
    rw [headerLength] at hlength
    rw [List.length_append, List.length_cons]
    omega
  | _ => exact Nat.zero_le _

end Frame

namespace Codec

variable {c : Codec} {s : ByteSource} {reader : Reader} {frames : List Frame}
  {fault : Option FrameFault}

/-- A kind that does not exist is a fault. -/
theorem readFrame_unknownKind (hs : s.Serves reader) {length rest : List UInt8} {flag : UInt8}
    (hbytes : s.bytes = length ++ flag :: rest) (hlength : length.length = 8)
    (hflag : flag ≠ 0 ∧ flag ≠ 1) :
    c.readFrame reader s = .error (.framing (.unknownKind flag.toNat)) := by
  obtain ⟨t, -, -, hhead⟩ := hs.fill Frame.headerLength
  have htake : s.bytes.take Frame.headerLength = length ++ [flag] := by
    rw [hbytes, Frame.take_headerLength hlength]
  have hnine : (length ++ [flag]).length = Frame.headerLength := by
    rw [List.length_append, hlength]
    rfl
  have hnonempty : (length ++ [flag]).isEmpty = false := by
    rw [List.isEmpty_eq_false_iff, ← List.length_pos_iff, hnine]
    decide
  rw [htake] at hhead
  rw [readFrame, hhead]
  simp only [bind, Except.bind, hnonempty, Bool.false_eq_true, if_false, hnine, Nat.lt_irrefl,
    Frame.readHeader_unknownKind hlength hflag]

/-- What a reader gets first from bytes that are split into frames: the end, the fault, or the first
frame, with the rest of the bytes split into the others. -/
theorem readFrame_splitsInto (hs : s.Serves reader)
    (h : Frame.SplitsInto c.maxLength s.bytes frames fault) :
    (frames = [] ∧ fault = none ∧ ∃ t, c.readFrame reader s = .ok (none, t)) ∨
      (∃ e, frames = [] ∧ fault = some e ∧ c.readFrame reader s = .error (.framing e)) ∨
      ∃ f others t, frames = f :: others ∧ t.Serves reader ∧
        Frame.SplitsInto c.maxLength t.bytes others fault ∧
          c.readFrame reader s = .ok (some f, t) := by
  generalize hbytes : s.bytes = bytes at h
  cases h with
  | ended => exact .inl ⟨rfl, rfl, readFrame_nil hs hbytes⟩
  | inHeader hsome hshort =>
    subst hbytes
    exact .inr (.inl ⟨_, rfl, rfl, readFrame_short hs hsome hshort⟩)
  | unknownKind hlength hflag =>
    exact .inr (.inl ⟨_, rfl, rfl, readFrame_unknownKind hs hbytes hlength hflag⟩)
  | overLimit hword hlimit =>
    obtain ⟨t, -, -, hread⟩ := readFrame_header (c := c) hs hbytes hword
    rw [if_pos hlimit] at hread
    exact .inr (.inl ⟨_, rfl, rfl, hread⟩)
  | inPayload hword hlimit hshort =>
    obtain ⟨t, -, -, hread⟩ := readFrame_header (c := c) hs hbytes hword
    rw [if_neg (Nat.not_lt.mpr hlimit), List.take_of_length_le (Nat.le_of_lt hshort),
      if_pos hshort] at hread
    exact .inr (.inl ⟨_, rfl, rfl, hread⟩)
  | @frame f rest others _ hword hlimit hrest =>
    obtain ⟨t, ht, htbytes, hread⟩ := readFrame_encode (c := c) hs hbytes hlimit hword
    exact .inr (.inr ⟨f, others, t, rfl, ht, htbytes ▸ hrest, hread⟩)

/-- The frames of a split are read one after the other, with fuel for one frame more. -/
theorem readFramesWithin_splitsInto (hs : s.Serves reader)
    (h : Frame.SplitsInto c.maxLength s.bytes frames fault) {fuel : Nat}
    (hfuel : frames.length < fuel) :
    c.readFramesWithin reader fuel s = ⟨frames, fault.map .framing⟩ := by
  induction frames generalizing s fuel with
  | nil =>
    obtain ⟨fuel, rfl⟩ : ∃ n, fuel = n + 1 := ⟨fuel - 1, by omega⟩
    rcases readFrame_splitsInto hs h with
      ⟨-, rfl, t, hread⟩ | ⟨e, -, rfl, hread⟩ | ⟨f, others, t, hcons, -⟩
    · rw [readFramesWithin, hread, Option.map_none]
    · rw [readFramesWithin, hread, Option.map_some]
    · cases hcons
  | cons f frames ih =>
    rw [List.length_cons] at hfuel
    obtain ⟨fuel, rfl⟩ : ∃ n, fuel = n + 1 := ⟨fuel - 1, by omega⟩
    rcases readFrame_splitsInto hs h with
      ⟨hnil, -⟩ | ⟨e, hnil, -⟩ | ⟨g, others, t, hcons, ht, hrest, hread⟩
    · cases hnil
    · cases hnil
    · cases hcons
      rw [readFramesWithin, hread]
      dsimp only
      rw [ih ht hrest (by omega)]

/-- A reader that no interruption stops reads the frames of a split and comes to its fault. -/
theorem readFrames_splitsInto (hs : s.Serves reader)
    (h : Frame.SplitsInto c.maxLength s.bytes frames fault) :
    c.readFrames reader s = ⟨frames, fault.map .framing⟩ :=
  readFramesWithin_splitsInto hs h (Nat.lt_succ_of_le h.length_le)

end Codec

/-- Bytes are split into frames in one way. -/
theorem Frame.SplitsInto.unique {limit : Nat} {bytes : List UInt8} {frames frames' : List Frame}
    {fault fault' : Option FrameFault} (h : SplitsInto limit bytes frames fault)
    (h' : SplitsInto limit bytes frames' fault') : frames' = frames ∧ fault' = fault := by
  have hs : (ByteSource.ofBytes bytes).Serves .awaiting := fun _ => List.not_mem_nil
  have hread := Codec.readFrames_splitsInto (c := ⟨.binary, limit⟩) hs h
  rw [Codec.readFrames_splitsInto (c := ⟨.binary, limit⟩) hs h'] at hread
  obtain ⟨hframes, hfaults⟩ := Codec.Received.mk.inj hread
  exact ⟨hframes, Option.map_injective (fun _ _ he => Error.framing.inj he) hfaults⟩

end QueryRelay
