import QueryRelay.Proofs.Wire.Cuts
import QueryRelay.Proofs.Wire.Splitting

/-!
# Buffers with any header

A buffer comes from the other side, and so does the length that its header announces. The end of the
frame is an address of 64 bits, computed from that length: for the nine greatest lengths there is
none. A sum that wraps around does not help, for it lies in front of the payload and the slice is
refused. Main statement: a buffer gets an answer exactly when it does not announce one of these
lengths, and a length that it may announce is waited for, however large it is.
-/

namespace QueryRelay.Frame

open Payload (wordSpace)

/-- The bytes between two addresses, if these are in order and inside the buffer. -/
def slice? (bytes : List UInt8) (start stop : UInt64) : Option (List UInt8) :=
  if start ≤ stop ∧ stop.toNat ≤ bytes.length then
    some ((bytes.take stop.toNat).drop start.toNat)
  else none

/-- Take one frame off the front with an end that may wrap around, where a slice that is refused is
a fault. -/
def decodeWrapping (bytes : List UInt8) : Except Error (Option Taken) := do
  if bytes.length < headerLength then return none
  let h ← readHeader (bytes.take headerLength)
  let start := UInt64.ofNat headerLength
  let stop := start + UInt64.ofNat h.length
  if bytes.length < stop.toNat then return none
  match slice? bytes start stop with
  | some payload => return some ⟨⟨h.kind, payload⟩, stop.toNat⟩
  | none => .error .addressOverflow

/-- A buffer gets an answer: that nothing is there yet, that its bytes are no frame, or a frame of
which the bytes are the first ones of the buffer. -/
def IsAnswered (bytes : List UInt8) : Prop :=
  decode bytes = .ok none ∨ (∃ fault, decode bytes = .error (.framing fault)) ∨
    ∃ t, decode bytes = .ok (some t) ∧ t.length ≤ bytes.length ∧
      t.frame.encode = bytes.take t.length

/-- A buffer announces a payload of which the end has no address. -/
def AnnouncesBeyond (bytes : List UInt8) : Prop :=
  ∃ kind length rest, length < wordSpace ∧ addressSpace ≤ headerLength + length ∧
    bytes = header kind length ++ rest

variable {bytes : List UInt8}

/-! ## Buffers that start with no header -/

/-- Eight bytes and that of no kind are refused. -/
theorem decode_unknownKind {length : List UInt8} {flag : UInt8} (hlength : length.length = 8)
    (hflag : flag ≠ 0 ∧ flag ≠ 1) (rest : List UInt8) :
    decode (length ++ flag :: rest) = .error (.framing (.unknownKind flag.toNat)) := by
  have hnine : ¬ (length ++ flag :: rest).length < headerLength := by
    rw [List.length_append, List.length_cons, hlength, headerLength]
    omega
  rw [decode, if_neg hnine, take_headerLength hlength, readHeader_unknownKind hlength hflag]
  rfl

/-! ## The end of a frame -/

/-- The end of a frame is where it should be, or wraps around to somewhere in the header. -/
theorem toNat_stop {length : Nat} (hword : length < wordSpace) :
    (UInt64.ofNat headerLength + UInt64.ofNat length).toNat =
      if addressSpace ≤ headerLength + length then headerLength + length - addressSpace
      else headerLength + length := by
  have hspace : wordSpace = 18446744073709551616 := rfl
  rw [UInt64.toNat_add, UInt64.toNat_ofNat', UInt64.toNat_ofNat', headerLength, addressSpace]
  split <;> omega

/-- A slice that would end in front of its start is refused. -/
theorem slice?_of_lt {start stop : UInt64} (h : stop.toNat < start.toNat) :
    slice? bytes start stop = none := by
  have hle : ¬ start ≤ stop := by
    rw [UInt64.le_iff_toNat_le]
    omega
  rw [slice?, if_neg fun hbounds => hle hbounds.1]

/-- The bytes up to the end of a frame are its header and its payload. -/
theorem take_frame (kind : FrameKind) (length : Nat) (rest : List UInt8) :
    (header kind length ++ rest).take (headerLength + length) =
      header kind length ++ rest.take length := by
  have hheader := length_header kind length
  rw [List.take_append, hheader, List.take_of_length_le (by omega), Nat.add_sub_cancel_left]

/-- The payload behind a header is a slice of the buffer when it is there. -/
theorem slice?_payload (kind : FrameKind) {length : Nat} {rest : List UInt8} {start stop : UInt64}
    (hstart : start.toNat = headerLength) (hstop : stop.toNat = headerLength + length)
    (hrest : length ≤ rest.length) :
    slice? (header kind length ++ rest) start stop = some (rest.take length) := by
  have hheader := length_header kind length
  have hle : start ≤ stop := by
    rw [UInt64.le_iff_toNat_le]
    omega
  have hinside : stop.toNat ≤ (header kind length ++ rest).length := by
    rw [List.length_append, hheader]
    omega
  rw [slice?, if_pos ⟨hle, hinside⟩, hstart, hstop, take_frame, List.drop_left' hheader]

/-- With an end that wraps around a buffer gives up the same: where the end has no address, the
slice is refused. -/
theorem decodeWrapping_eq (bytes : List UInt8) : decodeWrapping bytes = decode bytes := by
  by_cases hshort : bytes.length < headerLength
  · rw [decode_short hshort, decodeWrapping, if_pos hshort]
    rfl
  rcases exists_header (Nat.le_of_not_lt hshort) with
    ⟨kind, length, rest, hword, rfl⟩ | ⟨length, flag, rest, hlength, hflag, rfl⟩
  · have hheader := length_header kind length
    have hstart : (UInt64.ofNat headerLength).toNat = headerLength := rfl
    have hstop := toNat_stop hword
    rw [decode_header kind hword, decodeWrapping, if_neg hshort, readHeader_take kind hword]
    simp only [bind, Except.bind, pure, Except.pure]
    by_cases hbeyond : addressSpace ≤ headerLength + length
    · -- The end wraps around to an address in the header, which is there.
      have hspace : wordSpace = addressSpace := rfl
      rw [if_pos hbeyond] at hstop ⊢
      rw [if_neg (by rw [List.length_append]; omega), slice?_of_lt (by omega)]
    · rw [if_neg hbeyond] at hstop ⊢
      rw [List.length_append, hheader, hstop]
      by_cases hthere : rest.length < length
      · rw [if_pos hthere, if_pos (by omega)]
      · rw [if_neg hthere, if_neg (by omega),
          slice?_payload kind hstart hstop (Nat.le_of_not_lt hthere)]
  · rw [decode_unknownKind hlength hflag, decodeWrapping, if_neg hshort,
      take_headerLength hlength, readHeader_unknownKind hlength hflag]
    rfl

/-! ## Answers -/

/-- A buffer with a header gets an answer exactly when the end of the payload has an address. -/
theorem isAnswered_header_iff (kind : FrameKind) {length : Nat} (hword : length < wordSpace)
    (rest : List UInt8) :
    IsAnswered (header kind length ++ rest) ↔ headerLength + length < addressSpace := by
  have hdecode := decode_header kind hword rest
  have hheader := length_header kind length
  constructor
  · intro h
    by_contra hbeyond
    rw [if_pos (Nat.le_of_not_lt hbeyond)] at hdecode
    rcases h with hnone | ⟨fault, hfault⟩ | ⟨t, ht, -⟩
    · rw [hdecode] at hnone
      cases hnone
    · rw [hdecode] at hfault
      cases hfault
    · rw [hdecode] at ht
      cases ht
  · intro haddress
    rw [if_neg (Nat.not_le.mpr haddress)] at hdecode
    by_cases hthere : rest.length < length
    · rw [if_pos hthere] at hdecode
      exact .inl hdecode
    · have hlength : (rest.take length).length = length :=
        List.length_take_of_le (Nat.le_of_not_lt hthere)
      have hencode : encode ⟨kind, rest.take length⟩ = header kind length ++ rest.take length := by
        rw [encode, hlength]
      have hinside : headerLength + length ≤ (header kind length ++ rest).length := by
        rw [List.length_append, hheader]
        omega
      rw [if_neg hthere] at hdecode
      exact .inr (.inr ⟨_, hdecode, hinside, hencode.trans (take_frame kind length rest).symm⟩)

/-- A buffer gets an answer exactly when it does not announce a payload of which the end has no
address: that nothing is there yet, that its bytes are no frame, or a frame no longer than the
buffer of which the bytes are its first ones. If it does announce one, that is a fault, whether the
sum is checked or wraps around. Any other length is waited for. -/
theorem isAnswered_iff (bytes : List UInt8) :
    (IsAnswered bytes ↔ ¬ AnnouncesBeyond bytes) ∧
      (AnnouncesBeyond bytes → decode bytes = .error .addressOverflow) ∧
      decodeWrapping bytes = decode bytes ∧
      ∀ kind length rest, bytes = header kind length ++ rest →
        headerLength + length < addressSpace → rest.length < length → decode bytes = .ok none := by
  refine ⟨?_, ?_, decodeWrapping_eq bytes, ?_⟩
  · constructor
    · rintro h ⟨kind, length, rest, hword, hbeyond, rfl⟩
      have haddress := (isAnswered_header_iff kind hword rest).mp h
      omega
    · intro h
      by_cases hshort : bytes.length < headerLength
      · exact .inl (decode_short hshort)
      rcases exists_header (Nat.le_of_not_lt hshort) with
        ⟨kind, length, rest, hword, rfl⟩ | ⟨length, flag, rest, hlength, hflag, rfl⟩
      · refine (isAnswered_header_iff kind hword rest).mpr (Nat.lt_of_not_le fun hbeyond => h ?_)
        exact ⟨kind, length, rest, hword, hbeyond, rfl⟩
      · exact .inr (.inl ⟨_, decode_unknownKind hlength hflag rest⟩)
  · rintro ⟨kind, length, rest, hword, hbeyond, rfl⟩
    rw [decode_header kind hword, if_pos hbeyond]
  · rintro kind length rest rfl haddress hthere
    have hword : length < wordSpace := Nat.lt_of_le_of_lt (Nat.le_add_left ..) haddress
    rw [decode_header kind hword, if_neg (Nat.not_le.mpr haddress), if_pos hthere]

/-- A header that announces the greatest length that may be announced is waited for. -/
theorem patient_isAnswered :
    let bytes := header .error (addressSpace - 10)
    IsAnswered bytes ∧ decode bytes = .ok none := by
  intro bytes
  have haddress : headerLength + (addressSpace - 10) < addressSpace := by decide
  obtain ⟨-, -, -, hwaits⟩ := isAnswered_iff bytes
  have hnone := hwaits .error (addressSpace - 10) [] (List.append_nil _).symm haddress (by decide)
  exact ⟨.inl hnone, hnone⟩

/-- A header that announces the greatest length of all gets no answer. -/
theorem endless_not_isAnswered : ¬ IsAnswered (header .message (addressSpace - 1)) := by
  have hword : addressSpace - 1 < wordSpace := by decide
  rw [← List.append_nil (header .message (addressSpace - 1)), isAnswered_header_iff _ hword]
  decide

end QueryRelay.Frame
