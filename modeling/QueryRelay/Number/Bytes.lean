/-!
# Numbers as bytes

Naturals in a fixed number of bytes, the lowest byte first, and bytes in hexadecimal digits. Main
statement: a natural that fits is read back, with whatever follows it.
-/

namespace QueryRelay.Bytes

/-- The lowest `width` bytes of a natural, the lowest first. -/
def ofNat : Nat → Nat → List UInt8
  | 0, _ => []
  | width + 1, n => UInt8.ofNat n :: ofNat width (n / 256)

/-- The natural of some bytes, the lowest first. -/
def toNat : List UInt8 → Nat
  | [] => 0
  | b :: rest => b.toNat + 256 * toNat rest

/-- Take `width` bytes off the front. -/
def take? : Nat → List UInt8 → Option (List UInt8 × List UInt8)
  | 0, bytes => some ([], bytes)
  | _ + 1, [] => none
  | width + 1, b :: rest => (take? width rest).map fun (front, rest) => (b :: front, rest)

/-- Read a natural of `width` bytes. -/
def readNat? (width : Nat) (bytes : List UInt8) : Option (Nat × List UInt8) :=
  (take? width bytes).map fun (front, rest) => (toNat front, rest)

/-- Two hexadecimal digits for each byte. -/
def hexText (bytes : List UInt8) : String :=
  String.ofList (bytes.flatMap fun b =>
    [Nat.digitChar (b.toNat / 16), Nat.digitChar (b.toNat % 16)])

/-- The sixteen hexadecimal digits of a 64-bit number, the highest first. -/
def wordText (n : UInt64) : String := hexText (ofNat 8 n.toNat).reverse

/-- The value of a hexadecimal digit. -/
def digitValue? (c : Char) : Option Nat :=
  if c.isDigit then some (c.toNat - 48)
  else if 'a' ≤ c ∧ c ≤ 'f' then some (c.toNat - 87)
  else if 'A' ≤ c ∧ c ≤ 'F' then some (c.toNat - 55)
  else none

/-- The bytes for pairs of hexadecimal digits. -/
def ofHexDigits? : List Char → Option (List UInt8)
  | [] => some []
  | [_] => none
  | c :: d :: rest => do
    let b := UInt8.ofNat ((← digitValue? c) * 16 + (← digitValue? d))
    return b :: (← ofHexDigits? rest)

/-- The bytes that a text of hexadecimal digits stands for. -/
def ofHexText? (s : String) : Option (List UInt8) := ofHexDigits? s.toList

theorem length_ofNat (width n : Nat) : (ofNat width n).length = width := by
  induction width generalizing n with
  | zero => rfl
  | succ width ih => simp [ofNat, ih]

theorem toNat_ofNat (width n : Nat) (h : n < Nat.pow 256 width) : toNat (ofNat width n) = n := by
  induction width generalizing n with
  | zero => simp at h; simp [ofNat, toNat, h]
  | succ width ih =>
    have hq : n / 256 < Nat.pow 256 width := by
      rw [Nat.div_lt_iff_lt_mul (by decide)]
      simpa [Nat.pow_succ] using h
    simp [ofNat, toNat, ih _ hq, UInt8.toNat_ofNat']
    omega

theorem take?_append (front rest : List UInt8) :
    take? front.length (front ++ rest) = some (front, rest) := by
  induction front with
  | nil => rfl
  | cons b front ih => simp [take?, ih]

/-- A natural that fits is read back, with what follows it. -/
theorem readNat?_ofNat (width n : Nat) (rest : List UInt8) (h : n < Nat.pow 256 width) :
    readNat? width (ofNat width n ++ rest) = some (n, rest) := by
  have := take?_append (ofNat width n) rest
  rw [length_ofNat] at this
  simp [readNat?, this, toNat_ofNat width n h]

end QueryRelay.Bytes
