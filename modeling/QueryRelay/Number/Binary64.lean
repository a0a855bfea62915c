/-!
# Binary floating-point numbers of 64 bits

A number is held as the bits of its interchange format, so two numbers are the same exactly when
their bits are. A finite number denotes `± significand · 2 ^ scale`; `Binary64.nearest` goes the
other way and gives the number nearest to a quotient of naturals, a tie going to the even
significand. Two comparisons exist: `Binary64.compareTotal` orders all bit patterns, and
`Binary64.numericEq` is numeric equality, where `NaN` differs from itself and the two zeros agree.
-/

namespace QueryRelay

/-- A 64-bit binary floating-point number, as the bits of its interchange format. -/
structure Binary64 where
  /-- The sign bit, eleven exponent bits and fifty-two fraction bits. -/
  bits : UInt64
deriving DecidableEq, Inhabited

namespace Binary64

/-- Two to the fifty-second: the weight of the bit before the fraction. -/
def hiddenBit : Nat := 4503599627370496

/-- Two to the sixty-third: the weight of the sign bit. -/
def signBit : Nat := 9223372036854775808

/-- The bits without the sign. -/
def magnitude (x : Binary64) : Nat := x.bits.toNat % signBit

/-- Whether the sign bit is set. -/
def isNegative (x : Binary64) : Bool := signBit ≤ x.bits.toNat

/-- The eleven exponent bits. -/
def exponentField (x : Binary64) : Nat := x.magnitude / hiddenBit

/-- The fifty-two fraction bits. -/
def fraction (x : Binary64) : Nat := x.magnitude % hiddenBit

/-- The magnitude of an infinity. -/
def infiniteMagnitude : Nat := 2047 * hiddenBit

/-- Put a sign before a magnitude. -/
def ofMagnitude (negative : Bool) (magnitude : Nat) : Binary64 :=
  ⟨UInt64.ofNat (if negative then signBit + magnitude else magnitude)⟩

/-- An infinity of the given sign. -/
def infinity (negative : Bool) : Binary64 := ofMagnitude negative infiniteMagnitude

/-- A zero of the given sign. -/
def zero (negative : Bool) : Binary64 := ofMagnitude negative 0

/-- The quiet `NaN` that stands for "not a number" in a literal: positive, empty payload. -/
def nan : Binary64 := ofMagnitude false (infiniteMagnitude + hiddenBit / 2)

/-- The `NaN` that an invalid operation on numbers produces: negative, empty payload. -/
def invalid : Binary64 := ofMagnitude true (infiniteMagnitude + hiddenBit / 2)

/-- Whether this is a `NaN`, of either sign and any payload. -/
def isNaN (x : Binary64) : Bool := infiniteMagnitude < x.magnitude

/-- Whether this is one of the two infinities. -/
def isInfinite (x : Binary64) : Bool := x.magnitude == infiniteMagnitude

/-- Whether this denotes a real number. -/
def isFinite (x : Binary64) : Bool := x.magnitude < infiniteMagnitude

/-- Whether this is one of the two zeros. -/
def isZero (x : Binary64) : Bool := x.magnitude == 0

/-- The integer significand of a finite number, the hidden bit included. -/
def significand (x : Binary64) : Nat :=
  if x.exponentField = 0 then x.fraction else hiddenBit + x.fraction

/-- The exponent of two that goes with `significand`. -/
def scale (x : Binary64) : Int :=
  if x.exponentField = 0 then -1074 else (x.exponentField : Int) - 1075

/-- The significand with its sign. -/
def signedSignificand (x : Binary64) : Int :=
  if x.isNegative then -(x.significand : Int) else x.significand

/-! ## Rounding -/

/-- The quotient rounded to the nearest integer, a tie going to the even one. -/
def divideToEven (numerator denominator : Nat) : Nat :=
  let quotient := numerator / denominator
  let twice := 2 * (numerator % denominator)
  if twice < denominator then quotient
  else if denominator < twice then quotient + 1
  else if quotient % 2 = 0 then quotient else quotient + 1

/-- The exponent `e` with `2 ^ e ≤ numerator / denominator < 2 ^ (e + 1)`, both being positive. -/
def floorLog2 (numerator denominator : Nat) : Int :=
  let estimate : Int := (numerator.log2 : Int) - (denominator.log2 : Int)
  let reached :=
    if 0 ≤ estimate then denominator * Nat.pow 2 estimate.toNat ≤ numerator
    else denominator ≤ numerator * Nat.pow 2 (-estimate).toNat
  if reached then estimate else estimate - 1

/-- The number nearest to `± numerator / denominator`, for a positive denominator. A tie goes to
the even significand; what lies beyond the largest finite number becomes an infinity. -/
def nearest (negative : Bool) (numerator denominator : Nat) : Binary64 :=
  if numerator = 0 then zero negative
  else
    let unit : Int := max (floorLog2 numerator denominator - 52) (-1074)
    let rounded :=
      if 0 ≤ unit then divideToEven numerator (denominator * Nat.pow 2 unit.toNat)
      else divideToEven (numerator * Nat.pow 2 (-unit).toNat) denominator
    let magnitude := (unit + 1075).toNat * hiddenBit + rounded - hiddenBit
    ofMagnitude negative (min magnitude infiniteMagnitude)

/-- The number nearest to `coefficient · 2 ^ exponent`; `negativeZero` is the sign a zero takes. -/
def nearestScaled (negativeZero : Bool) (coefficient : Int) (exponent : Int) : Binary64 :=
  let negative := if coefficient = 0 then negativeZero else decide (coefficient < 0)
  if 0 ≤ exponent then nearest negative (coefficient.natAbs * Nat.pow 2 exponent.toNat) 1
  else nearest negative coefficient.natAbs (Nat.pow 2 (-exponent).toNat)

/-- The number nearest to a natural. -/
def ofNat (n : Nat) : Binary64 := nearest false n 1

/-- The number nearest to an integer. -/
def ofInt (n : Int) : Binary64 := nearest (decide (n < 0)) n.natAbs 1

/-! ## Comparison -/

/-- An integer that grows along the total order: the negative numbers from the largest magnitude
down, then the positive ones. The two zeros are neighbours, and a `NaN` lies beyond the infinity
of its sign. -/
def totalKey (x : Binary64) : Int :=
  if x.isNegative then -(x.magnitude : Int) - 1 else x.magnitude

/-- The total order on all bit patterns. -/
def compareTotal (x y : Binary64) : Ordering := compare x.totalKey y.totalKey

/-- Numeric equality: no `NaN` equals anything, and the two zeros are equal. -/
def numericEq (x y : Binary64) : Bool :=
  !x.isNaN && !y.isNaN && (x.bits == y.bits || x.isZero && y.isZero)

/-- The integer a finite number denotes, if it denotes one. -/
def toInt? (x : Binary64) : Option Int :=
  if !x.isFinite then none
  else if 0 ≤ x.scale then some (x.signedSignificand * Nat.pow 2 x.scale.toNat)
  else if x.significand % Nat.pow 2 (-x.scale).toNat = 0 then
    some (x.signedSignificand / Nat.pow 2 (-x.scale).toNat)
  else none

/-- Whether the number survives a trip through the 32-bit format: its significand needs no more
than the twenty-four bits, and its scale no less than the smallest exponent, of that format.
Infinities and `NaN` survive. -/
def fitsBinary32 (x : Binary64) : Bool :=
  if !x.isFinite || x.isZero then true
  else
    let top : Int := (x.significand.log2 : Int) + x.scale
    let unit : Int := max (top - 23) (-149)
    let dropped := (unit - x.scale).toNat
    decide (top ≤ 127) && x.significand % Nat.pow 2 dropped == 0

end Binary64
end QueryRelay
