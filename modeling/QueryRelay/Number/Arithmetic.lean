import QueryRelay.Number.Binary64

/-!
# Arithmetic on binary floating-point numbers

Every operation is the exact result on the numbers denoted, rounded once by `Binary64.nearest`. An
operand that is a `NaN` is passed on, the left one first; an operation without a result on the
extended reals gives `Binary64.invalid`.
-/

namespace QueryRelay.Binary64

/-- A `NaN` operand as a result: the same bits with the quiet bit set. -/
def quiet (x : Binary64) : Binary64 :=
  if x.fraction < hiddenBit / 2 then ofMagnitude x.isNegative (x.magnitude + hiddenBit / 2) else x

/-- Change the sign, of a `NaN` also. -/
def negate (x : Binary64) : Binary64 := ofMagnitude (!x.isNegative) x.magnitude

/-- Clear the sign, of a `NaN` also. -/
def abs (x : Binary64) : Binary64 := ofMagnitude false x.magnitude

/-- Run an operation on operands that are not `NaN`; otherwise pass a `NaN` on. -/
def withNumbers (x y : Binary64) (operation : Binary64) : Binary64 :=
  if x.isNaN then quiet x else if y.isNaN then quiet y else operation

/-- The sum. Opposite infinities have none; a zero sum is negative only if both operands are. -/
def add (x y : Binary64) : Binary64 :=
  withNumbers x y <|
    if x.isInfinite then
      if y.isInfinite && x.isNegative != y.isNegative then invalid else x
    else if y.isInfinite then y
    else
      let unit := min x.scale y.scale
      nearestScaled (x.isNegative && y.isNegative)
        (x.signedSignificand * Nat.pow 2 (x.scale - unit).toNat +
          y.signedSignificand * Nat.pow 2 (y.scale - unit).toNat) unit

/-- The difference: the sum with the operand of opposite sign. -/
def sub (x y : Binary64) : Binary64 := withNumbers x y (add x (negate y))

/-- The product. An infinity times a zero has none. -/
def mul (x y : Binary64) : Binary64 :=
  withNumbers x y <|
    let negative := x.isNegative != y.isNegative
    if x.isInfinite || y.isInfinite then
      if x.isZero || y.isZero then invalid else infinity negative
    else
      nearestScaled negative (x.signedSignificand * y.signedSignificand) (x.scale + y.scale)

/-- The quotient. Two infinities, or two zeros, have none; a number over zero is infinite. -/
def div (x y : Binary64) : Binary64 :=
  withNumbers x y <|
    let negative := x.isNegative != y.isNegative
    if x.isInfinite then
      if y.isInfinite then invalid else infinity negative
    else if y.isInfinite then zero negative
    else if y.isZero then
      if x.isZero then invalid else infinity negative
    else
      let unit := x.scale - y.scale
      if 0 ≤ unit then nearest negative (x.significand * Nat.pow 2 unit.toNat) y.significand
      else nearest negative x.significand (y.significand * Nat.pow 2 (-unit).toNat)

/-- The remainder of the quotient rounded toward zero; it is exact and has the sign of the
dividend. An infinite dividend or a zero divisor has none. -/
def rem (x y : Binary64) : Binary64 :=
  withNumbers x y <|
    if x.isInfinite || y.isZero then invalid
    else if y.isInfinite then x
    else
      let unit := min x.scale y.scale
      let dividend := x.significand * Nat.pow 2 (x.scale - unit).toNat
      let divisor := y.significand * Nat.pow 2 (y.scale - unit).toNat
      let rest : Int := dividend % divisor
      nearestScaled x.isNegative (if x.isNegative then -rest else rest) unit

/-- Map the significand in units of one, when the number has a fractional part; otherwise the
number stays as it is. The rounding receives the whole part and the remainder below it. -/
def roundWith (x : Binary64) (rounding : (whole rest unit : Nat) → Nat) : Binary64 :=
  if x.isNaN then quiet x
  else if x.isInfinite || 0 ≤ x.scale then x
  else
    let unit := Nat.pow 2 (-x.scale).toNat
    nearest x.isNegative (rounding (x.significand / unit) (x.significand % unit) unit) 1

/-- The largest integer not above the number. -/
def floor (x : Binary64) : Binary64 :=
  x.roundWith fun whole rest _ => if x.isNegative && rest != 0 then whole + 1 else whole

/-- The nearest integer, a half going away from zero. -/
def round (x : Binary64) : Binary64 :=
  x.roundWith fun whole rest unit => if unit ≤ 2 * rest then whole + 1 else whole

end QueryRelay.Binary64
