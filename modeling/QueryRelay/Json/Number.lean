import QueryRelay.Json.Syntax
import QueryRelay.Number.Text

/-!
# Numbers inside JSON documents

A number without fraction and exponent that fits 64 bits is an integer. Any other is read in a
quick way that is not always correctly rounded: as many of its digits as fit an unsigned 64-bit
integer are taken, the rest only moves the decimal point, and the result is one multiplication by,
or division by, a power of ten. A number too large for the format is refused.
-/

namespace QueryRelay.Json

/-- What a written number denotes. -/
inductive Numeral where
  /-- A natural. -/
  | natural (n : UInt64)
  /-- A negative integer. -/
  | negative (n : Int64)
  /-- A floating-point number. -/
  | float (x : Binary64)

namespace Numeral

/-- The largest significand. -/
def maxSignificand : Nat := 18446744073709551615

/-- The largest exponent that is counted; exponents stay between its negations. -/
def maxExponent : Int := 2147483647

/-- The value of a decimal digit. -/
def digit (c : Char) : Nat := c.toNat - '0'.toNat

/-- Append digits to a significand while it fits; the digits that do not are left. -/
def appendDigits : Nat → List Char → Nat × List Char
  | n, [] => (n, [])
  | n, c :: rest =>
    if 10 * n + digit c ≤ maxSignificand then appendDigits (10 * n + digit c) rest
    else (n, c :: rest)

/-- A power of ten in the floating-point format. -/
def powerOfTen (n : Nat) : Binary64 := Decimal.toBinary64 false ⟨1, n⟩

/-- Multiply by a power of ten, the largest single power being `10 ^ 308`. A number is zero after
three divisions by that, which is what the fuel bounds; nothing comes out when the result is too
large. -/
def scaled? : Nat → Binary64 → Int → Option Binary64
  | 0, x, _ => some x
  | fuel + 1, x, exponent =>
    if exponent.natAbs ≤ 308 then
      if 0 ≤ exponent then
        let y := x.mul (powerOfTen exponent.natAbs)
        if y.isInfinite then none else some y
      else some (x.div (powerOfTen exponent.natAbs))
    else if x.isZero then some x
    else if 0 ≤ exponent then none
    else scaled? fuel (x.div (powerOfTen 308)) (exponent + 308)

/-- Keep an exponent within the bounds that are counted. -/
def saturate (exponent : Int) : Int := max (-maxExponent - 1) (min maxExponent exponent)

/-- The number `± significand · 10 ^ exponent`. -/
def assemble (isNegative : Bool) (significand : Nat) (exponent : Int) : Option Numeral :=
  (scaled? 8 (.ofNat significand) exponent).map fun x =>
    .float (if isNegative then x.negate else x)

/-- The rest of a number after its significand: an exponent, or nothing. -/
def finish (isNegative : Bool) (significand : Nat) (exponent : Int) : List Char → Option Numeral
  | [] => assemble isNegative significand exponent
  | _ :: rest =>
    let (isDown, digits) := Binary64.spanSign rest
    let n : Int := Binary64.digitsValue 0 digits
    if maxExponent < n then
      if significand ≠ 0 ∧ !isDown then none else some (.float (.zero isNegative))
    else assemble isNegative significand (saturate (if isDown then exponent - n else exponent + n))

/-- What a written number denotes, if the format can hold it. -/
def read? (lexeme : List Char) : Option Numeral :=
  let (isNegative, cs) := match lexeme with
    | '-' :: rest => (true, rest)
    | _ => (false, lexeme)
  let whole := cs.takeWhile Char.isDigit
  let rest := cs.dropWhile Char.isDigit
  let (significand, dropped) := appendDigits 0 whole
  match rest with
  | [] =>
    if !dropped.isEmpty then assemble isNegative significand dropped.length
    else if !isNegative then some (.natural (.ofNat significand))
    else if significand = 0 ∨ 9223372036854775808 < significand then
      some (.float (Binary64.ofNat significand).negate)
    else some (.negative (.ofInt (-(significand : Int))))
  | '.' :: rest =>
    let fraction := rest.takeWhile Char.isDigit
    let (longer, left) := appendDigits significand fraction
    let places := fraction.length - left.length
    finish isNegative longer ((dropped.length : Int) - (places : Int))
      (rest.dropWhile Char.isDigit)
  | rest => finish isNegative significand dropped.length rest

end Numeral

/-- A natural as a document. -/
def ofNat (n : Nat) : Json := .number (Nat.toDigits 10 n)

/-- An integer as a document. -/
def ofInt (n : Int) : Json :=
  .number (if n < 0 then '-' :: Nat.toDigits 10 n.natAbs else Nat.toDigits 10 n.toNat)

/-- A floating-point number as a document; infinities and `NaN` have no number. -/
def ofFloat (x : Binary64) : Json :=
  match x.documentText? with
  | some s => .number s.toList
  | none => .null

/-- What a document that is a number denotes. -/
def numeral? : Json → Option Numeral
  | .number lexeme => Numeral.read? lexeme
  | _ => none

/-- A document as a 64-bit integer. -/
def int64? (j : Json) : Option Int64 :=
  match j.numeral? with
  | some (.natural n) => if n.toNat ≤ 9223372036854775807 then some (.ofNat n.toNat) else none
  | some (.negative n) => some n
  | _ => none

/-- A document as an unsigned 64-bit integer. -/
def uint64? (j : Json) : Option UInt64 :=
  match j.numeral? with
  | some (.natural n) => some n
  | _ => none

/-- A document as a floating-point number; integers are rounded. -/
def float? (j : Json) : Option Binary64 :=
  match j.numeral? with
  | some (.natural n) => some (.ofNat n.toNat)
  | some (.negative n) => some (.ofInt n.toInt)
  | some (.float x) => some x
  | none => none

end QueryRelay.Json
