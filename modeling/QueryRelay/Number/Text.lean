import QueryRelay.Number.Shortest
import QueryRelay.Number.Arithmetic

/-!
# Floating-point numbers as text

Two written forms exist. The plain form, used wherever a value is shown, never has an exponent and
writes no `.0`; a half-way case goes up. The document form, used inside JSON text, always shows
that it is not an integer, has an exponent below `10 ^ -5` and from `10 ^ 16` on, and breaks ties to
even; it has no spelling for infinities and `NaN`. `Binary64.ofText?` reads a numeral of either
kind, correctly rounded.
-/

namespace QueryRelay.Binary64

/-- The decimal digits of a natural. -/
def digitsText (n : Nat) : String := String.ofList (Nat.toDigits 10 n)

/-- `n` zeros. -/
def zeros (n : Nat) : String := String.ofList (List.replicate n '0')

/-- A decimal without an exponent; `fraction` is what follows a whole number. -/
def positional (d : Decimal) (fraction : String) : String :=
  let digits := Nat.toDigits 10 d.digits
  if 0 ≤ d.exponent then String.ofList digits ++ zeros d.exponent.toNat ++ fraction
  else
    let places := (-d.exponent).toNat
    if places < digits.length then
      String.ofList (digits.take (digits.length - places)) ++ "." ++
        String.ofList (digits.drop (digits.length - places))
    else "0." ++ zeros (places - digits.length) ++ String.ofList digits

/-- A decimal with one digit before the point and a signed exponent. -/
def scientific (d : Decimal) : String :=
  let digits := Nat.toDigits 10 d.digits
  let exponent := d.exponent + (digits.length : Int) - 1
  let mantissa := match digits with
    | [] => "0"
    | [c] => String.ofList [c]
    | c :: rest => String.ofList (c :: '.' :: rest)
  mantissa ++ (if exponent < 0 then "e-" else "e+") ++ digitsText exponent.natAbs

/-- The plain form. -/
def plainText (x : Binary64) : String :=
  if x.isNaN then "NaN"
  else
    let sign := if x.isNegative then "-" else ""
    if x.isInfinite then sign ++ "inf"
    else if x.isZero then sign ++ "0"
    else sign ++ positional (x.shortest .up) ""

/-- The document form, for finite numbers. -/
def documentText? (x : Binary64) : Option String :=
  if !x.isFinite then none
  else
    let sign := if x.isNegative then "-" else ""
    if x.isZero then some (sign ++ "0.0")
    else
      let d := x.shortest .toEven
      let leading := d.exponent + ((Nat.toDigits 10 d.digits).length : Int) - 1
      some (sign ++ if -5 ≤ leading ∧ leading ≤ 15 then positional d ".0" else scientific d)

/-! ## Reading -/

/-- The value of a list of decimal digits, after a value already read. -/
def digitsValue (start : Nat) (digits : List Char) : Nat :=
  digits.foldl (fun n c => 10 * n + (c.toNat - '0'.toNat)) start

/-- Split the decimal digits off the front. -/
def spanDigits (cs : List Char) : List Char × List Char :=
  (cs.takeWhile Char.isDigit, cs.dropWhile Char.isDigit)

/-- Split an optional sign off the front: whether it is a minus, and what follows. -/
def spanSign : List Char → Bool × List Char
  | '-' :: rest => (true, rest)
  | '+' :: rest => (false, rest)
  | cs => (false, cs)

/-- The exponent part of a numeral: nothing, or `e` or `E`, a sign and at least one digit. -/
def exponentOf? : List Char → Option Int
  | [] => some 0
  | c :: rest =>
    if c = 'e' ∨ c = 'E' then
      let (negative, rest) := spanSign rest
      let (digits, rest) := spanDigits rest
      if digits.isEmpty || !rest.isEmpty then none
      else
        let n : Int := digitsValue 0 digits
        some (if negative then -n else n)
    else none

/-- A numeral without sign: digits with at most one point among them, then an exponent. -/
def unsigned? (negative : Bool) (cs : List Char) : Option Binary64 :=
  let (whole, rest) := spanDigits cs
  let (fraction, rest) := match rest with
    | '.' :: rest => spanDigits rest
    | _ => ([], rest)
  if whole.isEmpty && fraction.isEmpty then none
  else (exponentOf? rest).map fun exponent =>
    Decimal.toBinary64 negative
      ⟨digitsValue (digitsValue 0 whole) fraction, exponent - (fraction.length : Int)⟩

/-- Read a numeral with an optional sign, or `inf`, `infinity` or `nan` in any case. -/
def ofText? (cs : List Char) : Option Binary64 :=
  let (negative, rest) := spanSign cs
  let word := String.ofList (rest.map Char.toLower)
  if word = "inf" ∨ word = "infinity" then some (.infinity negative)
  else if word = "nan" then some (if negative then nan.negate else nan)
  else unsigned? negative rest

end QueryRelay.Binary64
