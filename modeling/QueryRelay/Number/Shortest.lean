import QueryRelay.Number.Binary64

/-!
# The fewest decimal digits that read back

`Binary64.shortest` gives a finite non-zero number as `digits · 10 ^ exponent` with as few digits
as any decimal that rounds to the number, and the nearest of those. The reals that round to a
number form an interval around it, whose ends belong to it when the significand is even. For each
digit count the two neighbours of the number on that decimal grid are tried, in exact integer
arithmetic; the first grid with a hit wins.
-/

namespace QueryRelay

/-- Where a number goes that lies half-way between two shortest decimals. -/
inductive DecimalTie where
  /-- To the even last digit. -/
  | toEven
  /-- To the larger magnitude. -/
  | up
deriving DecidableEq

/-- A decimal `digits · 10 ^ exponent`. -/
structure Decimal where
  /-- The coefficient. -/
  digits : Nat
  /-- The exponent of ten. -/
  exponent : Int
deriving DecidableEq, Inhabited

namespace Decimal

/-- Move zeros at the end of the coefficient into the exponent, at most `fuel` of them. -/
def trim : Nat → Decimal → Decimal
  | 0, d => d
  | fuel + 1, d =>
    if d.digits ≠ 0 ∧ d.digits % 10 = 0 then trim fuel ⟨d.digits / 10, d.exponent + 1⟩ else d

/-- The number nearest to a decimal. Exponents beyond what the format holds are cut off before any
power is formed: they give an infinity, or a zero. -/
def toBinary64 (negative : Bool) (d : Decimal) : Binary64 :=
  let width : Int := (Nat.toDigits 10 d.digits).length
  if d.digits = 0 then .zero negative
  else if 400 < width + d.exponent then .infinity negative
  else if width + d.exponent < -400 then .zero negative
  else if 0 ≤ d.exponent then .nearest negative (d.digits * Nat.pow 10 d.exponent.toNat) 1
  else .nearest negative d.digits (Nat.pow 10 (-d.exponent).toNat)

end Decimal

namespace Binary64

/-- The reals that round to one number, in units of a quarter of its last place. -/
structure RoundingInterval where
  /-- The lower end. -/
  lower : Nat
  /-- The number itself. -/
  centre : Nat
  /-- The upper end. -/
  upper : Nat
  /-- Whether the ends belong to the interval. -/
  closed : Bool
  /-- The exponent of two of the unit. -/
  scale : Int

/-- The interval of a finite non-zero number. Below a power of two the neighbour is half as far. -/
def roundingInterval (x : Binary64) : RoundingInterval :=
  let m := x.significand
  let narrow := m = hiddenBit ∧ 1 < x.exponentField
  ⟨if narrow then 4 * m - 1 else 4 * m - 2, 4 * m, 4 * m + 2, m % 2 == 0, x.scale - 2⟩

/-- Whether `point · denominator`, compared with the ends times `numerator`, lies inside. -/
def RoundingInterval.holds (i : RoundingInterval) (numerator denominator point : Nat) : Bool :=
  let p := point * denominator
  if i.closed then decide (i.lower * numerator ≤ p) && decide (p ≤ i.upper * numerator)
  else decide (i.lower * numerator < p) && decide (p < i.upper * numerator)

/-- The unit of the interval over `10 ^ exponent`, as a quotient of naturals. -/
def RoundingInterval.ratio (i : RoundingInterval) (exponent : Int) : Nat × Nat :=
  let two := Nat.pow 2 i.scale.natAbs
  let ten := Nat.pow 10 exponent.natAbs
  let (n, d) := if 0 ≤ i.scale then (two, 1) else (1, two)
  if 0 ≤ exponent then (n, d * ten) else (n * ten, d)

/-- The decimal on the grid of `10 ^ exponent` that lies in the interval, nearest to its centre. -/
def RoundingInterval.onGrid (i : RoundingInterval) (tie : DecimalTie) (exponent : Int) :
    Option Decimal :=
  let (n, d) := i.ratio exponent
  let below := i.centre * n / d
  let rest := i.centre * n - below * d
  let inBelow := below != 0 && i.holds n d below
  let inAbove := i.holds n d (below + 1)
  let preferBelow :=
    if 2 * rest < d then true
    else if d < 2 * rest then false
    else match tie with
      | .up => false
      | .toEven => below % 2 == 0
  if inBelow && inAbove then some ⟨if preferBelow then below else below + 1, exponent⟩
  else if inBelow then some ⟨below, exponent⟩
  else if inAbove then some ⟨below + 1, exponent⟩
  else none

/-- The exponent `e` with `10 ^ e ≤ centre < 10 ^ (e + 1)`: an estimate from the exponent of two,
raised while the power above is still reached. -/
def RoundingInterval.floorLog10 (i : RoundingInterval) : Int :=
  let two : Int := (i.centre.log2 : Int) + i.scale
  let estimate := two * 30103 / 100000 - 1
  let reached (e : Int) : Bool := let (n, d) := i.ratio e; decide (d ≤ i.centre * n)
  if reached (estimate + 2) then estimate + 2
  else if reached (estimate + 1) then estimate + 1
  else estimate

/-- Try one digit more on each step, the grid becoming ten times finer. -/
def RoundingInterval.search (i : RoundingInterval) (tie : DecimalTie) : Nat → Int → Decimal
  | 0, exponent => ⟨0, exponent⟩
  | fuel + 1, exponent =>
    match i.onGrid tie exponent with
    | some d => d.trim 20
    | none => i.search tie fuel (exponent - 1)

/-- The shortest decimal that reads back as this finite non-zero number, sign aside. Seventeen
digits always suffice. -/
def shortest (x : Binary64) (tie : DecimalTie) : Decimal :=
  let i := x.roundingInterval
  i.search tie 18 i.floorLog10

end Binary64
end QueryRelay
