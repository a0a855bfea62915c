import QueryRelay.Calendar.Timestamp
import QueryRelay.Number.Text
import QueryRelay.Toml.Basic

/-!
# Numbers and moments in TOML documents

Digits may be set apart by single underscores. An integer may be written to the bases two, eight and
sixteen; a floating-point number needs a fraction or an exponent. A moment is a date, a time of day,
or both with an optional offset.
-/

namespace QueryRelay.Toml

/-- Read digits that may be set apart by single underscores. -/
def readRun (isDigit : Char → Bool) : List Char → List Char × List Char
  | '_' :: c :: rest =>
    if isDigit c then
      let (digits, rest) := readRun isDigit rest
      (c :: digits, rest)
    else ([], '_' :: c :: rest)
  | c :: rest =>
    if isDigit c then
      let (digits, rest) := readRun isDigit rest
      (c :: digits, rest)
    else ([], c :: rest)
  | [] => ([], [])

/-- Read at least one digit, and no underscore before it. -/
def readDigits? (isDigit : Char → Bool) : List Char → Option (List Char × List Char)
  | c :: rest => if isDigit c then some (readRun isDigit (c :: rest)) else none
  | [] => none

/-- The value of a digit. -/
def digitOf (c : Char) : Nat :=
  if c.isDigit then c.toNat - 48 else if c.isLower then c.toNat - 87 else c.toNat - 55

/-- Whether this is a digit to a base. -/
def isDigitOf (base : Nat) (c : Char) : Bool := c.isAlphanum && decide (digitOf c < base)

/-- An integer, if it fits. -/
def integerOf? (n : Int) : Option Toml :=
  if n = n.bmod 18446744073709551616 then some (.integer (.ofInt n)) else none

/-- Read a natural to a base. -/
def readBased? (base : Nat) (cs : List Char) : Option (Toml × List Char) := do
  let (digits, rest) ← readDigits? (isDigitOf base) cs
  return (← integerOf? (digits.foldl (fun n c => n * base + digitOf c) 0), rest)

/-- Read the sign and the digits of a whole number: a zero, or digits that start with another
one. -/
def readWhole? (cs : List Char) : Option ((List Char × List Char) × List Char) := do
  let (sign, cs) := match cs with
    | '-' :: rest => (['-'], rest)
    | '+' :: rest => ([], rest)
    | cs => ([], cs)
  match cs with
  | '0' :: rest => return ((sign, ['0']), rest)
  | cs =>
    let (digits, rest) ← readDigits? Char.isDigit cs
    return ((sign, digits), rest)

/-- Read an exponent; it is empty if there is none. -/
def readExponent? : List Char → Option (List Char × List Char)
  | c :: rest =>
    if c = 'e' ∨ c = 'E' then do
      let (sign, rest) := match rest with
        | '-' :: rest => (['-'], rest)
        | '+' :: rest => ([], rest)
        | rest => ([], rest)
      let (digits, rest) ← readDigits? Char.isDigit rest
      return ('e' :: sign ++ digits, rest)
    else some ([], c :: rest)
  | [] => some ([], [])

/-- The floating-point number of some digits; one above all finite ones is refused. -/
def floatOf? (lexeme : List Char) : Option Toml :=
  match Binary64.ofText? lexeme with
  | some x => if x.isInfinite && !x.isNegative then none else some (.float x)
  | none => none

/-- Read a number in decimal digits. -/
def readDecimal? (cs : List Char) : Option (Toml × List Char) := do
  let ((sign, whole), rest) ← readWhole? cs
  let (fraction, rest) ← match rest with
    | '.' :: rest => (readDigits? Char.isDigit rest).map fun (f, rest) => ('.' :: f, rest)
    | rest => some ([], rest)
  let (exponent, rest) ← readExponent? rest
  if fraction.isEmpty && exponent.isEmpty then
    let n : Int := whole.foldl (fun n c => n * 10 + digitOf c) 0
    return (← integerOf? (if sign.isEmpty then n else -n), rest)
  else return (← floatOf? (sign ++ whole ++ fraction ++ exponent), rest)

/-- Read a number that is not given by digits. -/
def readNamed? : List Char → Option (Toml × List Char)
  | '-' :: 'i' :: 'n' :: 'f' :: rest => some (.float (.infinity true), rest)
  | '+' :: 'i' :: 'n' :: 'f' :: rest => some (.float (.infinity false), rest)
  | 'i' :: 'n' :: 'f' :: rest => some (.float (.infinity false), rest)
  | '-' :: 'n' :: 'a' :: 'n' :: rest => some (.float .invalid, rest)
  | '+' :: 'n' :: 'a' :: 'n' :: rest => some (.float .nan, rest)
  | 'n' :: 'a' :: 'n' :: rest => some (.float .nan, rest)
  | _ => none

/-- Read a number. -/
def readNumber? : List Char → Option (Toml × List Char)
  | '0' :: 'x' :: rest => readBased? 16 rest
  | '0' :: 'o' :: rest => readBased? 8 rest
  | '0' :: 'b' :: rest => readBased? 2 rest
  | cs => (readNamed? cs).or (readDecimal? cs)

/-! ## Moments -/

/-- Read a number of just so many digits, between two bounds. -/
def readFixed? (width low high : Nat) (cs : List Char) : Option (Nat × List Char) :=
  let digits := cs.take width
  let n := digits.foldl (fun n c => n * 10 + digitOf c) 0
  if digits.length = width ∧ digits.all Char.isDigit ∧ low ≤ n ∧ n ≤ high then
    some (n, cs.drop width)
  else none

/-- Read a mark. -/
def readMark? (mark : Char) : List Char → Option (List Char)
  | c :: rest => if c = mark then some rest else none
  | [] => none

/-- Read a date. -/
def readDate? (cs : List Char) : Option (List Char) := do
  let (year, cs) ← readFixed? 4 0 9999 cs
  let (month, cs) ← readFixed? 2 1 12 (← readMark? '-' cs)
  let (_, cs) ← readFixed? 2 1 (CivilDate.daysInMonth year month) (← readMark? '-' cs)
  return cs

/-- Read hours and minutes. -/
def readClock? (cs : List Char) : Option (List Char) := do
  let (_, cs) ← readFixed? 2 0 23 cs
  let (_, cs) ← readFixed? 2 0 59 (← readMark? ':' cs)
  return cs

/-- Read a time of day. -/
def readTime? (cs : List Char) : Option (List Char) := do
  let (_, cs) ← readFixed? 2 0 60 (← readMark? ':' (← readClock? cs))
  match cs with
  | '.' :: rest =>
    if (rest.takeWhile Char.isDigit).isEmpty then return '.' :: rest
    else return rest.dropWhile Char.isDigit
  | cs => return cs

/-- Skip an offset. -/
def skipOffset : List Char → List Char
  | c :: rest =>
    if c = 'Z' ∨ c = 'z' then rest
    else if c = '+' ∨ c = '-' then (readClock? rest).getD (c :: rest)
    else c :: rest
  | [] => []

/-- Skip the time that may follow a date. -/
def skipTime : List Char → List Char
  | c :: rest =>
    if c = 'T' ∨ c = 't' ∨ c = ' ' then
      match readTime? rest with
      | some rest => skipOffset rest
      | none => c :: rest
    else c :: rest
  | [] => []

/-- Read a moment. -/
def readMoment? (cs : List Char) : Option (List Char) :=
  match readDate? cs with
  | some rest => some (skipTime rest)
  | none => readTime? cs

/-- Read a number or a moment. -/
def readScalar? (cs : List Char) : Option (Toml × List Char) :=
  match readMoment? cs with
  | some rest => some (.moment, rest)
  | none => readNumber? cs

end QueryRelay.Toml
