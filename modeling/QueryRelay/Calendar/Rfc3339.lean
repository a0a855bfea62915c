import QueryRelay.Calendar.Timestamp
import QueryRelay.Text.Blank

/-!
# Timestamps as text

The written form is `year-month-dayThour:minute:second`, a fraction of three, six or nine digits
when the second is not whole, and the offset from universal time, which is always zero: `+00:00`
where a value is shown, `Z` inside payloads. Two readers exist. The strict one takes fields of
fixed width at fixed places; the lenient one, used for payloads, allows blanks around the fields,
short fields, signed years and looser offsets.
-/

namespace QueryRelay

/-- Why a text is not a timestamp. -/
inductive TimestampFault where
  /-- The text ends too early. -/
  | tooShort
  /-- A character does not belong where it stands. -/
  | invalid
  /-- Something follows the timestamp. -/
  | tooLong
  /-- A field is beyond its range. -/
  | outOfRange
  /-- The time in its zone is not representable. -/
  | impossible
deriving DecidableEq

/-- The wording of a fault. -/
def TimestampFault.message : TimestampFault → String
  | .tooShort => "premature end of input"
  | .invalid => "input contains invalid characters"
  | .tooLong => "trailing input"
  | .outOfRange => "input is out of range"
  | .impossible => "no possible date and time matching input"

namespace Timestamp

/-! ## Writing -/

/-- A natural with at least `width` digits. -/
def padded (width n : Nat) : String :=
  let digits := Nat.toDigits 10 n
  String.ofList (List.replicate (width - digits.length) '0' ++ digits)

/-- A year: four digits, with a sign outside 0 to 9999. -/
def yearText (year : Int) : String :=
  if 0 ≤ year ∧ year ≤ 9999 then padded 4 year.toNat
  else (if year < 0 then "-" else "+") ++ padded 4 year.natAbs

/-- The fraction of a second, with the fewest groups of three digits. -/
def fractionText (nanos : Nat) : String :=
  if nanos = 0 then ""
  else if nanos % 1000000 = 0 then "." ++ padded 3 (nanos / 1000000)
  else if nanos % 1000 = 0 then "." ++ padded 6 (nanos / 1000)
  else "." ++ padded 9 nanos

/-- The written form with the given spelling of universal time. -/
def write (t : Timestamp) (zone : String) : String :=
  let date := t.date
  let second := t.secondOfDay
  let leap := if t.isLeapSecond then 1 else 0
  yearText date.year ++ "-" ++ padded 2 date.month ++ "-" ++ padded 2 date.day ++ "T" ++
    padded 2 (second / 3600) ++ ":" ++ padded 2 (second / 60 % 60) ++ ":" ++
    padded 2 (second % 60 + leap) ++ fractionText (t.nanos % 1000000000) ++ zone

/-- The form in which a value is shown. -/
def plainText (t : Timestamp) : String := t.write "+00:00"

/-- The form used inside payloads. -/
def payloadText (t : Timestamp) : String := t.write "Z"

/-! ## Reading -/

/-- A reader of timestamp fields: it consumes characters or gives a fault. -/
abbrev FieldReader := StateT (List Char) (Except TimestampFault)

/-- The number of bytes of the rest of the text. -/
def bytesLeft : List Char → Nat
  | [] => 0
  | c :: rest => c.utf8Size + bytesLeft rest

/-- The number a list of digits denotes. -/
def numberOf (digits : List Char) : Nat :=
  digits.foldl (fun n c => 10 * n + (c.toNat - '0'.toNat)) 0

/-- Read between `least` and `most` digits; `most` being `none` sets no bound. -/
def readDigits (least : Nat) (most : Option Nat) : FieldReader Nat := do
  let cs ← get
  let digits := (match most with
    | some n => cs.take n
    | none => cs).takeWhile Char.isDigit
  if bytesLeft cs < least then throw .tooShort
  else if digits.length < least then throw .invalid
  else if 9223372036854775807 < numberOf digits then throw .outOfRange
  else
    set (cs.drop digits.length)
    return numberOf digits

/-- Read a field that must lie between two bounds. -/
def readField (least width low high : Nat) : FieldReader Nat := do
  let n ← readDigits least (some width)
  if n < low ∨ high < n then throw .outOfRange else return n

/-- Read one given character. -/
def readChar (expected : Char) : FieldReader Unit := do
  match ← get with
  | [] => throw .tooShort
  | c :: rest => if c = expected then set rest else throw .invalid

/-- Skip white space. -/
def skipBlanks : FieldReader Unit := modify Text.trimStart

/-- Read the character between date and time. -/
def readSeparator : FieldReader Unit := do
  match ← get with
  | [] => throw .tooShort
  | c :: rest => if c = 't' ∨ c = 'T' ∨ c = ' ' then set rest else throw .invalid

/-- Read the nanoseconds after a point; digits beyond the ninth are dropped. -/
def readFraction : FieldReader Nat := do
  match ← get with
  | '.' :: rest =>
    let width := ((rest.take 9).takeWhile Char.isDigit).length
    set rest
    let n ← readDigits 1 (some 9)
    modify (·.dropWhile Char.isDigit)
    return n * Nat.pow 10 (9 - width)
  | _ => return 0

/-- The two characters of an hour or minute of an offset. -/
def readPair (fault : Char → Char → Option TimestampFault) : FieldReader Nat := do
  match ← get with
  | a :: b :: rest =>
    match fault a b with
    | some f => throw f
    | none =>
      set rest
      return numberOf [a, b]
  | cs => throw (if bytesLeft cs < 2 then .tooShort else .invalid)

/-- Read an offset from universal time, in seconds; `betweenFields` consumes what may stand between
hour and minute. -/
def readOffset (betweenFields : FieldReader Unit) : FieldReader Int := do
  match ← get with
  | [] => throw .tooShort
  | c :: rest =>
    if c = 'Z' ∨ c = 'z' then
      set rest
      return 0
    else if c = '+' ∨ c = '-' ∨ c = '−' then
      set rest
      let hours ← readPair fun a b => if a.isDigit && b.isDigit then none else some .invalid
      betweenFields
      let minutes ← readPair fun a b =>
        if !a.isDigit || !b.isDigit then some .invalid
        else if '6' ≤ a then some .outOfRange
        else none
      let seconds : Int := hours * 3600 + minutes * 60
      return (if c = '+' then seconds else -seconds)
    else throw .invalid

/-- The fields of a timestamp as they were read. -/
structure Fields where
  /-- The calendar date. -/
  date : CivilDate
  /-- The hour of the day. -/
  hour : Nat
  /-- The minute of the hour. -/
  minute : Nat
  /-- The second of the minute; sixty for a leap second. -/
  second : Nat
  /-- Nanoseconds within the second. -/
  nanos : Nat
  /-- Seconds by which the zone is ahead of universal time. -/
  offset : Int

/-- The timestamp that the fields denote. -/
def ofFields (f : Fields) : Except TimestampFault Timestamp :=
  if !f.date.isValid || f.date.year < firstYear || lastYear < f.date.year then .error .outOfRange
  else if f.offset ≤ -86400 ∨ 86400 ≤ f.offset then .error .outOfRange
  else
    let (second, nanos) := if f.second = 60 then (59, f.nanos + 1000000000) else (f.second, f.nanos)
    let seconds := f.date.toDays * 86400 + (f.hour * 3600 + f.minute * 60 + second : Nat) - f.offset
    if inRange seconds then .ok ⟨seconds, nanos⟩ else .error .impossible

/-- Run a reader over a whole text; `atEnd` consumes what may follow the fields. -/
def readWhole (fields : FieldReader Fields) (atEnd : FieldReader Unit) (s : String) :
    Except TimestampFault Timestamp := do
  let (f, rest) ← (do let f ← fields; atEnd; return f : FieldReader Fields).run s.toList
  if rest.isEmpty then ofFields f else .error .tooLong

/-- The shortest date and time of the strict form, in bytes. -/
def strictWidth : Nat := 19

/-- The fields of the strict form. The text must be long enough for a date and a time before any
of it is looked at; the date must exist before the time is read, and the time must exist before
the offset is. -/
def strictFields : FieldReader Fields := do
  if bytesLeft (← get) < strictWidth then throw .tooShort
  let year ← readDigits 4 (some 4)
  readChar '-'
  let month ← readDigits 2 (some 2)
  readChar '-'
  let day ← readDigits 2 (some 2)
  let date : CivilDate := ⟨year, month, day⟩
  if !date.isValid then throw .outOfRange
  readSeparator
  let hour ← readDigits 2 (some 2)
  readChar ':'
  let minute ← readDigits 2 (some 2)
  readChar ':'
  let second ← readDigits 2 (some 2)
  let nanos ← readFraction
  if 23 < hour ∨ 59 < minute ∨ 60 < second then throw .outOfRange
  let offset ← readOffset (readChar ':')
  return ⟨date, hour, minute, second, nanos, offset⟩

/-- The year of the lenient form: up to four digits, or a sign and any number of digits. -/
def lenientYear : FieldReader Int := do
  skipBlanks
  match ← get with
  | '-' :: rest =>
    set rest
    let n ← readDigits 1 none
    return -n
  | '+' :: rest =>
    set rest
    let n ← readDigits 1 none
    return n
  | _ =>
    let n ← readDigits 1 (some 4)
    return n

/-- A field of the lenient form: one or two digits after blanks. -/
def lenientField (low high : Nat) : FieldReader Nat := do
  skipBlanks
  readField 1 2 low high

/-- A mark between lenient fields, after blanks. -/
def lenientMark (mark : Char) : FieldReader Unit := do
  skipBlanks
  readChar mark

/-- The offset of the lenient form: `UTC` in any case, or an offset whose hour and minute may be
set apart by colons and blanks. -/
def lenientOffset : FieldReader Int := do
  skipBlanks
  let cs ← get
  if String.ofList ((cs.take 3).map Char.toLower) = "utc" then
    set (cs.drop 3)
    return 0
  else readOffset (modify (·.dropWhile fun c => c == ':' || Text.isBlank c))

/-- The fields of the lenient form. -/
def lenientFields : FieldReader Fields := do
  let year ← lenientYear
  if year < -2147483648 ∨ 2147483647 < year then throw .outOfRange
  lenientMark '-'
  let month ← lenientField 1 12
  lenientMark '-'
  let day ← lenientField 1 31
  readSeparator
  let hour ← lenientField 0 23
  lenientMark ':'
  let minute ← lenientField 0 59
  lenientMark ':'
  let second ← lenientField 0 60
  let nanos ← readFraction
  let offset ← lenientOffset
  return ⟨⟨year, month, day⟩, hour, minute, second, nanos, offset⟩

/-- Read the strict form. -/
def readStrict (s : String) : Except TimestampFault Timestamp :=
  readWhole strictFields (pure ()) s

/-- Read the lenient form. -/
def readLenient (s : String) : Except TimestampFault Timestamp :=
  readWhole lenientFields skipBlanks s

end Timestamp
end QueryRelay
