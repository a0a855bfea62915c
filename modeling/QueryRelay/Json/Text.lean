import QueryRelay.Json.Syntax

/-!
# Texts inside JSON documents

A text is written with two-character forms for the quote, the backslash and the five common
controls, and with a code for the other controls; all else stands for itself. The reader also takes
an escaped slash and any code, where a code from the high surrogate range must be followed by one
from the low range and the pair stands for one character.
-/

namespace QueryRelay.Json

/-- A hexadecimal digit below sixteen. -/
def hexDigit (n : Nat) : Char := Nat.digitChar (n % 16)

/-- The written form of a character. -/
def escapeChar (c : Char) : List Char :=
  if c = '"' then ['\\', '"']
  else if c = '\\' then ['\\', '\\']
  else if c = '\x08' then ['\\', 'b']
  else if c = '\x0c' then ['\\', 'f']
  else if c = '\n' then ['\\', 'n']
  else if c = '\r' then ['\\', 'r']
  else if c = '\t' then ['\\', 't']
  else if c < ' ' then ['\\', 'u', '0', '0', hexDigit (c.toNat / 16), hexDigit c.toNat]
  else [c]

/-- The written form of a text, between its quotes. -/
def escape (cs : List Char) : List Char := cs.flatMap escapeChar

/-- The value of a hexadecimal digit. -/
def hexValue (c : Char) : Nat :=
  if c.isDigit then c.toNat - '0'.toNat
  else if 'a' ≤ c then c.toNat - 'a'.toNat + 10
  else c.toNat - 'A'.toNat + 10

/-- The value of four hexadecimal digits. -/
def codeOf (a b c d : Char) : Nat :=
  ((hexValue a * 16 + hexValue b) * 16 + hexValue c) * 16 + hexValue d

/-- Whether a code is the first of a pair. -/
def isHighSurrogate (n : Nat) : Bool := decide (0xD800 ≤ n) && decide (n ≤ 0xDBFF)

/-- Whether a code is the second of a pair. -/
def isLowSurrogate (n : Nat) : Bool := decide (0xDC00 ≤ n) && decide (n ≤ 0xDFFF)

/-- The character that a backslash and another character stand for. -/
def escapedChar (e : Char) : Char :=
  if e = 'b' then '\x08'
  else if e = 'f' then '\x0c'
  else if e = 'n' then '\n'
  else if e = 'r' then '\r'
  else if e = 't' then '\t'
  else e

/-- The text that a well-formed body stands for, if all its codes are characters. -/
def unescape : List Char → Option (List Char)
  | [] => some []
  | '\\' :: 'u' :: a :: b :: c :: d :: '\\' :: 'u' :: a' :: b' :: c' :: d' :: rest =>
    let code := codeOf a b c d
    let next := codeOf a' b' c' d'
    if isLowSurrogate code then none
    else if isHighSurrogate code then
      if isLowSurrogate next then
        (unescape rest).map
          (Char.ofNat (0x10000 + (code - 0xD800) * 0x400 + (next - 0xDC00)) :: ·)
      else none
    else (unescape ('\\' :: 'u' :: a' :: b' :: c' :: d' :: rest)).map (Char.ofNat code :: ·)
  | '\\' :: 'u' :: a :: b :: c :: d :: rest =>
    let code := codeOf a b c d
    if isLowSurrogate code || isHighSurrogate code then none
    else (unescape rest).map (Char.ofNat code :: ·)
  | '\\' :: e :: rest => (unescape rest).map (escapedChar e :: ·)
  | c :: rest => (unescape rest).map (c :: ·)

/-- A text as a document. -/
def ofText (s : String) : Json := .string (escape s.toList)

/-- The text that a body stands for. -/
def bodyText? (body : List Char) : Option String := (unescape body).map String.ofList

/-- The text of a document that is one. -/
def text? : Json → Option String
  | .string body => bodyText? body
  | _ => none

end QueryRelay.Json
