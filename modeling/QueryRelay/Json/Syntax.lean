/-!
# The syntax of JSON documents

A document is read into a tree that keeps the leaves as they were written: a number is its
characters, a text is what stands between its quotes, and an object lists its members as they come,
repeated names included. What the leaves mean is decided by who uses them, so a part that nobody
asks for only has to be well formed. The writer puts the same characters back without blanks.
-/

namespace QueryRelay

/-- A document as written. -/
inductive Json where
  /-- The word `null`. -/
  | null
  /-- One of the words `true` and `false`. -/
  | bool (b : Bool)
  /-- A number as written. -/
  | number (lexeme : List Char)
  /-- A text as written between its quotes. -/
  | string (body : List Char)
  /-- An array. -/
  | array (items : List Json)
  /-- An object: each name as written between its quotes, and the member. -/
  | object (members : List (List Char × Json))
deriving Inhabited

namespace Json

/-! ## Writing -/

/-- Put a comma between texts. -/
def separated : List (List Char) → List Char
  | [] => []
  | [t] => t
  | t :: rest => t ++ ',' :: separated rest

mutual

/-- The document without blanks. -/
def write : Json → List Char
  | .null => ['n', 'u', 'l', 'l']
  | .bool true => ['t', 'r', 'u', 'e']
  | .bool false => ['f', 'a', 'l', 's', 'e']
  | .number lexeme => lexeme
  | .string body => '"' :: (body ++ ['"'])
  | .array items => '[' :: (separated (writeItems items) ++ [']'])
  | .object members => '\x7b' :: (separated (writeMembers members) ++ ['\x7d'])
termination_by structural j => j

/-- The items of an array. -/
def writeItems : List Json → List (List Char)
  | [] => []
  | j :: rest => write j :: writeItems rest
termination_by structural items => items

/-- The members of an object, each after its name and a colon. -/
def writeMembers : List (List Char × Json) → List (List Char)
  | [] => []
  | (name, j) :: rest => ('"' :: (name ++ '"' :: ':' :: write j)) :: writeMembers rest
termination_by structural members => members

end

/-- The text of a document. -/
def toText (j : Json) : String := String.ofList j.write

/-! ## Reading -/

/-- The four characters that may stand between tokens. -/
def isSpace (c : Char) : Bool := c == ' ' || c == '\t' || c == '\n' || c == '\r'

/-- Skip what may stand between tokens. -/
def skipSpace (cs : List Char) : List Char := cs.dropWhile isSpace

/-- Whether a character is a hexadecimal digit. -/
def isHex (c : Char) : Bool :=
  c.isDigit || (decide ('a' ≤ c) && decide (c ≤ 'f')) || (decide ('A' ≤ c) && decide (c ≤ 'F'))

/-- The characters that may follow a backslash, apart from `u`. -/
def isEscape (c : Char) : Bool :=
  c == '"' || c == '\\' || c == '/' || c == 'b' || c == 'f' || c == 'n' || c == 'r' || c == 't'

/-- Read a text after its opening quote: what stands before the closing one, and the rest. -/
def readBody : List Char → Option (List Char × List Char)
  | [] => none
  | '"' :: rest => some ([], rest)
  | '\\' :: 'u' :: a :: b :: c :: d :: rest =>
    if isHex a && isHex b && isHex c && isHex d then
      (readBody rest).map fun (body, rest) => ('\\' :: 'u' :: a :: b :: c :: d :: body, rest)
    else none
  | '\\' :: e :: rest =>
    if isEscape e then (readBody rest).map fun (body, rest) => ('\\' :: e :: body, rest) else none
  | c :: rest =>
    if c = '\\' ∨ c < ' ' then none else (readBody rest).map fun (body, rest) => (c :: body, rest)

/-- Split the decimal digits off the front; at least one is needed. -/
def readDigits? (cs : List Char) : Option (List Char × List Char) :=
  let digits := cs.takeWhile Char.isDigit
  if digits.isEmpty then none else some (digits, cs.dropWhile Char.isDigit)

/-- The whole part of a number: a zero, or digits that start with another one. -/
def readWhole? : List Char → Option (List Char × List Char)
  | '0' :: rest =>
    match rest with
    | c :: _ => if c.isDigit then none else some (['0'], rest)
    | [] => some (['0'], [])
  | cs => readDigits? cs

/-- The fraction of a number, if there is one. -/
def readFraction? : List Char → Option (List Char × List Char)
  | '.' :: rest => (readDigits? rest).map fun (digits, rest) => ('.' :: digits, rest)
  | cs => some ([], cs)

/-- The exponent of a number, if there is one. -/
def readExponent? : List Char → Option (List Char × List Char)
  | c :: rest =>
    if c = 'e' ∨ c = 'E' then
      match rest with
      | s :: rest =>
        if s = '+' ∨ s = '-' then
          (readDigits? rest).map fun (digits, rest) => (c :: s :: digits, rest)
        else (readDigits? (s :: rest)).map fun (digits, rest) => (c :: digits, rest)
      | [] => none
    else some ([], c :: rest)
  | [] => some ([], [])

/-- Read a number. -/
def readNumber? (cs : List Char) : Option (List Char × List Char) := do
  let (sign, cs) := match cs with
    | '-' :: rest => (['-'], rest)
    | _ => ([], cs)
  let (whole, cs) ← readWhole? cs
  let (fraction, cs) ← readFraction? cs
  let (exponent, cs) ← readExponent? cs
  return (sign ++ whole ++ fraction ++ exponent, cs)

mutual

/-- Read one document and return the rest. The fuel bounds the number of tokens read. -/
def readValue : Nat → List Char → Option (Json × List Char)
  | 0, _ => none
  | fuel + 1, cs =>
    match skipSpace cs with
    | 'n' :: 'u' :: 'l' :: 'l' :: rest => some (.null, rest)
    | 't' :: 'r' :: 'u' :: 'e' :: rest => some (.bool true, rest)
    | 'f' :: 'a' :: 'l' :: 's' :: 'e' :: rest => some (.bool false, rest)
    | '"' :: rest => (readBody rest).map fun (body, rest) => (.string body, rest)
    | '[' :: rest =>
      match skipSpace rest with
      | ']' :: rest => some (.array [], rest)
      | rest => (readItems fuel rest).map fun (items, rest) => (.array items, rest)
    | '\x7b' :: rest =>
      match skipSpace rest with
      | '\x7d' :: rest => some (.object [], rest)
      | rest => (readMembers fuel rest).map fun (members, rest) => (.object members, rest)
    | rest => (readNumber? rest).map fun (lexeme, rest) => (.number lexeme, rest)
termination_by structural fuel => fuel

/-- Read the items of an array, at least one, and the closing bracket. -/
def readItems : Nat → List Char → Option (List Json × List Char)
  | 0, _ => none
  | fuel + 1, cs =>
    match readValue fuel cs with
    | none => none
    | some (item, rest) =>
      match skipSpace rest with
      | ',' :: rest => (readItems fuel rest).map fun (items, rest) => (item :: items, rest)
      | ']' :: rest => some ([item], rest)
      | _ => none
termination_by structural fuel => fuel

/-- Read the members of an object, at least one, and the closing brace. -/
def readMembers : Nat → List Char → Option (List (List Char × Json) × List Char)
  | 0, _ => none
  | fuel + 1, cs =>
    match skipSpace cs with
    | '"' :: rest =>
      match readBody rest with
      | none => none
      | some (name, rest) =>
        match skipSpace rest with
        | ':' :: rest =>
          match readValue fuel rest with
          | none => none
          | some (member, rest) =>
            match skipSpace rest with
            | ',' :: rest =>
              (readMembers fuel rest).map fun (members, rest) => ((name, member) :: members, rest)
            | '\x7d' :: rest => some ([(name, member)], rest)
            | _ => none
        | _ => none
    | _ => none
termination_by structural fuel => fuel

end

/-- Read a text that holds one document and nothing else. -/
def read? (s : String) : Option Json :=
  match readValue (s.length + 1) s.toList with
  | some (j, rest) => if (skipSpace rest).isEmpty then some j else none
  | none => none

end Json
end QueryRelay
