import QueryRelay.Json.Text

/-!
# Texts and keys in TOML documents

A text stands in double quotes, where a backslash escapes, or in single quotes, where nothing does;
three quotes enclose a text of several lines, whose first line end is left out if it follows the
opening quotes at once. A key is one or more names joined by dots; a name is bare or a text of one
line.
-/

namespace QueryRelay.Toml

/-- A character that may stand in a document outside of line ends. -/
def isPlain (c : Char) : Bool :=
  c == '\t' || (decide (' ' ≤ c) && decide (c ≤ '~')) || decide ('\x80' ≤ c)

/-- Skip spaces and tabs. -/
def skipBlanks (cs : List Char) : List Char := cs.dropWhile fun c => c == ' ' || c == '\t'

/-- Read a line end. -/
def readNewline? : List Char → Option (List Char)
  | '\n' :: rest => some rest
  | '\r' :: '\n' :: rest => some rest
  | _ => none

/-- Skip a comment. -/
def skipComment : List Char → List Char
  | '#' :: rest => rest.dropWhile isPlain
  | cs => cs

/-- Skip blanks, comments and line ends; each line takes a character, which is what the fuel
bounds. -/
def skipLinesWithin : Nat → List Char → List Char
  | 0, cs => cs
  | fuel + 1, cs =>
    match readNewline? (skipComment (skipBlanks cs)) with
    | some rest => skipLinesWithin fuel rest
    | none => skipBlanks cs

/-- Skip blanks, comments and line ends. -/
def skipLines (cs : List Char) : List Char := skipLinesWithin (cs.length + 1) cs

/-- Read to the end of a line on which nothing else may stand. -/
def endLine? (cs : List Char) : Option (List Char) :=
  match skipComment (skipBlanks cs) with
  | [] => some []
  | rest => readNewline? rest

/-! ## Texts -/

/-- The character after a backslash. -/
def escaped? : Char → Option Char
  | 'b' => some '\x08'
  | 't' => some '\t'
  | 'n' => some '\n'
  | 'f' => some '\x0c'
  | 'r' => some '\r'
  | '"' => some '"'
  | '\\' => some '\\'
  | _ => none

/-- The character whose code has these hexadecimal digits. -/
def ofCode? (digits : List Char) : Option Char :=
  let code := digits.foldl (fun n c => n * 16 + Json.hexValue c) 0
  if h : digits.all Json.isHex ∧ code.isValidChar then some (Char.ofNatAux code h.2) else none

/-- Put a character in front of what was read. -/
def consRead (c : Char) : Option (List Char × List Char) → Option (List Char × List Char)
  | some (body, rest) => some (c :: body, rest)
  | none => none

/-- Put a character, if there is one, in front of what was read. -/
def consRead? (c : Option Char) (r : Option (List Char × List Char)) :
    Option (List Char × List Char) :=
  c.bind fun c => consRead c r

/-- Read a text of one line after its opening double quote. -/
def readBasic : List Char → Option (List Char × List Char)
  | [] => none
  | '"' :: rest => some ([], rest)
  | '\\' :: 'u' :: a :: b :: c :: d :: rest => consRead? (ofCode? [a, b, c, d]) (readBasic rest)
  | '\\' :: 'U' :: a :: b :: c :: d :: e :: f :: g :: h :: rest =>
    consRead? (ofCode? [a, b, c, d, e, f, g, h]) (readBasic rest)
  | '\\' :: e :: rest => consRead? (escaped? e) (readBasic rest)
  | c :: rest => if isPlain c && c != '\\' then consRead c (readBasic rest) else none

/-- Read a text of one line after its opening single quote. -/
def readLiteral : List Char → Option (List Char × List Char)
  | [] => none
  | '\'' :: rest => some ([], rest)
  | c :: rest => if isPlain c then consRead c (readLiteral rest) else none

/-- After three closing quotes up to two more belong to the text. -/
def closeLines (quote : Char) : List Char → List Char × List Char
  | c :: d :: rest =>
    if c = quote then if d = quote then ([c, d], rest) else ([c], d :: rest)
    else ([], c :: d :: rest)
  | [c] => if c = quote then ([c], []) else ([], [c])
  | [] => ([], [])

/-- Whether a line end follows, blanks apart. -/
def endsLine (cs : List Char) : Bool := (readNewline? (skipBlanks cs)).isSome

/-- Read a text of several lines after its opening double quotes. A backslash at the end of a line
takes away the blanks and line ends up to the next character, which is what `skipping` does. -/
def readBasicLines (skipping : Bool) : List Char → Option (List Char × List Char)
  | [] => none
  | '\r' :: '\n' :: rest =>
    if skipping then readBasicLines true rest else consRead '\n' (readBasicLines false rest)
  | '\n' :: rest =>
    if skipping then readBasicLines true rest else consRead '\n' (readBasicLines false rest)
  | '"' :: '"' :: '"' :: rest => some (closeLines '"' rest)
  | '\\' :: 'u' :: a :: b :: c :: d :: rest =>
    consRead? (ofCode? [a, b, c, d]) (readBasicLines false rest)
  | '\\' :: 'U' :: a :: b :: c :: d :: e :: f :: g :: h :: rest =>
    consRead? (ofCode? [a, b, c, d, e, f, g, h]) (readBasicLines false rest)
  | '\\' :: e :: rest =>
    if endsLine (e :: rest) then readBasicLines true (e :: rest)
    else consRead? (escaped? e) (readBasicLines false rest)
  | c :: rest =>
    if skipping && (c == ' ' || c == '\t') then readBasicLines true rest
    else if isPlain c && c != '\\' then consRead c (readBasicLines false rest)
    else none

/-- Read a text of several lines after its opening single quotes. -/
def readLiteralLines : List Char → Option (List Char × List Char)
  | [] => none
  | '\r' :: '\n' :: rest => consRead '\n' (readLiteralLines rest)
  | '\n' :: rest => consRead '\n' (readLiteralLines rest)
  | '\'' :: '\'' :: '\'' :: rest => some (closeLines '\'' rest)
  | c :: rest => if isPlain c then consRead c (readLiteralLines rest) else none

/-- Leave out a line end at the front. -/
def dropNewline (cs : List Char) : List Char := (readNewline? cs).getD cs

/-- Read a text of one line. -/
def readLine? : List Char → Option (List Char × List Char)
  | '"' :: rest => readBasic rest
  | '\'' :: rest => readLiteral rest
  | _ => none

/-- Read a text. -/
def readText? : List Char → Option (List Char × List Char)
  | '"' :: '"' :: '"' :: rest => readBasicLines false (dropNewline rest)
  | '\'' :: '\'' :: '\'' :: rest => readLiteralLines (dropNewline rest)
  | cs => readLine? cs

/-! ## Keys -/

/-- A character of a bare name. -/
def isBare (c : Char) : Bool := c.isAlphanum || c == '_' || c == '-'

/-- Read a name and the blanks around it. -/
def readName? (cs : List Char) : Option (String × List Char) :=
  let cs := skipBlanks cs
  match readLine? cs with
  | some (name, rest) => some (String.ofList name, skipBlanks rest)
  | none =>
    let name := cs.takeWhile isBare
    if name.isEmpty then none else some (String.ofList name, skipBlanks (cs.dropWhile isBare))

/-- Read names joined by dots; each takes a character, which is what the fuel bounds. -/
def readNames : Nat → List Char → Option (List String × List Char)
  | 0, _ => none
  | fuel + 1, cs => do
    let (name, rest) ← readName? cs
    match rest with
    | '.' :: rest =>
      let (names, rest) ← readNames fuel rest
      return (name :: names, rest)
    | rest => return ([name], rest)

/-- The deepest nesting of arrays and tables in braces, and the longest key, that are read. -/
def maxDepth : Nat := 79

/-- A key: the way to its table, and its name there. -/
structure Key where
  /-- The names that lead to the table. -/
  path : List String
  /-- The name in the table. -/
  name : String

/-- Read a key. -/
def readKey? (cs : List Char) : Option (Key × List Char) := do
  let (names, rest) ← readNames (cs.length + 1) cs
  let name ← names.getLast?
  if maxDepth < names.length then none else return (⟨names.dropLast, name⟩, rest)

end QueryRelay.Toml
