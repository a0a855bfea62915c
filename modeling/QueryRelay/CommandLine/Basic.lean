import QueryRelay.Fields

/-!
# Commands and their arguments

The command line is a command with its options and its operand. Some options belong to every command
and may also stand before it. An option is given by its long name, or by its letter alone or in a
cluster of letters; it is given at most once at one place, and its value may follow an equals sign.
After two hyphens everything is an operand.
-/

namespace QueryRelay

namespace CommandLine

/-- How an answer is printed. -/
inductive OutputFormat where
  /-- As a table. -/
  | table
  /-- As a JSON document. -/
  | json
deriving DecidableEq, Inhabited

/-- A command. -/
inductive Command where
  /-- Serve a data file. -/
  | serve (data address : Option String)
  /-- Send a plan to a service. -/
  | run (plan : String) (address : Option String) (isStream : Bool) (format : OutputFormat)
  /-- Show a plan. -/
  | explain (plan : String)
  /-- Show the parts of a type descriptor. -/
  | parseType (text : String)
deriving DecidableEq, Inhabited

/-- A command with the options of every command. -/
structure Invocation where
  /-- The settings file. -/
  config : Option String
  /-- Whether more is logged. -/
  isVerbose : Bool
  /-- The command. -/
  command : Command
deriving DecidableEq, Inhabited

/-- What a help text is about. -/
inductive Topic where
  /-- All commands. -/
  | program
  /-- The command that serves. -/
  | serve
  /-- The command that sends a plan. -/
  | run
  /-- The command that shows a plan. -/
  | explain
  /-- The command that shows a type descriptor. -/
  | parseType
  /-- The command that shows help. -/
  | help
deriving DecidableEq, Inhabited

/-- Why arguments are of no use. -/
inductive UsageFault where
  /-- There is no command. -/
  | noCommand
  /-- The command is not known. -/
  | unknownCommand (word : String)
  /-- The argument has no place. -/
  | unexpected (argument : String)
  /-- An option lacks its value. -/
  | noValue (option : String)
  /-- An option has a value that it cannot have. -/
  | badValue (option value : String)
  /-- An option is given twice. -/
  | repeated (option : String)
  /-- An operand is missing. -/
  | noOperand (name : String)
deriving DecidableEq

/-- The wording of a fault. -/
def UsageFault.message : UsageFault → String
  | .noCommand => "a command is required"
  | .unknownCommand w => "unrecognized command '" ++ w ++ "'"
  | .unexpected a => "unexpected argument '" ++ a ++ "' found"
  | .noValue o => "a value is required for '" ++ o ++ "'"
  | .badValue o v => "invalid value '" ++ v ++ "' for '" ++ o ++ "'"
  | .repeated o => "the argument '" ++ o ++ "' cannot be used multiple times"
  | .noOperand n => "the argument <" ++ n ++ "> was not provided"

/-- What stands in place of an invocation. -/
inductive Interruption where
  /-- The arguments are of no use. -/
  | usage (fault : UsageFault)
  /-- Help is asked for. -/
  | help (topic : Topic)
  /-- The version is asked for. -/
  | version
deriving DecidableEq

/-- What an option or operand may hold. -/
inductive ValueKind where
  /-- A path; it is not empty. -/
  | path
  /-- Any text. -/
  | text
  /-- One of some words. -/
  | word (choices : List String)

/-- Whether a text may be held. -/
def ValueKind.admits : ValueKind → String → Bool
  | .path, v => !v.isEmpty
  | .text, _ => true
  | .word choices, v => choices.contains v

/-- An option. -/
structure OptionSpec where
  /-- The long name. -/
  name : String
  /-- The letter. -/
  letter : Char
  /-- What it holds; a switch holds nothing. -/
  kind : Option ValueKind

/-- What may be given at one place of the command line. -/
structure Place where
  /-- What help is about here. -/
  topic : Topic
  /-- The options. -/
  options : List OptionSpec
  /-- The operand, with its name. -/
  operand : Option (String × ValueKind)

/-- What was given at one place. -/
structure Given where
  /-- The options; a switch has the empty value. -/
  options : Fields String
  /-- The operand. -/
  operand : Option String
deriving Inhabited

/-- Fail for arguments that are of no use. -/
def refuse {α : Type} (fault : UsageFault) : Except Interruption α := .error (.usage fault)

namespace Given

/-- Give an option a value. -/
def set (g : Given) (spec : OptionSpec) (value : String) : Except Interruption Given :=
  match Fields.get? g.options spec.name with
  | some _ => refuse (.repeated spec.name)
  | none =>
    if spec.kind.all (·.admits value) then
      .ok { g with options := Fields.insert g.options spec.name value }
    else refuse (.badValue spec.name value)

/-- Give the operand. -/
def operate (g : Given) (place : Place) (word : String) : Except Interruption Given :=
  match place.operand, g.operand with
  | some (name, kind), none =>
    if kind.admits word then .ok { g with operand := some word } else refuse (.badValue name word)
  | _, _ => refuse (.unexpected word)

/-- The value of an option. -/
def value? (g : Given) (name : String) : Option String := Fields.get? g.options name

/-- Whether a switch is set. -/
def isSet (g : Given) (name : String) : Bool := (g.value? name).isSome

end Given

/-! ## Reading arguments -/

/-- Whether an argument looks like an option. -/
def isOption (argument : String) : Bool :=
  match argument.toList with
  | '-' :: _ :: _ => true
  | _ => false

/-- What was given, and the arguments that are left. -/
abbrev Reading := Except Interruption (Given × List String)

/-- Give an option the value that follows as an argument of its own. -/
def takeValue (g : Given) (spec : OptionSpec) : List String → Reading
  | value :: rest =>
    if isOption value then refuse (.noValue spec.name) else return (← g.set spec value, rest)
  | [] => refuse (.noValue spec.name)

/-- Read an option by its long name and the value after an equals sign. -/
def readLong (place : Place) (g : Given) (name : String) (value : Option String)
    (rest : List String) : Reading :=
  match place.options.find? fun spec => spec.name == name with
  | none =>
    if value.isSome then refuse (.unexpected name)
    else if name = "help" then .error (.help place.topic)
    else if name = "version" ∧ place.topic = .program then .error .version
    else refuse (.unexpected name)
  | some spec =>
    match spec.kind, value with
    | none, none => return (← g.set spec "", rest)
    | none, some _ => refuse (.unexpected name)
    | some _, some v => return (← g.set spec v, rest)
    | some _, none => takeValue g spec rest

/-- Leave out an equals sign at the front. -/
def dropEquals : List Char → List Char
  | '=' :: cs => cs
  | cs => cs

/-- Read a cluster of letters. -/
def readLetters (place : Place) (rest : List String) : List Char → Given → Reading
  | [], g => .ok (g, rest)
  | c :: cs, g =>
    match place.options.find? fun spec => spec.letter == c with
    | none =>
      if c = 'h' then .error (.help place.topic)
      else if c = 'V' ∧ place.topic = .program then .error .version
      else refuse (.unexpected (String.singleton c))
    | some spec =>
      if spec.kind.isNone then do readLetters place rest cs (← g.set spec "")
      else if cs.isEmpty then takeValue g spec rest
      else return (← g.set spec (String.ofList (dropEquals cs)), rest)

/-- Read one option. -/
def readOption (place : Place) (g : Given) (argument : String) (rest : List String) : Reading :=
  match argument.toList with
  | '-' :: '-' :: cs =>
    let name := String.ofList (cs.takeWhile (· != '='))
    match cs.dropWhile (· != '=') with
    | _ :: value => readLong place g name (some (String.ofList value)) rest
    | [] => readLong place g name none rest
  | cs => readLetters place rest (cs.drop 1) g

/-- Read the options up to the first other argument; each takes an argument, which is what the fuel
bounds. -/
def readOptions (place : Place) : Nat → Given → List String → Reading
  | 0, g, arguments => .ok (g, arguments)
  | _ + 1, g, [] => .ok (g, [])
  | fuel + 1, g, argument :: rest =>
    if argument = "--" ∨ !isOption argument then .ok (g, argument :: rest)
    else do
      let (g, rest) ← readOption place g argument rest
      readOptions place fuel g rest

/-- Read all options and the operand. -/
def readAll (place : Place) : Nat → Given → List String → Except Interruption Given
  | 0, g, _ => .ok g
  | fuel + 1, g, arguments => do
    match ← readOptions place (arguments.length + 1) g arguments with
    | (g, []) => return g
    | (g, "--" :: rest) => rest.foldlM (fun g word => g.operate place word) g
    | (g, word :: rest) => readAll place fuel (← g.operate place word) rest

/-! ## Commands -/

/-- The options of every command. -/
def commonOptions : List OptionSpec := [⟨"config", 'c', some .path⟩, ⟨"verbose", 'v', none⟩]

/-- What may be given before the command. -/
def front : Place := ⟨.program, commonOptions, none⟩

/-- The words for the commands, and what each takes. -/
def places : List (String × Place) := [
  ("serve", ⟨.serve, ⟨"data", 'd', some .path⟩ :: ⟨"bind", 'b', some .text⟩ :: commonOptions,
    none⟩),
  ("run", ⟨.run,
    ⟨"address", 'a', some .text⟩ :: ⟨"stream", 's', none⟩ ::
      ⟨"format", 'f', some (.word ["table", "json"])⟩ :: commonOptions,
    some ("AST", .path)⟩),
  ("explain", ⟨.explain, commonOptions, some ("AST", .path)⟩),
  ("parse-type", ⟨.parseType, commonOptions, some ("TEXT", .text)⟩)]

/-- The operand, which has to be there. -/
def operandOf (place : Place) (g : Given) : Except Interruption String :=
  match g.operand with
  | some word => .ok word
  | none => refuse (.noOperand (place.operand.elim "" Prod.fst))

/-- The command that was given. -/
def commandOf (place : Place) (g : Given) : Except Interruption Command :=
  match place.topic with
  | .serve => return .serve (g.value? "data") (g.value? "bind")
  | .run => do
    let format := if g.value? "format" = some "json" then .json else .table
    return .run (← operandOf place g) (g.value? "address") (g.isSet "stream") format
  | .explain => return .explain (← operandOf place g)
  | .parseType => return .parseType (← operandOf place g)
  | .program | .help => refuse .noCommand

/-- The topic that the words after the command for help name. -/
def topicOf : List String → Except Interruption Topic
  | [] => .ok .program
  | [word] =>
    if word = "help" then .ok .help
    else
      match places.lookup word with
      | some place => .ok place.topic
      | none => refuse (.unknownCommand word)
  | word :: next :: _ =>
    if word = "help" ∨ (places.lookup word).isSome then refuse (.unknownCommand next)
    else refuse (.unknownCommand word)

/-- Read the arguments; an option given after the command counts before one given in front of it. -/
def Invocation.ofArguments (arguments : List String) : Except Interruption Invocation := do
  let (before, rest) ← readOptions front (arguments.length + 1) ⟨[], none⟩ arguments
  match rest with
  | [] => refuse .noCommand
  | "help" :: words => .error (.help (← topicOf words))
  | word :: rest =>
    match places.lookup word with
    | none => refuse (.unknownCommand word)
    | some place =>
      let g ← readAll place (rest.length + 1) ⟨[], none⟩ rest
      let command ← commandOf place g
      return ⟨(g.value? "config").or (before.value? "config"),
        g.isSet "verbose" || before.isSet "verbose", command⟩

end CommandLine
end QueryRelay
