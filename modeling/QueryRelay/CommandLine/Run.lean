import QueryRelay.CommandLine.Help
import QueryRelay.DataFile
import QueryRelay.Number.Bytes
import QueryRelay.Plan.Traversal
import QueryRelay.Settings

/-!
# Running commands

`CommandLine.run` carries out a command in any monad that can look up files. The settings are read
before anything else. Commands that inspect answer from their arguments and files alone; those that
need a connection check everything that comes before it and then fail, since there is no transport.
-/

namespace QueryRelay.CommandLine

/-- What the program leaves behind. -/
structure Outcome where
  /-- The exit code: one for a failure, two for arguments that are of no use. -/
  code : Nat
  /-- The text on the standard output. -/
  stdout : String
  /-- The text on the standard error output. -/
  stderr : String
deriving DecidableEq, Inhabited

/-- What the program finds around it. -/
structure Surroundings (m : Type → Type) where
  /-- The text of a file, if it can be read. -/
  readFile : String → m (Option String)
  /-- The settings file that is read if no other is named; it may be missing. -/
  defaultConfig : Option String
  /-- The settings file that the environment names. -/
  environmentConfig : Option String

/-- A failure: what was tried, the outermost first, and why it failed. -/
structure Failure where
  /-- What was tried. -/
  context : List String
  /-- The reason. -/
  reason : String

/-- A failure that stems from an error. -/
def Failure.ofError (context : List String) (e : Error) : Failure := ⟨context, e.message⟩

/-- The text of a failure. -/
def Failure.message (f : Failure) : String := ": ".intercalate (f.context ++ [f.reason])

/-- An error with what was tried. -/
def attempt {α : Type} (context : List String) (r : Except Error α) : Except Failure α :=
  match r with
  | .ok x => .ok x
  | .error e => .error (.ofError context e)

/-! ## Reports -/

/-- A line of a report: an indented term and what it stands for. -/
def reportLine (term text : String) : String :=
  "  " ++ term ++ String.ofList (List.replicate (12 - term.length) ' ') ++ " " ++ text ++ "\n"

/-- The word for a truth value. -/
def truthText (b : Bool) : String := if b then "true" else "false"

/-- The parts of a type descriptor. -/
def describeType (d : Descriptor) : String :=
  "Type: " ++ d.render ++ "\n" ++
    reportLine "name" d.qualifiedName ++
    reportLine "fingerprint" (Bytes.wordText d.fingerprint) ++
    reportLine "collection" (truthText d.isCollection) ++
    reportLine "enum" (truthText d.isEnum) ++
    reportLine "nullable" (truthText d.isNullable) ++
    String.join (d.args.map fun a => reportLine "generic" a.render) ++
    String.join (d.members.map fun m => reportLine "member" (m.1 ++ ": " ++ m.2.render))

/-- A plan, its type and the navigations that it loads. -/
def describePlan (p : Plan) : String :=
  let includes := p.includePaths
  "Expression:\n  " ++ p.render ++ "\nResult type:\n  " ++ p.type.render ++ "\n" ++
    (if includes.isEmpty then ""
      else "Includes:\n" ++ String.join (includes.map fun path => "  " ++ path ++ "\n"))

/-! ## Commands -/

variable {m : Type → Type} [Monad m]

/-- Read a file and what is in it. -/
def load {α : Type} (s : Surroundings m) (context path : String) (read : String → Except Error α) :
    ExceptT Failure m α := do
  match ← s.readFile path with
  | none => throw ⟨[context], (Error.io "no such file").message⟩
  | some text => attempt [context] (read text)

/-- The settings: those of the named file, else of the default one if it is there. -/
def settings (s : Surroundings m) (config : Option String) : ExceptT Failure m Settings := do
  match config.or s.environmentConfig, s.defaultConfig with
  | some path, _ => load s ("loading " ++ path) path Settings.read
  | none, some path =>
    match ← s.readFile path with
    | some text => attempt [] (Settings.read text)
    | none => return .standard
  | none, none => return .standard

/-- Read a plan from a file. -/
def loadPlan (s : Surroundings m) (path : String) : ExceptT Failure m Plan :=
  load s ("reading " ++ path) path (PayloadFormat.ofText .plan)

/-- Carry out a command: what it prints. -/
def perform (s : Surroundings m) (settings : Settings) : Command → ExceptT Failure m String
  | .parseType text => do
    let d ← attempt [] (Descriptor.read text)
    return describeType d
  | .explain path => do return describePlan (← loadPlan s path)
  | .serve data address => do
    match data.or settings.dataPath with
    | none => throw ⟨[], "no data file; pass --data or set data_path"⟩
    | some path =>
      let _ ← load s ("loading " ++ path) path fun text => (DataFile.read text).bind DataFile.build
      throw ⟨["binding " ++ address.getD settings.bindAddress], (Error.io "no transport").message⟩
  | .run path address _ _ => do
    let _ ← loadPlan s path
    throw ⟨["connecting " ++ address.getD settings.bindAddress], (Error.io "no transport").message⟩

/-- Carry out an invocation. -/
def invoke (s : Surroundings m) (i : Invocation) : ExceptT Failure m String := do
  perform s (← settings s i.config) i.command

/-- Run the program. -/
def run (s : Surroundings m) (arguments : List String) : m Outcome := do
  match Invocation.ofArguments arguments with
  | .ok i =>
    match ← (invoke s i).run with
    | .ok text => return ⟨0, text, ""⟩
    | .error f => return ⟨1, "", "Error: " ++ f.message ++ "\n"⟩
  | .error (.usage f) => return ⟨2, "", "error: " ++ f.message ++ "\n"⟩
  | .error (.help topic) => return ⟨0, topic.text (s.environmentConfig.getD ""), ""⟩
  | .error .version => return ⟨0, programName ++ " " ++ version ++ "\n", ""⟩

end QueryRelay.CommandLine
