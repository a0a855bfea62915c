import QueryRelay.CommandLine.Basic

/-!
# Help texts

What the command line says about itself.
-/

namespace QueryRelay.CommandLine

/-- The name of the program. -/
def programName : String := "remoteq"

/-- The version of the program. -/
def version : String := "0.1.0"

/-- A row of a help text: a term and what it stands for. -/
abbrev HelpRow := String × String

/-- Rows with their second column in line. -/
def helpTable (rows : List HelpRow) : String :=
  let width := (rows.map fun r => r.1.length).foldl max 0
  String.join (rows.map fun r =>
    "  " ++ r.1 ++ String.ofList (List.replicate (width - r.1.length) ' ') ++ "  " ++ r.2 ++ "\n")

/-- The row of the settings file; `value` is what the environment says. -/
def configRow (value : String) : HelpRow :=
  ("-c, --config <CONFIG>", "Configuration file (defaults to <config dir>/" ++ programName ++
    "/config.toml) [env: REMOTEQ_CONFIG=" ++ value ++ "]")

/-- The row of the switch for more logging. -/
def verboseRow : HelpRow := ("-v, --verbose", "Verbose output")

/-- The row of the switch for help. -/
def helpRow : HelpRow := ("-h, --help", "Print help")

/-- The commands, each with what it does. -/
def commandRows : List HelpRow := [
  ("serve", "Serve a JSON data file"),
  ("run", "Send a serialized AST to a server and print the result"),
  ("explain", "Show an AST, its result type and its include paths"),
  ("parse-type", "Parse a type descriptor and show its parts"),
  ("help", "Print this message or the help of the given subcommand(s)")]

/-- A help text: what it is about, the usage, the operands and the options. -/
def helpText (about usage : String) (operands options : List HelpRow) : String :=
  about ++ "\n\nUsage: " ++ programName ++ " " ++ usage ++ "\n" ++
    (if operands.isEmpty then "" else "\nArguments:\n" ++ helpTable operands) ++
    (if options.isEmpty then "" else "\nOptions:\n" ++ helpTable options)

/-- What a command does. -/
def aboutCommand (word : String) : String := (commandRows.lookup word).getD ""

/-- The row of the file with a plan. -/
def planRow : HelpRow := ("<AST>", "JSON file holding the AST")

/-- The text about a topic; `value` is what the environment says about the settings file. -/
def Topic.text (value : String) : Topic → String
  | .program =>
    "Serve and inspect portable queries\n\nUsage: " ++ programName ++
      " [OPTIONS] <COMMAND>\n\nCommands:\n" ++ helpTable commandRows ++ "\nOptions:\n" ++
      helpTable [configRow value, verboseRow, helpRow, ("-V, --version", "Print version")] ++
      "\nEXAMPLES:\n    " ++ programName ++ " serve --data shop.json --bind 0.0.0.0:7070\n    " ++
      programName ++ " run query.json --format json\n    " ++
      programName ++ " parse-type 'core.Sequence<shop.Person>[]'\n"
  | .serve => helpText (aboutCommand "serve") "serve [OPTIONS]" [] [
      configRow value,
      ("-d, --data <DATA>", "Data file (overrides \x60data_path\x60)"),
      ("-b, --bind <BIND>", "Bind address (overrides \x60bind_address\x60)"),
      verboseRow, helpRow]
  | .run => helpText (aboutCommand "run") "run [OPTIONS] <AST>" [planRow] [
      ("-a, --address <ADDRESS>", "Server address (defaults to \x60bind_address\x60)"),
      configRow value,
      ("-s, --stream", "Request the result as a stream of records"),
      verboseRow,
      ("-f, --format <FORMAT>",
        "Output format [default: table] [possible values: table, json]"),
      helpRow]
  | .explain => helpText (aboutCommand "explain") "explain [OPTIONS] <AST>" [planRow] [
      configRow value, verboseRow, helpRow]
  | .parseType => helpText (aboutCommand "parse-type") "parse-type [OPTIONS] <TEXT>" [
      ("<TEXT>", "Descriptor text, e.g. \x60shop.Person?\x60")] [
      configRow value, verboseRow, helpRow]
  | .help => helpText (aboutCommand "help") "help [COMMAND]..." [
      ("[COMMAND]...", "Print help for the subcommand(s)")] []

end QueryRelay.CommandLine
