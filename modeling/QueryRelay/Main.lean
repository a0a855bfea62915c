import QueryRelay.CommandLine.Run

/-!
# The program

Reads arguments, environment and files, and prints what the command line answers.
-/

namespace QueryRelay.CommandLine

/-- The text of a file, if it can be read. -/
def readFileIfThere (path : String) : BaseIO (Option String) := do
  match ← (IO.FS.readFile path).toBaseIO with
  | .ok text => return some text
  | .error _ => return none

/-- The settings file below the directory for settings. -/
def findDefaultConfig : BaseIO (Option String) := do
  let below (directory : String) : String := directory ++ "/" ++ programName ++ "/config.toml"
  match ← IO.getEnv "XDG_CONFIG_HOME" with
  | some directory =>
    if directory.startsWith "/" then return some (below directory)
    else return (← IO.getEnv "HOME").map fun home => below (home ++ "/.config")
  | none => return (← IO.getEnv "HOME").map fun home => below (home ++ "/.config")

end QueryRelay.CommandLine

open QueryRelay in
/-- Run the program with the arguments of the command line. -/
def main (arguments : List String) : IO UInt32 := do
  let s : CommandLine.Surroundings BaseIO :=
    ⟨CommandLine.readFileIfThere, ← CommandLine.findDefaultConfig, ← IO.getEnv "REMOTEQ_CONFIG"⟩
  let outcome ← (CommandLine.run s arguments : BaseIO CommandLine.Outcome)
  IO.print outcome.stdout
  IO.eprint outcome.stderr
  return outcome.code.toUInt32
