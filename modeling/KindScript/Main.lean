import KindScript.CommandLine
import KindScript.Settings.Reader

/-!
# Program

The program: it looks up the environment and the files that its words can name,
and prints what the run over them gives.
-/

namespace KindScript.CommandLine

/-- The variables that the program looks at. -/
def observed : List String :=
  ["HOME", Settings.pathVariable, "HORIZON_DEBUG", "HORIZON_SHOW_TOKENS", "HORIZON_SHOW_TREES",
    "HORIZON_SHOW_VALUES"]

/-- The paths that a run can ask for. -/
def namedPaths (env : Settings.Environment) (words : List String) : List String :=
  match request words with
  | .ok (.run options) => Settings.defaultPath env :: (options.config.toList ++ options.files)
  | _ => []

def readEnvironment : IO Settings.Environment :=
  observed.filterMapM fun name => do
    return (← IO.getEnv name).map fun value => (name, value)

/-- What stands at a path of the machine. -/
def readEntry (path : String) : IO Files.Entry := do
  let isDirectory ← try (← IO.FS.realPath path).isDir catch _ => pure false
  if isDirectory then return .directory
  match ← (IO.FS.readBinFile path).toBaseIO with
  | .ok content => return .file content
  | .error (.inappropriateType ..) => return .belowFile
  | .error _ => return .missing

end KindScript.CommandLine

open KindScript CommandLine in
def main (words : List String) : IO UInt32 := do
  let env ← readEnvironment
  let entries ← (namedPaths env words).mapM fun path => do return (path, ← readEntry path)
  let outcome := run Settings.ofText (fun path => (entries.lookup path).getD .missing) env words
  IO.print outcome.output
  IO.eprint outcome.errorOutput
  return outcome.exitCode.toUInt32
