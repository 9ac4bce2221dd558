import ConfLex.Tool.Cli

/-!
# The executable

Runs the tool on this machine. The run itself is `runCli`, a function of a host and the
arguments; this module only gathers the host. It reads the environment variables the tool uses,
asks whether the error stream is a terminal, and reads every path the run may look at before the
run starts (`Invocation.paths`): a path that reads as a file is a file with its bytes, one that
fails as a directory is a directory, and any other is absent. Then it prints what the run wrote
and exits with its status.
-/

namespace ConfLex

/-- The environment variables that the tool reads. -/
def envNames : List String :=
  ["HOME", "XDG_CONFIG_HOME", "CFGT_VERBOSE", "CFGT_CONFIG", "CFGT_NO_COLOR"]

/-- What a path names on this machine. -/
def statPath (path : String) : IO (Option Entry) := do
  try
    pure (some (.file (← IO.FS.readBinFile path).toList))
  catch e =>
    match e with
    | .inappropriateType _ 21 _ => pure (some .directory)
    | _ => pure none

end ConfLex

/-- Runs the tool with the command-line arguments. -/
def main (args : List String) : IO UInt32 := do
  let mut env : List (String × String) := []
  for name in ConfLex.envNames do
    if let some value ← IO.getEnv name then env := env ++ [(name, value)]
  let bare : ConfLex.Host :=
    { stat := fun _ => none, env := fun name => env.lookup name,
      stderrIsTerminal := ← (← IO.getStderr).isTty }
  let paths := match ConfLex.Invocation.parse bare args with
    | .ok inv => inv.paths bare
    | .error _ => []
  let mut seen : List (String × Option ConfLex.Entry) := []
  for path in paths do
    seen := seen ++ [(path, ← ConfLex.statPath path)]
  let outcome := ConfLex.runCli { bare with stat := fun path => (seen.lookup path).join } args
  IO.print outcome.stdout
  IO.eprint outcome.stderr
  pure outcome.status.toUInt32
