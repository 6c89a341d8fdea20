import Exchange.Launch
import Exchange.Config.EnvFile
/-!
# The command line

`main` runs the server program as `Launch.run` describes it, with the flags
given, the configuration variables of the process environment, and the env
file (`ENV_FILE`, or `./.env`) read from disk by `EnvFile.reader`. It writes each log record as a
JSON line to standard output, the error text to standard error, and exits with
the run's code. The run is the one a terminating signal stops.
-/

open Exchange

/-- The variables the configuration reads. -/
def configNames : List String :=
  ["PORT", "LOG_LEVEL", "QUOTE_ASSET", "MARKETS", "TRADE_HISTORY", "KAFKA_BROKERS",
   "KAFKA_COMMAND_TOPIC", "KAFKA_RESULT_TOPIC", "KAFKA_GROUP_ID", "READ_TIMEOUT",
   "WRITE_TIMEOUT", "IDLE_TIMEOUT", "SHUTDOWN_TIMEOUT", "ENV_FILE"]

/-- A file's text from disk, or why it cannot be read: a directory fails to
read, a file used as a directory to open, anything else counts as missing. -/
def readFile (path : String) : IO (Except FileFailure String) := do
  try
    let text ← IO.FS.readFile path
    pure (.ok text)
  catch e =>
    pure <| .error <| match e with
      | .inappropriateType _ 21 _ => .directory
      | .inappropriateType _ 20 _ => .notDirectory
      | _ => .missing

/-- The configuration variables that are set in the process environment. -/
def readEnvironment : IO Environment := do
  let mut vars : List (String × String) := []
  for name in configNames do
    if let some v ← IO.getEnv name then
      vars := vars ++ [(name, v)]
  pure ⟨vars⟩

/-- Runs the program with its arguments and answers its exit code. -/
def main (args : List String) : IO UInt32 := do
  let env ← readEnvironment
  let path := env.getD "ENV_FILE"
  let name := if path.isEmpty then ".env" else path
  let read ← readFile name
  let files : Files := ⟨fun p => if p = name then read else .error .missing⟩
  let o := Launch.run EnvFile.reader ⟨"matchcore", args, env, files, false, .terminate⟩
  for r in o.logs do
    IO.println r.toJson.render
  IO.eprint o.stderr
  pure o.exitCode.toUInt32
