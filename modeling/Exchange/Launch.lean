import Exchange.Config.Basic
import Exchange.Engine
import Exchange.Json.Value
/-!
# Launching the server

`Launch.run` tells what one run of the server program does: what it writes
to standard error, the log records it writes to standard output, and its exit
code. The run is stopped by a signal, unless it fails first.

1. **Flags.** Flags come before the first argument that is no flag (or after
   `--`). The only flag is `-healthcheck` (one or two dashes), a switch that
   may be given a value after `=`: one of `1 t T TRUE true True 0 f F FALSE false
   False`. `-h` and `-help` print the usage and exit 0; an unknown flag, a bad
   value or a bad flag (`---x`, `-=x`) prints its message and the usage and
   exits 2.
2. **Health check.** With `-healthcheck` the program asks the server on its
   port for its health and exits 0 if it answers, else 1. No server answers
   from here: every health check exits 1.
3. **Configuration.** The configuration is loaded with the env file reader
   the program is built with. A configuration error is written to standard
   error as `ERROR failed to load config error=<message>` (quoted as log
   values are) and exits 1.
4. **Serving.** The server logs that it starts, with its address, quote asset
   and markets, and that the queue consumer starts when brokers are set. An
   address already in use is a fatal error, logged, and the exit code is 1;
   otherwise the signal is logged, and the exit code is 0. Last it logs that it
   stopped. Records below the configured level are not written.

The server is never reached from outside while it runs, so no request is
served during a run.

Key definitions: `Launch.Signal`, `Launch.FlagError`, `Launch.readFlags`,
`Launch.LogRecord`, `Launch.Invocation`, `Launch.Outcome`, `Launch.run`.
-/

namespace Exchange.Launch

open Json

/-- The signal that stops a run. -/
inductive Signal where
  | terminate
  | interrupt
  deriving DecidableEq, Repr

/-- The name a signal is logged with. -/
def Signal.name : Signal → String
  | .terminate => "terminated"
  | .interrupt => "interrupt"

/-- Why the flags could not be read. -/
inductive FlagError where
  /-- Help was asked for. -/
  | help
  | undefined (name : String)
  | badSyntax (arg : String)
  | badSwitch (value name : String)
  deriving DecidableEq

/-- The line a flag error is reported with; none for help. -/
def FlagError.message? : FlagError → Option String
  | .help => none
  | .undefined n => some ("flag provided but not defined: -" ++ n)
  | .badSyntax a => some ("bad flag syntax: " ++ a)
  | .badSwitch v n =>
    some ("invalid boolean value " ++ Text.quote v ++ " for -" ++ n ++ ": parse error")

/-- The value a switch's text stands for. -/
def switchValue? : String → Option Bool
  | "1" | "t" | "T" | "TRUE" | "true" | "True" => some true
  | "0" | "f" | "F" | "FALSE" | "false" | "False" => some false
  | _ => none

/-- Reads the text of one flag after its dashes, `name` or `name=value`, as
the health-check switch. -/
def readFlag (body : String) : Except FlagError Bool :=
  let (n, value) : String × Option String :=
    match body.splitOn "=" with
    | [] => ("", none)
    | [n] => (n, none)
    | n :: vs => (n, some ("=".intercalate vs))
  if n = "healthcheck" then
    match value with
    | none => .ok true
    | some v =>
      match switchValue? v with
      | some b => .ok b
      | none => .error (.badSwitch v n)
  else if n = "help" || n = "h" then .error .help
  else .error (.undefined n)

/-- Reads the flags on top of the switch's value so far: whether the health
check is asked. -/
def readFlags : List String → Bool → Except FlagError Bool
  | [], hc => .ok hc
  | arg :: rest, hc =>
    let body := match arg.toList with
      | '-' :: '-' :: cs => some cs
      | '-' :: c :: cs => some (c :: cs)
      | _ => none
    match body with
    | none => .ok hc
    | some [] => .ok hc
    | some (c :: cs) =>
      if c = '-' || c = '=' then .error (.badSyntax arg)
      else do readFlags rest (← readFlag (String.ofList (c :: cs)))

/-- The usage text of a program. -/
def usage (program : String) : String :=
  "Usage of " ++ program ++ ":\n  -healthcheck\n    \tRun health check against running server\n"

/-- Whether a log value is written quoted: when it is empty or holds a blank,
`=`, a quote, U+FFFD, or a character that does not print. -/
def needsQuoting (s : String) : Bool :=
  s.isEmpty || s.any fun c =>
    c = ' ' || c = '=' || c = '"' || c.toNat = 0xFFFD || !Text.isPrintable c

/-- A log value as the text log writes it. -/
def logText (s : String) : String := if needsQuoting s then Text.quote s else s

/-- One log record: its level, its message and its attributes. -/
structure LogRecord where
  level : LogLevel
  message : String
  attrs : List (String × Value)

/-- The upper-case name a record's level is written with. -/
def levelName : LogLevel → String
  | .debug => "DEBUG"
  | .info => "INFO"
  | .warn => "WARN"
  | .error => "ERROR"

/-- A record as a JSON object. -/
def LogRecord.toJson (r : LogRecord) : Value :=
  .obj ([("level", .str (levelName r.level)), ("msg", .str r.message)] ++ r.attrs)

/-- What a run is given. -/
structure Invocation where
  program : String
  args : List String
  env : Environment
  files : Files
  /-- Whether the address the server listens on is already in use. -/
  portTaken : Bool
  signal : Signal

/-- What a run did. -/
structure Outcome where
  exitCode : Nat
  logs : List LogRecord
  stderr : String

/-- The records a server with configuration `c` writes while it serves. -/
def serving (c : Config) (inv : Invocation) : List LogRecord × Nat :=
  let addr := ":" ++ toString c.port
  let engine := c.markets.foldl (fun e m => (e.addMarket m).2) (Engine.create c.quoteAsset)
  let start : LogRecord := ⟨.info, "server starting",
    [("addr", .str addr), ("quote_asset", .str engine.quoteAsset),
     ("markets", .ofStrings engine.markets)]⟩
  let consumer : List LogRecord := if c.kafkaEnabled then
      [⟨.info, "queue consumer starting",
        [("topic", .str c.kafkaCommandTopic), ("group_id", .str c.kafkaGroupId)]⟩]
    else []
  let (stop, code) : LogRecord × Nat := if inv.portTaken then
      let why := "http server: listen tcp " ++ addr ++ ": bind: address already in use"
      (⟨.error, "fatal error", [("error", .str why)]⟩, 1)
    else (⟨.info, "shutdown signal received", [("signal", .str inv.signal.name)]⟩, 0)
  let records := [start] ++ consumer ++ [stop, ⟨.info, "server stopped", []⟩]
  (records.filter fun r => r.level.rank ≥ c.logLevel.rank, code)

/-- Whether a running server can be reached from outside: it cannot. -/
def reachable : Bool := false

/-- One run of the program, reading env files with `reader`. -/
def run (reader : EnvReader) (inv : Invocation) : Outcome :=
  match readFlags inv.args false with
  | .error e =>
    match e.message? with
    | some m => ⟨2, [], m ++ "\n" ++ usage inv.program⟩
    | none => ⟨0, [], usage inv.program⟩
  | .ok true => ⟨1, [], ""⟩
  | .ok false =>
    match Config.load reader inv.env inv.files with
    | .error e => ⟨1, [], "ERROR failed to load config error=" ++ logText e.message ++ "\n"⟩
    | .ok c => let (logs, code) := serving c inv; ⟨code, logs, ""⟩

end Exchange.Launch
