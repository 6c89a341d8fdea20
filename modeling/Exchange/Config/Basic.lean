import Exchange.Config.Files
import Exchange.Config.Duration
import Exchange.Text.Quoted
import Exchange.Text.Integer
import Exchange.Text.White
/-!
# Configuration

The server is configured by environment variables, after an env file has been
merged in: the file `ENV_FILE` names, or else `./.env` when there is one. The
file's text is read by an `EnvReader`, which gives its assignments or refuses
it (`EnvFile.reader` is one). A variable already set, even to the empty text,
is never overwritten by the file, and a value holding a NUL character is never
set.
An empty variable counts as unset.

`Config.load` checks, in order: the env file; `PORT`, an integer from 1 to
65535 (default 8080); `LOG_LEVEL`, one of `debug`, `info`, `warn`, `error`
(default `info`); `MARKETS`, a comma list with blanks trimmed and empty items
dropped, not empty and without repeats (default `BTC_USDT,ETH_USDT`);
`TRADE_HISTORY`, a positive integer (default 1000); and the durations
`READ_TIMEOUT`, `WRITE_TIMEOUT`, `IDLE_TIMEOUT`, `SHUTDOWN_TIMEOUT` (defaults
5s, 10s, 60s, 10s). The first failure is the answer. The queue settings are
taken as given: `KAFKA_BROKERS` (a comma list; the consumer runs when it is not
empty), `KAFKA_COMMAND_TOPIC` (default `messages`), `KAFKA_RESULT_TOPIC`,
`KAFKA_GROUP_ID` (default: the server's program name); `QUOTE_ASSET` defaults to
`USDT`.

Key definitions: `Environment`, `EnvReader`, `Config`, `ConfigError`,
`Config.load`.
-/

namespace Exchange

/-- The variables of a process, each name once, in the order set. -/
structure Environment where
  vars : List (String × String)
  deriving DecidableEq, Inhabited

namespace Environment

/-- The value of a variable, if set. -/
def get? (e : Environment) (k : String) : Option String :=
  (e.vars.find? (·.1 == k)).map (·.2)

/-- The value of a variable, empty when unset. -/
def getD (e : Environment) (k : String) : String := (e.get? k).getD ""

/-- Sets a variable unless it is set already. -/
def setIfUnset (e : Environment) (k v : String) : Environment :=
  if e.vars.any (·.1 == k) then e else ⟨e.vars ++ [(k, v)]⟩

/-- Whether a process environment can hold a variable: its name is not empty
and its value has no NUL character. -/
def canHold (name value : String) : Bool := !name.isEmpty && !value.contains '\x00'

/-- Merges the assignments of an env file: each name that is not set yet, when
the environment can hold it; the others are dropped without a word. -/
def merge (e : Environment) (assigned : List (String × String)) : Environment :=
  assigned.foldl (fun e a => if canHold a.1 a.2 then e.setIfUnset a.1 a.2 else e) e

end Environment

/-- Why an env file could not be read. -/
inductive EnvFileError where
  /-- The file at the path could not be read. -/
  | unreadable (path : String) (f : FileFailure)
  /-- A character that may not stand in a name, and the text from the
  statement on. -/
  | unexpectedChar (c : Char) (near : String)
  /-- A quoted value without its closing quote, up to the end of its line. -/
  | unterminated (text : String)
  /-- A statement that is all `export` and blanks. -/
  | zeroLength
  deriving DecidableEq

/-- The message of an env file error. -/
def EnvFileError.message : EnvFileError → String
  | .unreadable p f => f.message p
  | .unexpectedChar c near =>
    "unexpected character " ++ Text.quote (String.singleton c) ++ " in variable name near " ++
      Text.quote near
  | .unterminated t => "unterminated quoted value " ++ t
  | .zeroLength => "zero length string"

/-- A reader of env files: the assignments a file's text makes, in order, or
why it makes none. -/
structure EnvReader where
  parse : String → Except EnvFileError (List (String × String))

/-- How much the server logs. -/
inductive LogLevel where
  | debug
  | info
  | warn
  | error
  deriving DecidableEq, Repr

namespace LogLevel

/-- The name of a level. -/
def name : LogLevel → String
  | .debug => "debug"
  | .info => "info"
  | .warn => "warn"
  | .error => "error"

/-- The level a name stands for. -/
def ofName? : String → Option LogLevel
  | "debug" => some .debug
  | "info" => some .info
  | "warn" => some .warn
  | "error" => some .error
  | _ => none

/-- Levels by severity. -/
def rank : LogLevel → Nat
  | .debug => 0
  | .info => 1
  | .warn => 2
  | .error => 3

end LogLevel

/-- The settings the server runs with. Durations are in nanoseconds. -/
structure Config where
  port : Nat
  logLevel : LogLevel
  quoteAsset : String
  markets : List String
  tradeHistory : Nat
  kafkaBrokers : List String
  kafkaCommandTopic : String
  kafkaResultTopic : String
  kafkaGroupId : String
  readTimeout : Int
  writeTimeout : Int
  idleTimeout : Int
  shutdownTimeout : Int
  deriving DecidableEq

/-- Whether the queue consumer runs: when there are brokers. -/
def Config.kafkaEnabled (c : Config) : Bool := !c.kafkaBrokers.isEmpty

/-- Why the configuration was refused. -/
inductive ConfigError where
  /-- The env file named by a path (empty for `./.env`) could not be read. -/
  | envFile (path : String) (e : EnvFileError)
  /-- A variable that should hold an integer does not. -/
  | notInteger (name text : String) (e : Text.IntegerError)
  | portRange (port : Int)
  | logLevel (text : String)
  | noMarkets
  | repeatedMarket (market : String)
  | historyNotPositive (n : Int)
  /-- A variable that should hold a duration does not. -/
  | notDuration (name text : String) (e : DurationError)
  deriving DecidableEq

/-- The message of a configuration error. -/
def ConfigError.message : ConfigError → String
  | .envFile "" e => "load .env: " ++ e.message
  | .envFile p e => "load ENV_FILE " ++ p ++ ": " ++ e.message
  | .notInteger n t e => "invalid " ++ n ++ ": " ++ e.message t
  | .portRange p => "invalid PORT: " ++ toString p ++ " out of range"
  | .logLevel t =>
    "invalid LOG_LEVEL: " ++ Text.quote t ++ ", must be one of: debug, info, warn, error"
  | .noMarkets => "invalid MARKETS: at least one market is required"
  | .repeatedMarket m => "invalid MARKETS: " ++ Text.quote m ++ " listed twice"
  | .historyNotPositive n => "invalid TRADE_HISTORY: " ++ toString n ++ ", must be positive"
  | .notDuration n t e => "invalid " ++ n ++ ": " ++ e.message t

namespace Config

/-- The environment with the env file merged in: the file `ENV_FILE` names,
which must be readable, or else `./.env` unless there is none. -/
def withEnvFile (reader : EnvReader) (env : Environment) (files : Files) :
    Except ConfigError Environment :=
  let path := env.getD "ENV_FILE"
  let name := if path.isEmpty then ".env" else path
  match files.read name with
  | .error .missing =>
    if path.isEmpty then .ok env else .error (.envFile path (.unreadable name .missing))
  | .error f => .error (.envFile path (.unreadable name f))
  | .ok text =>
    match reader.parse text with
    | .ok assigned => .ok (env.merge assigned)
    | .error e => .error (.envFile path e)

/-- A comma list: items trimmed of white space, empty items dropped. -/
def items (s : String) : List String :=
  (s.splitOn ",").map Text.trimWhite |>.filter (!·.isEmpty)

/-- An integer variable, or its default when unset. -/
def integer (env : Environment) (name : String) (dflt : Int) : Except ConfigError Int :=
  let t := env.getD name
  if t.isEmpty then .ok dflt
  else match Text.readInteger t with
    | .ok n => .ok n
    | .error e => .error (.notInteger name t e)

/-- A duration variable, or its default when unset. -/
def duration (env : Environment) (name : String) (dflt : Int) : Except ConfigError Int :=
  let t := env.getD name
  if t.isEmpty then .ok dflt
  else match readDuration t with
    | .ok n => .ok n
    | .error e => .error (.notDuration name t e)

/-- A text variable, or its default when unset. -/
def text (env : Environment) (name dflt : String) : String :=
  let t := env.getD name
  if t.isEmpty then dflt else t

/-- The first item of a list that an earlier item repeats. -/
def firstRepeat : List String → List String → Option String
  | _, [] => none
  | seen, m :: ms => if seen.contains m then some m else firstRepeat (m :: seen) ms

/-- The configuration an environment and its files give, their env file read
by `reader`, or the first reason they give none. -/
def load (reader : EnvReader) (env : Environment) (files : Files) : Except ConfigError Config := do
  let env ← withEnvFile reader env files
  let port ← integer env "PORT" 8080
  if port < 1 || port > 65535 then throw (.portRange port)
  let levelText := text env "LOG_LEVEL" "info"
  let level ← match LogLevel.ofName? levelText with
    | some l => pure l
    | none => throw (.logLevel levelText)
  let markets := if (env.getD "MARKETS").isEmpty then ["BTC_USDT", "ETH_USDT"]
    else items (env.getD "MARKETS")
  if markets.isEmpty then throw .noMarkets
  if let some m := firstRepeat [] markets then throw (.repeatedMarket m)
  let history ← integer env "TRADE_HISTORY" 1000
  if history < 1 then throw (.historyNotPositive history)
  let read ← duration env "READ_TIMEOUT" 5000000000
  let write ← duration env "WRITE_TIMEOUT" 10000000000
  let idle ← duration env "IDLE_TIMEOUT" 60000000000
  let shutdown ← duration env "SHUTDOWN_TIMEOUT" 10000000000
  pure {
    port := port.toNat
    logLevel := level
    quoteAsset := text env "QUOTE_ASSET" "USDT"
    markets := markets
    tradeHistory := history.toNat
    kafkaBrokers := items (env.getD "KAFKA_BROKERS")
    kafkaCommandTopic := text env "KAFKA_COMMAND_TOPIC" "messages"
    kafkaResultTopic := env.getD "KAFKA_RESULT_TOPIC"
    kafkaGroupId := text env "KAFKA_GROUP_ID" "matchcore"
    readTimeout := read
    writeTimeout := write
    idleTimeout := idle
    shutdownTimeout := shutdown }

end Config

end Exchange
