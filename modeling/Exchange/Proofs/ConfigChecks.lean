import Mathlib
import Exchange.Config.Basic
import Exchange.Proofs.Except
/-!
# The configuration accepts exactly the valid environments

`Config.load` merges the env file into the environment and then checks the
settings one after another (`Config.checked`): the port, the log level, the
markets, the trade history and the four timeouts. Each setting is read from its
variable, and a variable that is unset or empty stands for the default. Said
here on their own, without `load`:

* `Setting.Holds`: the variable is unset, empty, or a text the setting takes
  (`Setting.Valid`);
* `Setting.Fails`: the variable is set to a text the setting refuses, with the
  error that text gives (`Setting.Refuses`);
* `FailsFirst`: the first setting of a list that does not hold fails so;
* `Reads`: what a configuration holds, field by field, read off the
  environment: a parsed value or its default, the comma lists in order, and the
  queue consumer on iff there are brokers;
* `EnvFileLoads` and `EnvFileRefuses`: the env file loads with its assignments,
  or fails with an error.

`load_acceptsValid`: merging never overrides a variable already set; `load`
succeeds iff the env file loads and every setting holds on the merged
environment; its configuration is then the one `Reads` describes; and it fails
with exactly the env file's error or that of the first setting that fails. The
proof cuts `load` into one step per setting (`load_eq_staged`) and gives each
step its lemma.

Key definitions: `Config.Setting`, `Config.checked`, `Config.FailsFirst`,
`Config.Reads`, `Config.EnvFileLoads`, `Config.settle`.
Key theorems: `Config.load_eq_staged`, `Config.settle_eq_error_iff`,
`Config.load_acceptsValid`.
-/

namespace Exchange

namespace LogLevel

theorem ofName?_eq_some_iff {t : String} {l : LogLevel} : ofName? t = some l ↔ l.name = t := by
  constructor
  · intro h
    unfold ofName? at h
    split at h <;> cases h <;> rfl
  · rintro rfl
    cases l <;> rfl

theorem ofName?_eq_none_iff {t : String} :
    ofName? t = none ↔ t ∉ ["debug", "info", "warn", "error"] := by
  unfold ofName?
  split <;> simp_all

end LogLevel

namespace Environment

theorem get?_setIfUnset_of_set {e : Environment} {k v k' v' : String} (h : e.get? k = some v) :
    (e.setIfUnset k' v').get? k = some v := by
  unfold setIfUnset
  split
  · exact h
  · obtain ⟨x, hx, rfl⟩ := Option.map_eq_some_iff.mp h
    simp [get?, List.find?_append, hx]

@[simp] theorem merge_nil (e : Environment) : e.merge [] = e := rfl

/-- Merging an env file changes no variable that is already set. -/
theorem get?_merge_of_set {e : Environment} {k v : String} (assigned : List (String × String))
    (h : e.get? k = some v) : (e.merge assigned).get? k = some v := by
  unfold merge
  induction assigned generalizing e with
  | nil => exact h
  | cons a rest ih =>
    rw [List.foldl_cons]
    apply ih
    split
    · exact get?_setIfUnset_of_set h
    · exact h

end Environment

namespace Config

/-! ### The env file -/

/-- The env file an environment is merged with: the file `ENV_FILE` names, or
`.env`. -/
def envFileName (env : Environment) : String :=
  if env.getD "ENV_FILE" = "" then ".env" else env.getD "ENV_FILE"

/-- The env file loads with these assignments: its text reads and the reader
takes it, or `ENV_FILE` is unset or empty and there is no `.env`, which assigns
nothing. -/
def EnvFileLoads (reader : EnvReader) (env : Environment) (files : Files)
    (assigned : List (String × String)) : Prop :=
  (∃ text, files.read (envFileName env) = .ok text ∧ reader.parse text = .ok assigned) ∨
    (env.getD "ENV_FILE" = "" ∧ files.read ".env" = .error .missing ∧ assigned = [])

/-- The env file fails to load with this error: it cannot be read, other than
a `.env` that is not there, or the reader refuses its text. -/
def EnvFileRefuses (reader : EnvReader) (env : Environment) (files : Files) (e : ConfigError) : Prop :=
  (∃ f, files.read (envFileName env) = .error f ∧ (env.getD "ENV_FILE" ≠ "" ∨ f ≠ .missing) ∧
      .envFile (env.getD "ENV_FILE") (.unreadable (envFileName env) f) = e) ∨
    ∃ text err, files.read (envFileName env) = .ok text ∧ reader.parse text = .error err ∧
      .envFile (env.getD "ENV_FILE") err = e

theorem withEnvFile_eq_ok_iff {reader : EnvReader} {env E : Environment} {files : Files} :
    withEnvFile reader env files = .ok E ↔
      ∃ assigned, EnvFileLoads reader env files assigned ∧ env.merge assigned = E := by
  unfold withEnvFile EnvFileLoads envFileName
  by_cases hpath : env.getD "ENV_FILE" = ""
  · simp only [hpath, String.isEmpty_iff, ↓reduceIte, true_and]
    split <;> rename_i hr
    · simp [hr]
    · rename_i f hf
      have hmissing : f ≠ .missing := hf
      simp [hr, hmissing]
    · split <;> rename_i hp <;> simp [hr, hp]
  · have hempty : (env.getD "ENV_FILE").isEmpty = false := by simpa using hpath
    simp only [hempty, hpath, Bool.false_eq_true, ↓reduceIte, false_and, or_false]
    split <;> rename_i hr
    · simp [hr]
    · simp [hr]
    · split <;> rename_i hp <;> simp [hr, hp]

theorem withEnvFile_eq_error_iff {reader : EnvReader} {env : Environment} {files : Files}
    {e : ConfigError} : withEnvFile reader env files = .error e ↔ EnvFileRefuses reader env files e := by
  unfold withEnvFile EnvFileRefuses envFileName
  by_cases hpath : env.getD "ENV_FILE" = ""
  · simp only [hpath, String.isEmpty_iff, ↓reduceIte]
    split <;> rename_i hr
    · simp [hr]
    · rename_i f hf
      have hmissing : f ≠ .missing := hf
      simp [hr, hmissing]
    · split <;> rename_i hp <;> simp [hr, hp]
  · have hempty : (env.getD "ENV_FILE").isEmpty = false := by simpa using hpath
    simp only [hempty, hpath, Bool.false_eq_true, ↓reduceIte]
    split <;> rename_i hr
    · simp [hr, hpath]
    · simp [hr, hpath]
    · split <;> rename_i hp <;> simp [hr, hp]

/-! ### Settings read by a parser -/

/-- A setting read by a parser from the text of its variable, or its default
when the text is empty: the shape of every integer and duration setting,
`wrap` giving the error for a text the parser refuses. -/
def parsedOr {ε α : Type} (read : String → Except ε α) (wrap : ε → ConfigError) (t : String)
    (dflt : α) : Except ConfigError α :=
  if t.isEmpty then .ok dflt
  else match read t with
    | .ok v => .ok v
    | .error e => .error (wrap e)

theorem integer_eq_parsedOr (E : Environment) (name : String) (dflt : Int) :
    integer E name dflt =
      parsedOr Text.readInteger (.notInteger name (E.getD name)) (E.getD name) dflt := by
  unfold integer parsedOr
  dsimp only
  cases Text.readInteger (E.getD name) <;> rfl

theorem duration_eq_parsedOr (E : Environment) (name : String) (dflt : Int) :
    duration E name dflt =
      parsedOr readDuration (.notDuration name (E.getD name)) (E.getD name) dflt := by
  unfold duration parsedOr
  dsimp only
  cases readDuration (E.getD name) <;> rfl

/-- A value a parser reads from a text, or the default for the empty text. -/
def ParsedOr {ε α : Type} (read : String → Except ε α) (t : String) (dflt v : α) : Prop :=
  (t = "" ∧ v = dflt) ∨ (t ≠ "" ∧ read t = .ok v)

section Parsed

variable {ε α : Type} {read : String → Except ε α} {wrap : ε → ConfigError} {t : String} {dflt v : α}

theorem parsedOr_eq_ok_iff : parsedOr read wrap t dflt = .ok v ↔ ParsedOr read t dflt v := by
  unfold parsedOr ParsedOr
  by_cases ht : t = ""
  · simp only [ht, String.isEmpty_iff, ↓reduceIte, Except.ok.injEq, true_and, ne_eq, not_true_eq_false,
      false_and, or_false]
    exact eq_comm
  · have hempty : t.isEmpty = false := by simpa using ht
    simp only [hempty, Bool.false_eq_true, ↓reduceIte, ht, false_and, false_or, ne_eq,
      not_false_eq_true, true_and]
    split <;> rename_i hr <;> simp [hr]

theorem parsedOr_eq_error_iff {e : ConfigError} :
    parsedOr read wrap t dflt = .error e ↔ t ≠ "" ∧ ∃ err, read t = .error err ∧ wrap err = e := by
  unfold parsedOr
  by_cases ht : t = ""
  · simp [ht]
  · have hempty : t.isEmpty = false := by simpa using ht
    simp only [hempty, Bool.false_eq_true, ↓reduceIte, ne_eq, ht, not_false_eq_true, true_and]
    split <;> rename_i hr <;> simp [hr]

theorem parsedOr_ok_iff : (∃ v, parsedOr read wrap t dflt = .ok v) ↔ t = "" ∨ ∃ v, read t = .ok v := by
  simp only [parsedOr_eq_ok_iff, ParsedOr]
  by_cases ht : t = "" <;> simp [ht]

end Parsed

/-! ### The checked settings -/

/-- A setting checked after the env file is merged. -/
inductive Setting where
  | port
  | logLevel
  | markets
  | tradeHistory
  /-- A timeout, named by its variable. -/
  | timeout (var : String)

/-- The settings in the order they are checked. -/
def checked : List Setting :=
  [.port, .logLevel, .markets, .tradeHistory, .timeout "READ_TIMEOUT", .timeout "WRITE_TIMEOUT",
    .timeout "IDLE_TIMEOUT", .timeout "SHUTDOWN_TIMEOUT"]

namespace Setting

/-- The variable a setting is read from. -/
def var : Setting → String
  | port => "PORT"
  | logLevel => "LOG_LEVEL"
  | markets => "MARKETS"
  | tradeHistory => "TRADE_HISTORY"
  | timeout v => v

/-- The texts a setting takes. -/
def Valid : Setting → String → Prop
  | port, t => ∃ n, Text.readInteger t = .ok n ∧ 1 ≤ n ∧ n ≤ 65535
  | logLevel, t => t ∈ ["debug", "info", "warn", "error"]
  | markets, t => items t ≠ [] ∧ (items t).Nodup
  | tradeHistory, t => ∃ n, Text.readInteger t = .ok n ∧ 1 ≤ n
  | timeout _, t => ∃ d, readDuration t = .ok d

/-- The error a setting gives for a text it does not take: a text that is no
integer or duration, a value out of bounds, an unknown level, a list with no
market, or the first market listed twice. -/
def Refuses : Setting → String → ConfigError → Prop
  | port, t, e => (∃ err, Text.readInteger t = .error err ∧ .notInteger "PORT" t err = e) ∨
      ∃ n, Text.readInteger t = .ok n ∧ (n < 1 ∨ 65535 < n) ∧ .portRange n = e
  | logLevel, t, e => t ∉ ["debug", "info", "warn", "error"] ∧ .logLevel t = e
  | markets, t, e => (items t = [] ∧ .noMarkets = e) ∨
      ∃ pre m post, items t = pre ++ m :: post ∧ pre.Nodup ∧ m ∈ pre ∧ .repeatedMarket m = e
  | tradeHistory, t, e =>
      (∃ err, Text.readInteger t = .error err ∧ .notInteger "TRADE_HISTORY" t err = e) ∨
      ∃ n, Text.readInteger t = .ok n ∧ n < 1 ∧ .historyNotPositive n = e
  | timeout v, t, e => ∃ err, readDuration t = .error err ∧ .notDuration v t err = e

/-- An environment passes a setting: its variable is unset, empty, or holds a
text the setting takes. -/
def Holds (s : Setting) (E : Environment) : Prop := E.getD s.var = "" ∨ s.Valid (E.getD s.var)

/-- An environment fails a setting with an error: its variable holds a text
the setting refuses with that error. -/
def Fails (s : Setting) (E : Environment) (e : ConfigError) : Prop :=
  E.getD s.var ≠ "" ∧ s.Refuses (E.getD s.var) e

end Setting

/-- The first setting of a list that an environment does not pass fails with
`e`, every setting before it passing. -/
def FailsFirst (E : Environment) (e : ConfigError) (ss : List Setting) : Prop :=
  ∃ pre s post, ss = pre ++ s :: post ∧ (∀ s' ∈ pre, s'.Holds E) ∧ s.Fails E e

@[simp] theorem failsFirst_nil (E : Environment) (e : ConfigError) : ¬FailsFirst E e [] := by
  rintro ⟨pre, s, post, h, -, -⟩
  simp at h

@[simp] theorem failsFirst_cons (E : Environment) (e : ConfigError) (s : Setting) (ss : List Setting) :
    FailsFirst E e (s :: ss) ↔ s.Fails E e ∨ (s.Holds E ∧ FailsFirst E e ss) := by
  constructor
  · rintro ⟨pre, s', post, h, hpre, hfail⟩
    cases pre with
    | nil =>
      obtain ⟨rfl, -⟩ := List.cons_eq_cons.mp h
      exact .inl hfail
    | cons p pre =>
      obtain ⟨hp, hss⟩ := List.cons_eq_cons.mp h
      subst hp
      exact .inr ⟨hpre _ List.mem_cons_self, pre, s', post, hss,
        fun x hx => hpre x (List.mem_cons_of_mem _ hx), hfail⟩
  · rintro (hfail | ⟨hs, pre, s', post, rfl, hpre, hfail⟩)
    · exact ⟨[], s, ss, rfl, by simp, hfail⟩
    · refine ⟨s :: pre, s', post, rfl, ?_, hfail⟩
      rintro x (_ | ⟨_, hx⟩)
      · exact hs
      · exact hpre x hx

/-! ### First repeats -/

/-- The first item of a list that repeats one before it or one seen before the
list: the items before it are distinct and unseen. -/
theorem firstRepeat_eq_some_iff (seen l : List String) (m : String) :
    firstRepeat seen l = some m ↔
      ∃ pre post, l = pre ++ m :: post ∧ pre.Nodup ∧ (∀ x ∈ pre, x ∉ seen) ∧ (m ∈ pre ∨ m ∈ seen) := by
  induction l generalizing seen with
  | nil => simp [firstRepeat]
  | cons a l ih =>
    unfold firstRepeat
    by_cases ha : a ∈ seen
    · simp only [List.contains_iff_mem, ha, ↓reduceIte, Option.some.injEq]
      constructor
      · rintro rfl
        exact ⟨[], l, rfl, List.nodup_nil, by simp, .inr ha⟩
      · rintro ⟨pre, post, hl, -, hpre, hm⟩
        cases pre with
        | nil => simpa using (List.cons_eq_cons.mp hl).1
        | cons b pre =>
          obtain ⟨hab, -⟩ := List.cons_eq_cons.mp hl
          subst hab
          exact absurd ha (hpre _ List.mem_cons_self)
    · simp only [List.contains_iff_mem, ha, ↓reduceIte, ih]
      constructor
      · rintro ⟨pre, post, rfl, hnodup, hpre, hm⟩
        refine ⟨a :: pre, post, rfl, ?_, ?_, ?_⟩
        · exact List.nodup_cons.mpr ⟨fun h => hpre a h List.mem_cons_self, hnodup⟩
        · rintro x (_ | ⟨_, hx⟩)
          · exact ha
          · exact fun h => hpre x hx (List.mem_cons_of_mem a h)
        · rcases hm with hm | hm
          · exact .inl (List.mem_cons_of_mem a hm)
          · rcases List.mem_cons.mp hm with rfl | hm
            · exact .inl List.mem_cons_self
            · exact .inr hm
      · rintro ⟨pre, post, hl, hnodup, hpre, hm⟩
        cases pre with
        | nil =>
          obtain ⟨rfl, -⟩ := List.cons_eq_cons.mp hl
          simp only [List.not_mem_nil, false_or] at hm
          exact absurd hm ha
        | cons b pre =>
          obtain ⟨hab, hrest⟩ := List.cons_eq_cons.mp hl
          subst hab
          obtain ⟨hb, hnodup⟩ := List.nodup_cons.mp hnodup
          refine ⟨pre, post, hrest, hnodup, ?_, ?_⟩
          · intro x hx hxs
            rcases List.mem_cons.mp hxs with rfl | hxs
            · exact hb hx
            · exact hpre x (List.mem_cons_of_mem _ hx) hxs
          · rcases hm with hm | hm
            · rcases List.mem_cons.mp hm with rfl | hm
              · exact .inr List.mem_cons_self
              · exact .inl hm
            · exact .inr (List.mem_cons_of_mem _ hm)

theorem firstRepeat_eq_none_iff (seen l : List String) :
    firstRepeat seen l = none ↔ l.Nodup ∧ ∀ x ∈ l, x ∉ seen := by
  induction l generalizing seen with
  | nil => simp [firstRepeat]
  | cons a l ih =>
    unfold firstRepeat
    by_cases ha : a ∈ seen
    · simp [ha]
    · simp only [List.contains_iff_mem, ha, ↓reduceIte]
      rw [ih, List.nodup_cons]
      constructor
      · rintro ⟨hnodup, hl⟩
        refine ⟨⟨fun h => hl a h List.mem_cons_self, hnodup⟩, ?_⟩
        rintro x (_ | ⟨_, hx⟩)
        · exact ha
        · exact fun h => hl x hx (List.mem_cons_of_mem a h)
      · rintro ⟨⟨hal, hnodup⟩, hl⟩
        refine ⟨hnodup, fun x hx hxs => ?_⟩
        rcases List.mem_cons.mp hxs with rfl | hxs
        · exact hal hx
        · exact hl x (List.mem_cons_of_mem _ hx) hxs

/-! ### One step per setting -/

/-- An integer setting with a bound: its value, or the default, refused with
`err` when it is `bad`. -/
def bounded (E : Environment) (name : String) (dflt : Int) (bad : Int → Bool)
    (err : Int → ConfigError) : Except ConfigError Int := do
  let n ← integer E name dflt
  if bad n then throw (err n) else pure n

/-- The port: an integer from 1 to 65535, 8080 by default. -/
def portStep (E : Environment) : Except ConfigError Int :=
  bounded E "PORT" 8080 (fun p => p < 1 || p > 65535) .portRange

/-- The trade history: a positive integer, 1000 by default. -/
def historyStep (E : Environment) : Except ConfigError Int :=
  bounded E "TRADE_HISTORY" 1000 (fun n => n < 1) .historyNotPositive

/-- The log level, `info` by default. -/
def levelStep (E : Environment) : Except ConfigError LogLevel :=
  match LogLevel.ofName? (text E "LOG_LEVEL" "info") with
  | some l => pure l
  | none => throw (.logLevel (text E "LOG_LEVEL" "info"))

/-- The markets as listed, `BTC_USDT` and `ETH_USDT` by default. -/
def marketList (E : Environment) : List String :=
  if (E.getD "MARKETS").isEmpty then ["BTC_USDT", "ETH_USDT"] else items (E.getD "MARKETS")

/-- The markets: at least one, and none listed twice. -/
def marketsStep (E : Environment) : Except ConfigError (List String) :=
  if (marketList E).isEmpty then throw .noMarkets
  else match firstRepeat [] (marketList E) with
    | some m => throw (.repeatedMarket m)
    | none => pure (marketList E)

/-- The configuration of the checked values, with the settings taken as given. -/
def assemble (E : Environment) (port : Int) (level : LogLevel) (markets : List String)
    (history read write idle shutdown : Int) : Config where
  port := port.toNat
  logLevel := level
  quoteAsset := text E "QUOTE_ASSET" "USDT"
  markets := markets
  tradeHistory := history.toNat
  kafkaBrokers := items (E.getD "KAFKA_BROKERS")
  kafkaCommandTopic := text E "KAFKA_COMMAND_TOPIC" "messages"
  kafkaResultTopic := E.getD "KAFKA_RESULT_TOPIC"
  kafkaGroupId := text E "KAFKA_GROUP_ID" "matchcore"
  readTimeout := read
  writeTimeout := write
  idleTimeout := idle
  shutdownTimeout := shutdown

/-- The checks after the env file, in order, and the configuration they give. -/
def settle (E : Environment) : Except ConfigError Config := do
  let port ← portStep E
  let level ← levelStep E
  let markets ← marketsStep E
  let history ← historyStep E
  let read ← duration E "READ_TIMEOUT" 5000000000
  let write ← duration E "WRITE_TIMEOUT" 10000000000
  let idle ← duration E "IDLE_TIMEOUT" 60000000000
  let shutdown ← duration E "SHUTDOWN_TIMEOUT" 10000000000
  pure (assemble E port level markets history read write idle shutdown)

/-- `load` merges the env file and then takes the settings one step at a time. -/
theorem load_eq_staged (reader : EnvReader) (env : Environment) (files : Files) :
    load reader env files = withEnvFile reader env files >>= settle := by
  unfold load settle portStep historyStep levelStep marketsStep bounded
  refine bind_congr fun E => ?_
  simp only [bind_assoc]
  refine bind_congr fun port => ?_
  by_cases hrange : (decide (port < 1) || decide (port > 65535)) = true
  · simp only [hrange, ↓reduceIte]
    rfl
  simp only [hrange, Bool.false_eq_true, ↓reduceIte, pure_bind]
  rcases LogLevel.ofName? (text E "LOG_LEVEL" "info") with _ | level
  · rfl
  simp only [pure_bind]
  rw [show (if (E.getD "MARKETS").isEmpty = true then ["BTC_USDT", "ETH_USDT"]
    else items (E.getD "MARKETS")) = marketList E from rfl]
  by_cases hnone : (marketList E).isEmpty = true
  · simp only [hnone, ↓reduceIte]
    rfl
  simp only [hnone, Bool.false_eq_true, ↓reduceIte]
  rcases firstRepeat [] (marketList E) with _ | m
  · simp only [pure_bind]
    refine bind_congr fun history => ?_
    by_cases hpos : history < 1
    · simp only [hpos, decide_true, ↓reduceIte]
      rfl
    · simp only [hpos, decide_false, Bool.false_eq_true, ↓reduceIte, pure_bind]
      rfl
  · rfl

/-! ### What each step takes -/

theorem text_eq (E : Environment) (name dflt : String) :
    text E name dflt = if E.getD name = "" then dflt else E.getD name := by
  simp [text]

section Bounded

variable {E : Environment} {name : String} {dflt : Int} {bad : Int → Bool} {err : Int → ConfigError}

theorem bounded_eq_ok_iff {v : Int} :
    bounded E name dflt bad err = .ok v ↔
      ParsedOr Text.readInteger (E.getD name) dflt v ∧ bad v = false := by
  rw [bounded, bind_eq_ok_iff, integer_eq_parsedOr]
  constructor
  · rintro ⟨n, hn, hif⟩
    by_cases hb : bad n = true
    · simp [hb] at hif
    · simp only [hb, Bool.false_eq_true, ↓reduceIte, pure_eq_ok_iff] at hif
      subst hif
      exact ⟨parsedOr_eq_ok_iff.mp hn, by simpa using hb⟩
  · rintro ⟨hv, hb⟩
    exact ⟨v, parsedOr_eq_ok_iff.mpr hv, by simp [hb]⟩

theorem bounded_ok_iff (hd : bad dflt = false) :
    (∃ v, bounded E name dflt bad err = .ok v) ↔
      E.getD name = "" ∨ ∃ n, Text.readInteger (E.getD name) = .ok n ∧ bad n = false := by
  simp only [bounded_eq_ok_iff, ParsedOr]
  by_cases ht : E.getD name = ""
  · simp [ht, hd]
  · simp [ht]

/-- A bounded setting whose default is within its bound fails exactly on a set
variable that is no integer, or an integer out of bounds. -/
theorem bounded_eq_error_iff (hd : bad dflt = false) {e : ConfigError} :
    bounded E name dflt bad err = .error e ↔ E.getD name ≠ "" ∧
      ((∃ x, Text.readInteger (E.getD name) = .error x ∧ .notInteger name (E.getD name) x = e) ∨
        ∃ n, Text.readInteger (E.getD name) = .ok n ∧ bad n = true ∧ err n = e) := by
  rw [bounded, bind_eq_error_iff, integer_eq_parsedOr, parsedOr_eq_error_iff]
  by_cases ht : E.getD name = ""
  · simp only [ht, ne_eq, not_true_eq_false, false_and, false_or, parsedOr_eq_ok_iff, ParsedOr,
      true_and, or_false, iff_false, not_exists, not_and]
    rintro n rfl hif
    simp [hd] at hif
  · simp only [ht, ne_eq, not_false_eq_true, true_and, parsedOr_eq_ok_iff, ParsedOr, false_and,
      false_or]
    apply or_congr_right
    constructor
    · rintro ⟨n, hn, hif⟩
      by_cases hb : bad n = true
      · simp only [hb, ↓reduceIte, throw_eq_error_iff] at hif
        exact ⟨n, hn, hb, hif⟩
      · simp [hb] at hif
    · rintro ⟨n, hn, hb, rfl⟩
      exact ⟨n, hn, by simp [hb]⟩

end Bounded

section Steps

variable {E : Environment}

theorem port_bad_iff (p : Int) : (p < 1 || p > 65535) = false ↔ 1 ≤ p ∧ p ≤ 65535 := by
  simp only [Bool.or_eq_false_iff, decide_eq_false_iff_not, not_lt, gt_iff_lt]

theorem portStep_eq_ok_iff {p : Int} :
    portStep E = .ok p ↔ ParsedOr Text.readInteger (E.getD "PORT") 8080 p ∧ 1 ≤ p ∧ p ≤ 65535 := by
  rw [portStep, bounded_eq_ok_iff, port_bad_iff]

theorem portStep_ok_iff : (∃ p, portStep E = .ok p) ↔ Setting.port.Holds E := by
  rw [portStep, bounded_ok_iff (by decide)]
  simp only [port_bad_iff]
  rfl

theorem portStep_eq_error_iff {e : ConfigError} : portStep E = .error e ↔ Setting.port.Fails E e := by
  rw [portStep, bounded_eq_error_iff (by decide)]
  simp only [Setting.Fails, Setting.Refuses, Setting.var, Bool.or_eq_true, decide_eq_true_eq, gt_iff_lt]

theorem historyStep_eq_ok_iff {n : Int} :
    historyStep E = .ok n ↔ ParsedOr Text.readInteger (E.getD "TRADE_HISTORY") 1000 n ∧ 1 ≤ n := by
  rw [historyStep, bounded_eq_ok_iff]
  simp

theorem historyStep_ok_iff : (∃ n, historyStep E = .ok n) ↔ Setting.tradeHistory.Holds E := by
  rw [historyStep, bounded_ok_iff (by decide)]
  simp only [decide_eq_false_iff_not, not_lt]
  rfl

theorem historyStep_eq_error_iff {e : ConfigError} :
    historyStep E = .error e ↔ Setting.tradeHistory.Fails E e := by
  rw [historyStep, bounded_eq_error_iff (by decide)]
  simp only [Setting.Fails, Setting.Refuses, Setting.var, decide_eq_true_eq]

theorem duration_eq_ok_iff {var : String} {dflt d : Int} :
    duration E var dflt = .ok d ↔ ParsedOr readDuration (E.getD var) dflt d := by
  rw [duration_eq_parsedOr, parsedOr_eq_ok_iff]

theorem duration_ok_iff {var : String} {dflt : Int} :
    (∃ d, duration E var dflt = .ok d) ↔ (Setting.timeout var).Holds E := by
  rw [duration_eq_parsedOr, parsedOr_ok_iff]
  rfl

theorem duration_eq_error_iff {var : String} {dflt : Int} {e : ConfigError} :
    duration E var dflt = .error e ↔ (Setting.timeout var).Fails E e := by
  rw [duration_eq_parsedOr, parsedOr_eq_error_iff]
  rfl

theorem levelStep_eq_ok_iff {l : LogLevel} :
    levelStep E = .ok l ↔ (E.getD "LOG_LEVEL" = "" ∧ l = .info) ∨
      (E.getD "LOG_LEVEL" ≠ "" ∧ l.name = E.getD "LOG_LEVEL") := by
  unfold levelStep
  rw [text_eq]
  by_cases ht : E.getD "LOG_LEVEL" = ""
  · simp only [ht, ↓reduceIte, true_and, ne_eq, not_true_eq_false, false_and, or_false]
    exact ⟨fun h => (pure_eq_ok_iff.mp h).symm, fun h => by rw [h]; rfl⟩
  · simp only [ht, ↓reduceIte, false_and, ne_eq, not_false_eq_true, true_and, false_or]
    split <;> rename_i hname
    · rw [pure_eq_ok_iff, ← LogLevel.ofName?_eq_some_iff, hname, Option.some.injEq]
    · simp only [throw_ne_ok, false_iff]
      intro hl
      rw [← LogLevel.ofName?_eq_some_iff, hname] at hl
      cases hl

theorem levelStep_ok_iff : (∃ l, levelStep E = .ok l) ↔ Setting.logLevel.Holds E := by
  simp only [levelStep_eq_ok_iff, Setting.Holds, Setting.Valid, Setting.var]
  by_cases ht : E.getD "LOG_LEVEL" = ""
  · simp [ht]
  · simp only [ht, false_and, ne_eq, not_false_eq_true, true_and, false_or]
    rw [← not_iff_not, not_exists, ← LogLevel.ofName?_eq_none_iff, Option.eq_none_iff_forall_ne_some]
    simp only [ne_eq, LogLevel.ofName?_eq_some_iff]

theorem levelStep_eq_error_iff {e : ConfigError} :
    levelStep E = .error e ↔ Setting.logLevel.Fails E e := by
  unfold levelStep
  rw [text_eq]
  simp only [Setting.Fails, Setting.Refuses, Setting.var]
  by_cases ht : E.getD "LOG_LEVEL" = ""
  · simp [ht, LogLevel.ofName?]
  · simp only [ht, ↓reduceIte, ne_eq, not_false_eq_true, true_and]
    split <;> rename_i hname
    · have hknown : E.getD "LOG_LEVEL" ∈ ["debug", "info", "warn", "error"] := by
        by_contra hunknown
        rw [← LogLevel.ofName?_eq_none_iff] at hunknown
        rw [hunknown] at hname
        cases hname
      simp [hknown]
    · simp [LogLevel.ofName?_eq_none_iff.mp hname]

theorem marketList_eq (E : Environment) :
    marketList E = if E.getD "MARKETS" = "" then ["BTC_USDT", "ETH_USDT"] else items (E.getD "MARKETS") := by
  simp [marketList]

theorem marketsStep_eq_ok_iff_list {ms : List String} :
    marketsStep E = .ok ms ↔ marketList E ≠ [] ∧ (marketList E).Nodup ∧ marketList E = ms := by
  unfold marketsStep
  generalize marketList E = L
  by_cases hL : L = []
  · simp [hL]
  · have hne : L.isEmpty = false := by simpa using hL
    simp only [hne, Bool.false_eq_true, ↓reduceIte, ne_eq, hL, not_false_eq_true, true_and]
    split <;> rename_i hrepeat
    · simp only [throw_ne_ok, false_iff, not_and]
      intro hnodup
      rw [(firstRepeat_eq_none_iff [] L).mpr ⟨hnodup, by simp⟩] at hrepeat
      cases hrepeat
    · simp [((firstRepeat_eq_none_iff [] L).mp hrepeat).1]

theorem marketsStep_eq_error_iff_list {e : ConfigError} :
    marketsStep E = .error e ↔ (marketList E = [] ∧ .noMarkets = e) ∨
      ∃ pre m post, marketList E = pre ++ m :: post ∧ pre.Nodup ∧ m ∈ pre ∧ .repeatedMarket m = e := by
  unfold marketsStep
  generalize marketList E = L
  by_cases hL : L = []
  · simp [hL]
  · have hne : L.isEmpty = false := by simpa using hL
    simp only [hne, Bool.false_eq_true, ↓reduceIte, hL, false_and, false_or]
    split <;> rename_i m hrepeat
    · rw [throw_eq_error_iff]
      obtain ⟨pre, post, hl, hnodup, -, hm⟩ := (firstRepeat_eq_some_iff [] L m).mp hrepeat
      constructor
      · intro he
        exact ⟨pre, m, post, hl, hnodup, by simpa using hm, he⟩
      · rintro ⟨pre', m', post', hl', hnodup', hm', rfl⟩
        have hfirst := (firstRepeat_eq_some_iff [] L m').mpr ⟨pre', post', hl', hnodup', by simp, .inl hm'⟩
        rw [hrepeat, Option.some.injEq] at hfirst
        rw [hfirst]
    · simp only [pure_ne_error, false_iff, not_exists, not_and]
      intro pre m post hl hnodup hm _
      have hfirst := (firstRepeat_eq_some_iff [] L m).mpr ⟨pre, post, hl, hnodup, by simp, .inl hm⟩
      rw [hrepeat] at hfirst
      cases hfirst

theorem marketsStep_eq_ok_iff {ms : List String} :
    marketsStep E = .ok ms ↔ Setting.markets.Holds E ∧ marketList E = ms := by
  rw [marketsStep_eq_ok_iff_list, marketList_eq]
  simp only [Setting.Holds, Setting.Valid, Setting.var]
  by_cases ht : E.getD "MARKETS" = ""
  · simp [ht]
  · simp [ht, and_assoc]

theorem marketsStep_ok_iff : (∃ ms, marketsStep E = .ok ms) ↔ Setting.markets.Holds E := by
  simp [marketsStep_eq_ok_iff]

theorem marketsStep_eq_error_iff {e : ConfigError} :
    marketsStep E = .error e ↔ Setting.markets.Fails E e := by
  simp only [Setting.Fails, Setting.Refuses, Setting.var]
  by_cases ht : E.getD "MARKETS" = ""
  · have hdefault : marketsStep E = .ok ["BTC_USDT", "ETH_USDT"] :=
      marketsStep_eq_ok_iff.mpr ⟨.inl ht, by simp [marketList_eq, ht]⟩
    simp [hdefault, ht]
  · rw [marketsStep_eq_error_iff_list, marketList_eq]
    simp [ht]

end Steps

/-! ### The settings together -/

/-- The checks after the env file fail exactly with the error of the first
setting that does not hold. -/
theorem settle_eq_error_iff {E : Environment} {e : ConfigError} :
    settle E = .error e ↔ FailsFirst E e checked := by
  simp only [settle, bind_eq_error_iff, pure_ne_error, and_false, exists_false, or_false,
    exists_and_right, portStep_ok_iff, levelStep_ok_iff, marketsStep_ok_iff, historyStep_ok_iff,
    duration_ok_iff, portStep_eq_error_iff, levelStep_eq_error_iff, marketsStep_eq_error_iff,
    historyStep_eq_error_iff, duration_eq_error_iff, checked, failsFirst_cons, failsFirst_nil]

theorem settle_ok_iff {E : Environment} : (∃ cfg, settle E = .ok cfg) ↔ ∀ s ∈ checked, s.Holds E := by
  simp only [checked, List.forall_mem_cons, List.not_mem_nil, IsEmpty.forall_iff, implies_true, and_true]
  constructor
  · rintro ⟨cfg, h⟩
    simp only [settle, bind_eq_ok_iff] at h
    obtain ⟨p, hp, l, hl, ms, hms, n, hn, r, hr, w, hw, i, hi, sd, hsd, -⟩ := h
    exact ⟨portStep_ok_iff.mp ⟨p, hp⟩, levelStep_ok_iff.mp ⟨l, hl⟩, marketsStep_ok_iff.mp ⟨ms, hms⟩,
      historyStep_ok_iff.mp ⟨n, hn⟩, duration_ok_iff.mp ⟨r, hr⟩, duration_ok_iff.mp ⟨w, hw⟩,
      duration_ok_iff.mp ⟨i, hi⟩, duration_ok_iff.mp ⟨sd, hsd⟩⟩
  · rintro ⟨hport, hlevel, hmarkets, hhistory, hread, hwrite, hidle, hshutdown⟩
    obtain ⟨p, hp⟩ := portStep_ok_iff.mpr hport
    obtain ⟨l, hl⟩ := levelStep_ok_iff.mpr hlevel
    obtain ⟨ms, hms⟩ := marketsStep_ok_iff.mpr hmarkets
    obtain ⟨n, hn⟩ := historyStep_ok_iff.mpr hhistory
    obtain ⟨r, hr⟩ : ∃ r, duration E "READ_TIMEOUT" 5000000000 = .ok r := duration_ok_iff.mpr hread
    obtain ⟨w, hw⟩ : ∃ w, duration E "WRITE_TIMEOUT" 10000000000 = .ok w := duration_ok_iff.mpr hwrite
    obtain ⟨i, hi⟩ : ∃ i, duration E "IDLE_TIMEOUT" 60000000000 = .ok i := duration_ok_iff.mpr hidle
    obtain ⟨sd, hsd⟩ : ∃ sd, duration E "SHUTDOWN_TIMEOUT" 10000000000 = .ok sd :=
      duration_ok_iff.mpr hshutdown
    exact ⟨assemble E p l ms n r w i sd, by simp only [settle, hp, hl, hms, hn, hr, hw, hi, hsd, bind, Except.bind]; rfl⟩

/-- What a configuration holds, read off the environment it is loaded from:
each checked setting its parsed value or its default, the markets and the
brokers as comma lists in order, the queue consumer on iff there are brokers,
and the quote asset, the topics and the group as set or by default. -/
structure Reads (E : Environment) (cfg : Config) : Prop where
  port : ParsedOr Text.readInteger (E.getD "PORT") 8080 (cfg.port : Int)
  logLevel : (E.getD "LOG_LEVEL" = "" ∧ cfg.logLevel = .info) ∨
    (E.getD "LOG_LEVEL" ≠ "" ∧ cfg.logLevel.name = E.getD "LOG_LEVEL")
  quoteAsset : cfg.quoteAsset = if E.getD "QUOTE_ASSET" = "" then "USDT" else E.getD "QUOTE_ASSET"
  markets : cfg.markets =
    if E.getD "MARKETS" = "" then ["BTC_USDT", "ETH_USDT"] else items (E.getD "MARKETS")
  tradeHistory : ParsedOr Text.readInteger (E.getD "TRADE_HISTORY") 1000 (cfg.tradeHistory : Int)
  kafkaBrokers : cfg.kafkaBrokers = items (E.getD "KAFKA_BROKERS")
  kafkaEnabled : cfg.kafkaEnabled = true ↔ items (E.getD "KAFKA_BROKERS") ≠ []
  kafkaCommandTopic : cfg.kafkaCommandTopic =
    if E.getD "KAFKA_COMMAND_TOPIC" = "" then "messages" else E.getD "KAFKA_COMMAND_TOPIC"
  kafkaResultTopic : cfg.kafkaResultTopic = E.getD "KAFKA_RESULT_TOPIC"
  kafkaGroupId : cfg.kafkaGroupId =
    if E.getD "KAFKA_GROUP_ID" = "" then "matchcore" else E.getD "KAFKA_GROUP_ID"
  readTimeout : ParsedOr readDuration (E.getD "READ_TIMEOUT") 5000000000 cfg.readTimeout
  writeTimeout : ParsedOr readDuration (E.getD "WRITE_TIMEOUT") 10000000000 cfg.writeTimeout
  idleTimeout : ParsedOr readDuration (E.getD "IDLE_TIMEOUT") 60000000000 cfg.idleTimeout
  shutdownTimeout : ParsedOr readDuration (E.getD "SHUTDOWN_TIMEOUT") 10000000000 cfg.shutdownTimeout

/-- The configuration the checks give is the one read off the environment. -/
theorem settle_reads {E : Environment} {cfg : Config} (h : settle E = .ok cfg) : Reads E cfg := by
  simp only [settle, bind_eq_ok_iff, pure_eq_ok_iff] at h
  obtain ⟨p, hp, l, hl, ms, hms, n, hn, r, hr, w, hw, i, hi, sd, hsd, rfl⟩ := h
  obtain ⟨hport, hp1, -⟩ := portStep_eq_ok_iff.mp hp
  obtain ⟨hhistory, hn1⟩ := historyStep_eq_ok_iff.mp hn
  -- the port and the history are positive, so they are kept exactly as naturals
  have hportNat : ((p.toNat : Nat) : Int) = p := Int.toNat_of_nonneg (by omega)
  have hhistoryNat : ((n.toNat : Nat) : Int) = n := Int.toNat_of_nonneg (by omega)
  exact {
    port := by simpa only [assemble, hportNat] using hport
    logLevel := levelStep_eq_ok_iff.mp hl
    quoteAsset := text_eq E _ _
    markets := (marketsStep_eq_ok_iff.mp hms).2.symm.trans (marketList_eq E)
    tradeHistory := by simpa only [assemble, hhistoryNat] using hhistory
    kafkaBrokers := rfl
    kafkaEnabled := by simp [assemble, Config.kafkaEnabled]
    kafkaCommandTopic := text_eq E _ _
    kafkaResultTopic := rfl
    kafkaGroupId := text_eq E _ _
    readTimeout := duration_eq_ok_iff.mp hr
    writeTimeout := duration_eq_ok_iff.mp hw
    idleTimeout := duration_eq_ok_iff.mp hi
    shutdownTimeout := duration_eq_ok_iff.mp hsd }

/-- **The configuration accepts exactly the valid environments.** Merging the
env file overrides no variable already set. `load` succeeds iff the env file
loads and every checked setting holds on the merged environment: the port an
integer from 1 to 65535, the log level one of `debug`, `info`, `warn`, `error`,
the markets a non-empty comma list without repeats, the trade history a
positive integer, each timeout a duration, any of them unset or empty. What it
loads is then the configuration read off the merged environment, and when it
fails, its error is the env file's or that of the first setting, in the order
checked, that does not hold. All this whatever reader the env file is read
with. -/
theorem load_acceptsValid (reader : EnvReader) (env : Environment) (files : Files) :
    (∀ assigned k v, env.get? k = some v → (env.merge assigned).get? k = some v) ∧
      ((∃ cfg, load reader env files = .ok cfg) ↔
        ∃ assigned, EnvFileLoads reader env files assigned ∧
          ∀ s ∈ checked, s.Holds (env.merge assigned)) ∧
      (∀ cfg, load reader env files = .ok cfg →
        ∃ assigned, EnvFileLoads reader env files assigned ∧ Reads (env.merge assigned) cfg) ∧
      (∀ e, load reader env files = .error e ↔ EnvFileRefuses reader env files e ∨
        ∃ assigned, EnvFileLoads reader env files assigned ∧
          FailsFirst (env.merge assigned) e checked) := by
  refine ⟨fun assigned k v h => Environment.get?_merge_of_set assigned h, ⟨?_, ?_⟩, ?_, fun e => ?_⟩
  · rintro ⟨cfg, h⟩
    rw [load_eq_staged, bind_eq_ok_iff] at h
    obtain ⟨E, hE, hsettle⟩ := h
    obtain ⟨assigned, hloads, rfl⟩ := withEnvFile_eq_ok_iff.mp hE
    exact ⟨assigned, hloads, settle_ok_iff.mp ⟨cfg, hsettle⟩⟩
  · rintro ⟨assigned, hloads, hholds⟩
    obtain ⟨cfg, hsettle⟩ := settle_ok_iff.mpr hholds
    refine ⟨cfg, ?_⟩
    rw [load_eq_staged, bind_eq_ok_iff]
    exact ⟨_, withEnvFile_eq_ok_iff.mpr ⟨assigned, hloads, rfl⟩, hsettle⟩
  · intro cfg h
    rw [load_eq_staged, bind_eq_ok_iff] at h
    obtain ⟨E, hE, hsettle⟩ := h
    obtain ⟨assigned, hloads, rfl⟩ := withEnvFile_eq_ok_iff.mp hE
    exact ⟨assigned, hloads, settle_reads hsettle⟩
  · rw [load_eq_staged, bind_eq_error_iff, withEnvFile_eq_error_iff]
    apply or_congr_right
    constructor
    · rintro ⟨E, hE, hsettle⟩
      obtain ⟨assigned, hloads, rfl⟩ := withEnvFile_eq_ok_iff.mp hE
      exact ⟨assigned, hloads, settle_eq_error_iff.mp hsettle⟩
    · rintro ⟨assigned, hloads, hfirst⟩
      exact ⟨_, withEnvFile_eq_ok_iff.mpr ⟨assigned, hloads, rfl⟩, settle_eq_error_iff.mpr hfirst⟩

/- A port out of range is reported before an unknown log level. -/
example (reader : EnvReader) :
    load reader ⟨[("PORT", "0"), ("LOG_LEVEL", "loud")]⟩ default = .error (.portRange 0) := by rfl

end Config

end Exchange
