import Availability.Error
import Availability.Json.Printer

/-!
# The settings

`Config` holds the settings of the service in five sections. `form` says how they are
called and what each takes; every reader of settings goes by it and hands its findings to
`Config.ofTable`.

* `validate_eq_none_iff`: settings are valid exactly when the address of the sources is given and
  no number that has to be positive is zero.
-/

namespace Availability.Settings

/-- How log lines are written. -/
inductive LogFormat where
  | json
  | pretty
  deriving DecidableEq, Repr, Inhabited

/-- The name of a format. -/
def LogFormat.name : LogFormat → String
  | .json => "json"
  | .pretty => "pretty"

/-- The numbers of the pipeline. -/
structure Pipeline where
  channelBufferSize : Nat
  batchSize : Nat
  tickIntervalMs : Nat
  shutdownTimeoutSecs : Nat
  deriving DecidableEq, Repr

/-- Where and how the credential service is asked. -/
structure Sources where
  url : String
  requestTimeoutSecs : Nat
  maxRetries : Nat
  retryBaseDelayMs : Nat
  deriving DecidableEq, Repr

/-- Where and how long providers are probed. -/
structure Probing where
  gatewayUrl : String
  timeoutSecs : Nat
  deriving DecidableEq, Repr

/-- Where requests come from and results go to. -/
structure Transport where
  input : Option String
  output : Option String
  topic : String
  orgId : String
  accountNumber : Option String
  deriving DecidableEq, Repr

/-- What the service says of itself. -/
structure Telemetry where
  logLevel : String
  logFormat : LogFormat
  metricsEnabled : Bool
  metricsPort : Nat
  deriving DecidableEq, Repr

/-- All settings. -/
structure Config where
  pipeline : Pipeline
  sources : Sources
  probe : Probing
  transport : Transport
  telemetry : Telemetry
  deriving DecidableEq, Repr

/-- What a setting takes. -/
inductive Kind where
  /-- A natural number of so many bits, and what such a number is called. -/
  | count (bits : Nat) (name : String)
  /-- A text, and what it is called. -/
  | text (name : String)
  | flag
  /-- One of some words, and what they are called together. -/
  | word (form : String) (words : List String)
  deriving DecidableEq, Repr

/-- A setting: its name, what it takes, and whether it may be missing. -/
structure Field where
  name : String
  kind : Kind
  optional : Bool
  deriving DecidableEq, Repr

/-- A section: its name, what its form is called, and its settings. -/
structure Section where
  name : String
  form : String
  fields : List Field
  deriving DecidableEq, Repr

namespace Section

/-- What the settings of a section are called when they are listed in order. -/
def listName (form : String) (n : Nat) : String := s!"struct {form} with {n} elements"

end Section

/-- A number of 64 bits. -/
def large : Kind := .count 64 "u64"

/-- A number of 64 bits that is the size of something. -/
def size : Kind := .count 64 "usize"

/-- A text. -/
def plain : Kind := .text "a string"

/-- The place of a file. -/
def path : Kind := .text "path string"

/-- The form of the settings. -/
def form : List Section :=
  [⟨"pipeline", "PipelineConfig",
      [⟨"channel_buffer_size", size, false⟩, ⟨"batch_size", size, false⟩,
        ⟨"tick_interval_ms", large, false⟩, ⟨"shutdown_timeout_secs", large, false⟩]⟩,
    ⟨"sources", "SourcesConfig",
      [⟨"url", plain, false⟩, ⟨"request_timeout_secs", large, false⟩,
        ⟨"max_retries", .count 32 "u32", false⟩, ⟨"retry_base_delay_ms", large, false⟩]⟩,
    ⟨"probe", "ProbeConfig", [⟨"gateway_url", plain, false⟩, ⟨"timeout_secs", large, false⟩]⟩,
    ⟨"transport", "TransportConfig",
      [⟨"input", path, true⟩, ⟨"output", path, true⟩, ⟨"topic", plain, false⟩,
        ⟨"org_id", plain, false⟩, ⟨"account_number", plain, true⟩]⟩,
    ⟨"telemetry", "TelemetryConfig",
      [⟨"log_level", plain, false⟩, ⟨"log_format", .word "LogFormat" ["json", "pretty"], false⟩,
        ⟨"metrics_enabled", .flag, false⟩, ⟨"metrics_port", .count 16 "u16", false⟩]⟩]

/-- What all settings together are called. -/
def formName : String := "Config"

/-- The values of settings by section and name. -/
abbrev Table := List (String × Json.Members)

namespace Table

/-- The value of a setting. -/
def value (t : Table) (section_ name : String) : Json.Value :=
  (((t.lookup section_).getD []).lookup name).getD .null

/-- The value of a setting that is a number. -/
def count (t : Table) (section_ name : String) : Nat :=
  match t.value section_ name with
  | .number (.int i) => i.toNat
  | _ => 0

/-- The value of a setting that is a text, or missing. -/
def text? (t : Table) (section_ name : String) : Option String :=
  match t.value section_ name with
  | .text s => some s
  | _ => none

/-- The value of a setting that is a text. -/
def text (t : Table) (section_ name : String) : String := (t.text? section_ name).getD ""

/-- The value of a setting that is on or off. -/
def flag (t : Table) (section_ name : String) : Bool :=
  match t.value section_ name with
  | .bool b => b
  | _ => false

end Table

namespace Config

/-- The settings of a table that has the form. -/
def ofTable (t : Table) : Config :=
  { pipeline :=
      { channelBufferSize := t.count "pipeline" "channel_buffer_size"
        batchSize := t.count "pipeline" "batch_size"
        tickIntervalMs := t.count "pipeline" "tick_interval_ms"
        shutdownTimeoutSecs := t.count "pipeline" "shutdown_timeout_secs" }
    sources :=
      { url := t.text "sources" "url"
        requestTimeoutSecs := t.count "sources" "request_timeout_secs"
        maxRetries := t.count "sources" "max_retries"
        retryBaseDelayMs := t.count "sources" "retry_base_delay_ms" }
    probe :=
      { gatewayUrl := t.text "probe" "gateway_url"
        timeoutSecs := t.count "probe" "timeout_secs" }
    transport :=
      { input := t.text? "transport" "input"
        output := t.text? "transport" "output"
        topic := t.text "transport" "topic"
        orgId := t.text "transport" "org_id"
        accountNumber := t.text? "transport" "account_number" }
    telemetry :=
      { logLevel := t.text "telemetry" "log_level"
        logFormat := if t.text "telemetry" "log_format" = "json" then .json else .pretty
        metricsEnabled := t.flag "telemetry" "metrics_enabled"
        metricsPort := t.count "telemetry" "metrics_port" } }

/-- A text that may be missing. -/
def optionalText : Option String → Json.Value
  | some s => .text s
  | none => .null

/-- The table of some settings. -/
def toTable (c : Config) : Table :=
  [("pipeline",
      [("channel_buffer_size", .nat c.pipeline.channelBufferSize),
        ("batch_size", .nat c.pipeline.batchSize),
        ("tick_interval_ms", .nat c.pipeline.tickIntervalMs),
        ("shutdown_timeout_secs", .nat c.pipeline.shutdownTimeoutSecs)]),
    ("sources",
      [("url", .text c.sources.url), ("request_timeout_secs", .nat c.sources.requestTimeoutSecs),
        ("max_retries", .nat c.sources.maxRetries),
        ("retry_base_delay_ms", .nat c.sources.retryBaseDelayMs)]),
    ("probe",
      [("gateway_url", .text c.probe.gatewayUrl), ("timeout_secs", .nat c.probe.timeoutSecs)]),
    ("transport",
      [("input", optionalText c.transport.input), ("output", optionalText c.transport.output),
        ("topic", .text c.transport.topic), ("org_id", .text c.transport.orgId),
        ("account_number", optionalText c.transport.accountNumber)]),
    ("telemetry",
      [("log_level", .text c.telemetry.logLevel),
        ("log_format", .text c.telemetry.logFormat.name),
        ("metrics_enabled", .bool c.telemetry.metricsEnabled),
        ("metrics_port", .nat c.telemetry.metricsPort)])]

/-- The settings in JSON. -/
def toJson (c : Config) : Json.Value := .object (c.toTable.map fun s => (s.1, .object s.2))

/-- The settings that hold where nothing else is said. -/
def default : Config :=
  { pipeline := ⟨32, 1024, 5000, 30⟩
    sources := ⟨"http://localhost:8131/api/sources/v3.1", 10, 3, 250⟩
    probe := ⟨"http://localhost:8132/api/probe/v1", 10⟩
    transport := ⟨none, none, "platform.sources.status", "000000", none⟩
    telemetry := ⟨"info", .pretty, true, 9090⟩ }

/-- Settings read back from their table are the same. -/
theorem ofTable_toTable (c : Config) : ofTable c.toTable = c := by
  obtain ⟨⟨_, _, _, _⟩, ⟨_, _, _, _⟩, ⟨_, _⟩, ⟨input, output, _, _, account⟩,
    ⟨_, format, _, _⟩⟩ := c
  cases input <;> cases output <;> cases account <;> cases format <;> rfl

/-- What is wrong with settings of the right form, if anything is. -/
def validate (c : Config) : Option SettingFault :=
  if c.sources.url = "" then some (.required "sources.url")
  else if c.pipeline.batchSize = 0 then some (.notPositive "pipeline.batch_size")
  else if c.pipeline.channelBufferSize = 0 then some (.notPositive "pipeline.channel_buffer_size")
  else if c.pipeline.tickIntervalMs = 0 then some (.notPositive "pipeline.tick_interval_ms")
  else if c.pipeline.shutdownTimeoutSecs = 0 then
    some (.notPositive "pipeline.shutdown_timeout_secs")
  else none

theorem validate_eq_none_iff (c : Config) :
    c.validate = none ↔
      c.sources.url ≠ "" ∧ c.pipeline.batchSize ≠ 0 ∧ c.pipeline.channelBufferSize ≠ 0
        ∧ c.pipeline.tickIntervalMs ≠ 0 ∧ c.pipeline.shutdownTimeoutSecs ≠ 0 := by
  unfold validate
  repeat' split
  all_goals simp_all

/-- The defaults are valid. -/
theorem validate_default : default.validate = none := by decide

end Config

end Availability.Settings
