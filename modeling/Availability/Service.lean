import Availability.Credentials
import Availability.Flow.Pipeline
import Availability.Gateway
import Availability.Settings.Config

/-!
# The service

What the settings make of the parts: whose messages come in, whom the credential service is asked
by, how long a check may take, and the numbers of the pipeline. `startFault?` says with which
settings the service does not come into being.

* `startFault?_eq_none_iff`: the numbers with which the service starts.
-/

namespace Availability.Service

open Settings (Config)

/-- The caller on whose behalf all messages come in. -/
def caller (c : Config) : Principal := ⟨c.transport.orgId, c.transport.accountNumber⟩

/-- The credential service. -/
def credentials (c : Config) : CredentialService :=
  ⟨c.sources.url, c.sources.maxRetries, c.sources.retryBaseDelayMs⟩

/-- How long a request to the credential service may take. -/
def lookupLimitMs (c : Config) : Nat := c.sources.requestTimeoutSecs * 1000

/-- How long a check may take. -/
def probeLimitMs (c : Config) : Nat := c.probe.timeoutSecs * 1000

/-- The numbers of the pipeline. -/
def pipeline (c : Config) : Flow.Settings :=
  { capacity := c.pipeline.channelBufferSize
    batchSize := c.pipeline.batchSize
    tickMs := c.pipeline.tickIntervalMs
    shutdownTimeoutSecs := c.pipeline.shutdownTimeoutSecs
    topic := c.transport.topic }

/-- The most seconds that a time can have. -/
def secondsMax : Nat := 0xffffffffffffffff

/-- Why the checks cannot be set up, if they cannot. A request to the gateway is given a second
more than the check that makes it. -/
def probeFault? (c : Config) : Option String :=
  if secondsMax < c.probe.timeoutSecs + 1 then some "overflow when adding durations" else none

/-- Why the service does not start, if it does not. -/
def startFault? (c : Config) : Option String :=
  probeFault? c <|> Flow.State.startFault? c.pipeline.channelBufferSize
    <|> Flow.Batcher.startFault? c.pipeline.batchSize c.pipeline.tickIntervalMs

theorem startFault?_eq_none_iff (c : Config) :
    startFault? c = none ↔
      c.probe.timeoutSecs < secondsMax
        ∧ 0 < c.pipeline.channelBufferSize
        ∧ c.pipeline.channelBufferSize ≤ Flow.State.capacityMax
        ∧ max c.pipeline.batchSize 1 * Flow.Batcher.messageSize ≤ Flow.Batcher.roomMax
        ∧ 0 < c.pipeline.tickIntervalMs := by
  simp only [startFault?, probeFault?, Flow.State.startFault?, Flow.Batcher.startFault?]
  repeat' split
  all_goals simp_all
  all_goals omega

/-- Asks for a source, over a network that answers each request the same however often it is
made. -/
def lookup (c : Config) (circumstances : Circumstances) (network : Http.Request → Http.Reply)
    (sourceId : String) (identity : Principal) : Attempts ResolvedSource :=
  (credentials c).resolve circumstances sourceId identity fun _ => network

/-- Checks credentials. -/
def probe (c : Config) (network : Http.Request → Http.Reply) (p : Provider) (a : Authentication) :
    Except Error Unit :=
  Gateway.probe c.probe.gatewayUrl p a network

end Availability.Service
