/-!
# Waiting between attempts

A `Backoff` says how long to wait before the next attempt. The interval doubles from one wait to
the next until it is half of the longest, and then is the longest. Each wait is drawn from around
the interval; one that would end after the time allowed in all is refused, but still moves the
interval on. Times are in nanoseconds.

* `Backoff.next_interval`: the interval moves on in the same way whether a wait is granted or not,
  unless the time allowed is over already.
-/

namespace Availability

/-- A number of milliseconds. -/
def milliseconds (n : Nat) : Nat := n * 1000000

/-- A number of seconds. -/
def seconds (n : Nat) : Nat := milliseconds (n * 1000)

/-- How long to wait between attempts. -/
structure Backoff where
  interval : Nat
  initial : Nat
  /-- The part of the interval, in percent, by which a wait may differ from it. -/
  spreadPercent : Nat
  multiplier : Nat
  longest : Nat
  allowed : Nat
  deriving DecidableEq, Repr

namespace Backoff

/-- The waits of an operation that may be attempted `maxRetries` times: ten seconds at most, and
ten seconds for each attempt in all. -/
def create (maxRetries baseDelayMs : Nat) : Backoff :=
  { interval := milliseconds baseDelayMs
    initial := milliseconds baseDelayMs
    spreadPercent := 50
    multiplier := 2
    longest := seconds 10
    allowed := seconds (maxRetries * 10) }

/-- The interval after this one. -/
def advance (b : Backoff) : Nat :=
  if b.longest ≤ b.interval * b.multiplier then b.longest else b.interval * b.multiplier

/-- Asks for the next wait, which is `wait`, when `elapsed` has gone by since the start. -/
def next (b : Backoff) (elapsed wait : Nat) : Option Nat × Backoff :=
  if b.allowed < elapsed then (none, b)
  else
    (if elapsed + wait ≤ b.allowed then some wait else none, { b with interval := b.advance })

/-- Whether a wait may be drawn for an interval. -/
def MayDraw (b : Backoff) (wait : Nat) : Prop :=
  b.interval * (100 - b.spreadPercent) ≤ wait * 100 ∧
    wait * 100 ≤ b.interval * (100 + b.spreadPercent) + 100

theorem next_interval (b : Backoff) (elapsed wait : Nat) (h : elapsed ≤ b.allowed) :
    (b.next elapsed wait).2.interval = b.advance := by
  simp [next, Nat.not_lt.2 h]

end Backoff

end Availability
