import LogShipper.Json.Reading

/-!
# Retry policies

How often one push is tried, and how long to wait between two tries. At least one try is made. A
delay is kept in whole milliseconds, in 64 bits.

Covers `RetryPolicy` with its defaults, `new`, `attempts` and `delay`.

Results:
* `one_le_attempts`: at least one try is made.
-/

namespace LogShipper

/-- A span of time: seconds, and nanoseconds below one second. -/
structure Duration where
  secs : UInt64
  nanos : Nat
  nanos_lt : nanos < 1000000000
  deriving DecidableEq

namespace Duration

/-- A span of whole milliseconds. -/
def ofMillis (ms : UInt64) : Duration where
  secs := ms / 1000
  nanos := ms.toNat % 1000 * 1000000
  nanos_lt := by omega

/-- A span of seconds and nanoseconds, where a second or more of nanoseconds counts as seconds. -/
def ofParts (secs : UInt64) (nanos : Nat) : Duration where
  secs := secs + UInt64.ofNat (nanos / 1000000000)
  nanos := nanos % 1000000000
  nanos_lt := Nat.mod_lt _ (by decide)

/-- The whole milliseconds in a span. -/
def millis (d : Duration) : Nat := d.secs.toNat * 1000 + d.nanos / 1000000

end Duration

/-- How a push that fails is tried again. -/
structure RetryPolicy where
  /-- Tries for one key, the first one included. -/
  maxAttempts : UInt32 := 3
  /-- Milliseconds between two tries. -/
  retryDelayMs : UInt64 := 100
  deriving DecidableEq, Repr

namespace RetryPolicy

/-- A policy with a delay of any span; its milliseconds are kept modulo `2 ^ 64`. -/
def withDelay (maxAttempts : UInt32) (delay : Duration) : RetryPolicy where
  maxAttempts := maxAttempts
  retryDelayMs := UInt64.ofNat delay.millis

/-- The tries that are made: never less than one. -/
def attempts (p : RetryPolicy) : Nat := max 1 p.maxAttempts.toNat

/-- The wait between two tries. -/
def delay (p : RetryPolicy) : Duration := .ofMillis p.retryDelayMs

theorem one_le_attempts (p : RetryPolicy) : 1 ≤ p.attempts := Nat.le_max_left _ _

/-- The JSON form. -/
def toJson (p : RetryPolicy) : Json.Value :=
  .object [("max_attempts", .int p.maxAttempts.toNat),
    ("retry_delay_ms", .int p.retryDelayMs.toNat)]

/-- The quoted form. -/
def quoted (p : RetryPolicy) : String :=
  Text.record "RetryPolicy" [("max_attempts", Text.decimal p.maxAttempts.toNat),
    ("retry_delay_ms", Text.decimal p.retryDelayMs.toNat)]

/-- How the JSON form is read. -/
def shape : Json.Shape RetryPolicy where
  name := "RetryPolicy"
  start := {}
  fields := [
    .setting "max_attempts" false .uint32 fun v p => { p with maxAttempts := v },
    .setting "retry_delay_ms" false .uint64 fun v p => { p with retryDelayMs := v }]

end RetryPolicy

end LogShipper
