import LogShipper.Destination
import LogShipper.Endpoint
import LogShipper.Pool.Config
import LogShipper.Retry.Policy

/-!
# Configurations

What one shipper is configured with, its JSON form, its quoted form, and the rules that a
configuration must keep before a shipper can run with it.

Covers `SinkConfig` with its defaults, `validate`, `destination` and `io_timeout`.

Results:
* `validate_result`: whether a configuration is accepted does not depend on what is logged.
-/

namespace LogShipper

/-- What one shipper is configured with. -/
structure Config where
  name : String := "list-sink"
  endpoint : Endpoint := { host := "127.0.0.1" }
  keys : List String := ["logs"]
  pool : PoolConfig := {}
  retry : RetryPolicy := {}
  /-- Milliseconds that connecting, sending and receiving may take. -/
  ioTimeoutMs : UInt64 := 2000
  deriving DecidableEq

namespace Config

/-- The JSON form. -/
def toJson (c : Config) : Json.Value :=
  .object [("name", .text c.name), ("endpoint", c.endpoint.toJson),
    ("keys", .array (c.keys.map .text)), ("pool", c.pool.toJson), ("retry", c.retry.toJson),
    ("io_timeout_ms", .int c.ioTimeoutMs.toNat)]

/-- The quoted form, which hides the password. -/
def quoted (c : Config) : String :=
  Text.record "SinkConfig" [
    ("name", Text.quoted c.name),
    ("endpoint", c.endpoint.quoted),
    ("keys", Text.bracketed (c.keys.map Text.quoted)),
    ("pool", c.pool.quoted),
    ("retry", c.retry.quoted),
    ("io_timeout_ms", Text.decimal c.ioTimeoutMs.toNat)]

/-- How the JSON form is read. -/
def shape : Json.Shape Config where
  name := "SinkConfig"
  start := { endpoint := { host := "" }, keys := [] }
  fields := [
    .setting "name" false .text fun v c => { c with name := v },
    .setting "endpoint" true Endpoint.shape.read fun v c => { c with endpoint := v },
    .setting "keys" true (.list .text) fun v c => { c with keys := v },
    .setting "pool" false PoolConfig.shape.read fun v c => { c with pool := v },
    .setting "retry" false RetryPolicy.shape.read fun v c => { c with retry := v },
    .setting "io_timeout_ms" false .uint64 fun v c => { c with ioTimeoutMs := v }]

/-- Reads the JSON form from a text. -/
def ofJson (s : String) : Except ConfigError Config :=
  (Json.readText shape.read s).mapError .document

/-- Reads the JSON form from a value. -/
def ofValue (v : Json.Value) : Except ConfigError Config :=
  (Json.readValue shape.read v).mapError .document

/-- The milliseconds that connecting, sending and receiving may take: never less than one. -/
def ioMillis (c : Config) : Nat := max 1 c.ioTimeoutMs.toNat

/-- The lists that records are appended to. -/
def destination (c : Config) : Logged (Except ConfigError Destination) := Destination.ofKeys c.keys

/-- The first rule broken by the endpoint's name. -/
def checkEndpoint (c : Config) : Except ConfigError Unit :=
  if Text.isBlankText c.endpoint.host then .error (.invalid "no host provided")
  else if c.endpoint.port = 0 then .error (.invalid "port must be non-zero")
  else .ok ()

/-- The first rule broken by numbers and certificates. -/
def checkLimits (c : Config) : Except ConfigError Unit :=
  if c.retry.maxAttempts = 0 then .error (.invalid "retry.max_attempts must be at least 1")
  else if c.pool.maxTotal = 0 then .error (.invalid "pool.max_total must be at least 1")
  else if c.pool.maxIdle < c.pool.minIdle then
    .error (.invalid ("pool.min_idle (" ++ Text.decimal c.pool.minIdle.toNat ++
      ") exceeds pool.max_idle (" ++ Text.decimal c.pool.maxIdle.toNat ++ ")"))
  else if c.endpoint.tls.any fun t => t.clientCert.isSome != t.clientKey.isSome then
    .error (.invalid "tls.client_cert and tls.client_key must be set together")
  else .ok ()

/-- Whether a shipper can run with the configuration; the first broken rule if not. -/
def validate (c : Config) : Logged (Except ConfigError Unit) :=
  (Logged.silent c.checkEndpoint).andThen fun _ =>
    c.destination.andThen fun _ => Logged.silent c.checkLimits

/-- Whether a shipper can run with the configuration. -/
def check (c : Config) : Except ConfigError Unit := do
  c.checkEndpoint
  let _ ← Destination.ofKeys? c.keys
  c.checkLimits

/-- Whether a configuration is accepted does not depend on what is logged. -/
theorem validate_result (c : Config) : c.validate.result = c.check := by
  unfold validate check destination Destination.ofKeys Logged.andThen Logged.silent
  cases c.checkEndpoint with
  | error e => rfl
  | ok u =>
    cases Destination.ofKeys? c.keys with
    | error e => rfl
    | ok d => rfl

end Config

end LogShipper
