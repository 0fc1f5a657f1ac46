import LogShipper.Json.Reading

/-!
# What can go wrong

One type per kind of failure, each with the text it is reported by (`message`) and the quoted form
in which it is shown inside another value (`quoted`).

The split of `LinkError` decides what happens next: after a command error the link is good and the
operation may be tried again, after a connection error the link is lost.

Covers `TransportError` with `is_connection_level`, `PoolError`, `LifecycleError` and `ConfigError`.

Out of scope: `SinkError`, which holds one of these and says the same.
-/

namespace LogShipper

/-- What a link answers when an operation fails. -/
inductive LinkError where
  /-- The link itself is unusable. -/
  | connection (reason : String)
  /-- The operation failed on a link that is still good. -/
  | command (reason : String)
  deriving DecidableEq, Repr

namespace LinkError

/-- Whether the link must not be used again. -/
def isConnection : LinkError → Bool
  | connection _ => true
  | command _ => false

/-- The reason alone. -/
def reason : LinkError → String
  | connection r => r
  | command r => r

/-- How the error is reported. -/
def message : LinkError → String
  | connection r => "Connection error: " ++ r
  | command r => "Command error: " ++ r

/-- The error inside another value. -/
def quoted : LinkError → String
  | connection r => "Connection(" ++ Text.quoted r ++ ")"
  | command r => "Command(" ++ Text.quoted r ++ ")"

end LinkError

/-- Why no link could be borrowed from a pool. -/
inductive PoolError where
  | notStarted
  | shutDown
  | unavailable (reason : String)
  deriving DecidableEq, Repr

namespace PoolError

/-- How the error is reported. -/
def message : PoolError → String
  | notStarted => "Connection pool has not been started"
  | shutDown => "Connection pool has been shut down"
  | unavailable r => "Connection unavailable: " ++ r

/-- The error inside another value. -/
def quoted : PoolError → String
  | notStarted => "NotStarted"
  | shutDown => "ShutDown"
  | unavailable r => "Unavailable(" ++ Text.quoted r ++ ")"

end PoolError

/-- Use of an engine at the wrong time. -/
inductive LifecycleError where
  | notStarted
  | stopped
  deriving DecidableEq, Repr

namespace LifecycleError

/-- How the error is reported. -/
def message : LifecycleError → String
  | notStarted => "Delivery engine used before startup"
  | stopped => "Delivery engine used after shutdown"

/-- The error inside another value. -/
def quoted : LifecycleError → String
  | notStarted => "NotStarted"
  | stopped => "Stopped"

end LifecycleError

/-- Why there is no configuration. -/
inductive ConfigError where
  /-- The file could not be read. -/
  | unreadable (reason : String)
  /-- The file does not hold a configuration document. -/
  | document (problem : Json.Problem)
  /-- A value is not acceptable. -/
  | invalid (reason : String)
  deriving DecidableEq, Repr

namespace ConfigError

/-- How the error is reported. Where a document fails is not part of it. -/
def message : ConfigError → String
  | unreadable r => "IO error: " ++ r
  | document (.data m) => "JSON error: " ++ m
  | document (.fault .malformed) => "JSON error: malformed document"
  | document (.fault .truncated) => "JSON error: document ends too early"
  | invalid r => "Invalid configuration: " ++ r

/-- The error inside another value. -/
def quoted : ConfigError → String
  | unreadable r =>
    "Io(" ++ Text.record "Custom" [("kind", "Other"), ("error", Text.quoted r)] ++ ")"
  | document p => "Json(" ++ Text.quoted (message (document p)) ++ ")"
  | invalid r => "Invalid(" ++ Text.quoted r ++ ")"

end ConfigError

/-- Any failure of the shipper. -/
inductive ShipperError where
  | link (error : LinkError)
  | pool (error : PoolError)
  | lifecycle (error : LifecycleError)
  | config (error : ConfigError)

namespace ShipperError

/-- How the error is reported. -/
def message : ShipperError → String
  | link e => e.message
  | pool e => e.message
  | lifecycle e => e.message
  | config e => e.message

/-- The error inside another value. -/
def quoted : ShipperError → String
  | link e => "Transport(" ++ e.quoted ++ ")"
  | pool e => "Pool(" ++ e.quoted ++ ")"
  | lifecycle e => "Lifecycle(" ++ e.quoted ++ ")"
  | config e => "Config(" ++ e.quoted ++ ")"

end ShipperError

end LogShipper
