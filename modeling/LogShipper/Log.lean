import LogShipper.Text.Quoted

/-!
# The shipper's own log

The shipper reports what it does as log entries: a level, the part of the shipper that speaks, a
message and named fields. `Logged α` is a result together with the entries raised on the way.

Out of scope: spans, and where in the program an entry is raised.
-/

namespace LogShipper

/-- How grave an event is, the most verbose first. -/
inductive Level where
  | trace
  | debug
  | info
  | warn
  | error
  deriving DecidableEq, Repr

namespace Level

/-- The name of a level. -/
def name : Level → String
  | trace => "TRACE"
  | debug => "DEBUG"
  | info => "INFO"
  | warn => "WARN"
  | error => "ERROR"

/-- How verbose a level is. -/
def verbosity : Level → Nat
  | error => 1
  | warn => 2
  | info => 3
  | debug => 4
  | trace => 5

/-- All levels, the most verbose first. -/
def all : List Level := [trace, debug, info, warn, error]

/-- The level of an upper-case name. -/
def ofName? (s : String) : Option Level := all.find? fun l => l.name == s

end Level

/-- The part of the shipper that raises a log entry. -/
inductive Source where
  | destination
  | retry
  | pool
  | engine
  | client
  | appender
  | command
  deriving DecidableEq, Repr

/-- The target under which a part of the shipper logs. -/
def Source.target : Source → String
  | .destination => "list_sink_core::destination"
  | .retry => "list_sink_core::retry"
  | .pool => "list_sink_core::pool"
  | .engine => "list_sink_core::engine"
  | .client => "list_sink_core::redis_transport"
  | .appender => "list_sink_appender::appender"
  | .command => "list_sink"

/-- One entry of the shipper's own log. -/
structure LogEntry where
  level : Level
  source : Source
  message : String
  fields : List (String × String)
  deriving DecidableEq, Repr

/-- An entry as a line of text, after a time. -/
def LogEntry.line (time : String) (e : LogEntry) : String :=
  time ++ " " ++ String.ofList (List.replicate (5 - e.level.name.length) ' ') ++ e.level.name ++
    " " ++ e.source.target ++ ": " ++ e.message ++
    String.join (e.fields.map fun f => " " ++ f.1 ++ "=" ++ f.2)

/-- A result and the log entries raised while it was found. -/
structure Logged (α : Type) where
  result : α
  log : List LogEntry

namespace Logged

variable {α β ε : Type}

/-- A result without entries. -/
def silent (a : α) : Logged α := ⟨a, []⟩

/-- Goes on with a successful result; the entries of both parts are kept. -/
def andThen (x : Logged (Except ε α)) (f : α → Logged (Except ε β)) : Logged (Except ε β) :=
  match x.result with
  | .error e => ⟨.error e, x.log⟩
  | .ok a => ⟨(f a).result, x.log ++ (f a).log⟩

end Logged

end LogShipper
