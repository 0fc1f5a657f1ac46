import LogShipper.Delivery.Engine
import LogShipper.Layout

/-!
# Appenders

An appender lays records out and hands them to an engine. A record that comes from shipping itself
is refused, or it would come back again and again; that and use of a stopped appender are logged,
never raised.

Covers `append`, `append_batch` with `encode`, `refuse` and `log_misuse`, `start`, `stop`,
`is_internal_target`, and the two forms in which an appender is shown.

Out of scope: what a layout from outside does with a record; it is a function here.

Results:
* `isInternalTarget_iff`: the internal targets are four names and all that lies under them.
-/

namespace LogShipper

open Delivery (Dialogue Engine SendOutcome BulkReport)

/-! ## Targets of shipping itself -/

/-- The targets of shipping itself. -/
def internalTargets : List String :=
  ["list_sink_core", "list_sink_appender", "redis", "r2d2"]

/-- Whether a target is one of another name or lies under it. -/
def isUnder (target name : String) : Bool :=
  target == name || (name.toList ++ [':', ':']).isPrefixOf target.toList

/-- Whether records of a target are not to be shipped. -/
def isInternalTarget (target : String) : Bool := internalTargets.any (isUnder target)

/-- The internal targets are four names and all that lies under them. -/
theorem isInternalTarget_iff {target : String} :
    isInternalTarget target = true ↔
      ∃ name ∈ internalTargets, target = name ∨ name.toList ++ [':', ':'] <+: target.toList := by
  simp [isInternalTarget, isUnder]

/-! ## Appending -/

/-- An engine and how records are laid out for it. -/
structure Appender where
  engine : Engine
  layout : Layout

namespace Appender

variable (a : Appender)

/-- The name of an appender is that of its engine. -/
def name : String := a.engine.name

/-- What is shown of an appender. -/
def display : String :=
  "ListAppender\x7bname=" ++ a.name ++ ", host=" ++ a.engine.pool.endpoint.host ++ ", port=" ++
    Text.decimal a.engine.pool.endpoint.port.toNat ++ ", keys=" ++
    a.engine.destination.display ++ "\x7d"

/-- The quoted form. -/
def quoted (phase : Phase) : String :=
  Text.record "ListAppender" [("engine", a.engine.quoted phase)]

/-- Whether a record is refused. -/
def refuses (r : Record) : Bool := isInternalTarget r.target

/-- What to log of a refused record. -/
def logRefused (r : Record) : Dialogue Unit :=
  .log .warn .appender
    ("Recursive logging from [" ++ r.target ++ "] for appender [" ++ a.name ++ "]") []

/-- What to log when the engine is used at the wrong time. -/
def logMisuse (e : LifecycleError) : Dialogue Unit :=
  .log .error .appender ("Unable to write to list store in appender [" ++ a.name ++ "]")
    [("appender", a.name), ("error", e.message)]

/-- The result of an engine's call, if there is one; misuse is logged. -/
def swallow {α : Type} : Except LifecycleError α → Dialogue (Option α)
  | .ok result => .done (some result)
  | .error e => do
    a.logMisuse e
    return none

/-- Lays out and sends one record. -/
def append (r : Record) : Dialogue (Option SendOutcome) :=
  if refuses r then do
    a.logRefused r
    return none
  else do
    a.swallow (← a.engine.send (a.layout.payload r))

/-- Logs the refused ones among records. -/
def logAllRefused : List Record → Dialogue Unit
  | [] => .done ()
  | r :: rest => do
    if refuses r then a.logRefused r
    logAllRefused rest

/-- The payloads of records, the refused ones left out. -/
def payloads (rs : List Record) : List Bytes :=
  (rs.filter fun r => !refuses r).map a.layout.payload

/-- Lays out records and sends them over one link. -/
def appendBatch (rs : List Record) : Dialogue (Option BulkReport) := do
  a.logAllRefused rs
  a.swallow (← a.engine.sendBulk (a.payloads rs))

/-! ## Calls -/

/-- What can be asked of an appender. -/
inductive Call where
  | start
  | stop (ms : Option Nat)
  | append (record : Record)
  | batch (records : List Record)

/-- What a call comes back with. -/
inductive Reply where
  | ok
  | refused (error : LifecycleError)
  | flag (value : Bool)
  | outcome (outcome : Option SendOutcome)
  | report (report : Option BulkReport)

/-- The talk of a call. -/
def Call.dialogue : Call → Dialogue Reply
  | .start => a.engine.startup.bind fun
    | .ok () => .done .ok
    | .error e => .done (.refused e)
  | .stop ms => (a.engine.shutdown ms).bind fun drained => .done (.flag drained)
  | .append r => (a.append r).bind fun outcome => .done (.outcome outcome)
  | .batch rs => (a.appendBatch rs).bind fun report => .done (.report report)

end Appender

end LogShipper
