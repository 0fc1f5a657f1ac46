import LogShipper.Config.Basic
import LogShipper.Delivery.Lease
import LogShipper.Delivery.Push

/-!
# The delivery engine

An engine ships payloads to every list of its destination. A send borrows one link, pushes the
payload to each key in order, each with its own tries, and gives the link back however that went.
A bulk send does so for many payloads over one link; it ends where the link is lost, and the
payloads after that are abandoned.

Failures of delivery are logged and reported, never raised. Only use of an engine at the wrong
time is an error.

Covers `new`, `startup`, `send`, `send_with_cancel` and `send_bulk` with `deliver`, `shutdown`,
`child_token`, and what an engine tells of itself. `Call` is what can be asked of it from outside.

Out of scope: callers that break down in the middle of a call.

Results:
* `total_eq`: a bulk report accounts for all its payloads.
-/

namespace LogShipper.Delivery

open Cancel (TokenId)

/-- Why a payload did not reach every list. -/
inductive SendFailure where
  /-- Some keys used up their tries or had them cancelled. -/
  | undelivered (exhausted cancelled : List String)
  /-- The link was lost; the keys after that were not tried. -/
  | connectionLost (endpoint reason : String)
  /-- No link could be borrowed. -/
  | unavailable (endpoint reason : String)
  deriving DecidableEq, Repr

/-- How the failure is reported. -/
def SendFailure.message : SendFailure → String
  | .undelivered exhausted cancelled =>
    "undelivered to keys exhausted=" ++ Text.bracketed (exhausted.map Text.quoted) ++
      " cancelled=" ++ Text.bracketed (cancelled.map Text.quoted)
  | .connectionLost endpoint reason => "connection to " ++ endpoint ++ " lost: " ++ reason
  | .unavailable endpoint reason => "no connection to " ++ endpoint ++ ": " ++ reason

/-- How a send ended. -/
inductive SendOutcome where
  | delivered
  | failed (failure : SendFailure)
  deriving DecidableEq, Repr

/-- Whether every key accepted the payload. -/
def SendOutcome.isDelivered : SendOutcome → Bool
  | .delivered => true
  | .failed _ => false

/-- How a bulk send ended. -/
structure BulkReport where
  batch : String
  /-- Payloads that every key accepted. -/
  delivered : Nat
  /-- Payloads that were tried and not accepted by every key. -/
  failed : Nat
  /-- Payloads that were never tried. -/
  abandoned : Nat
  deriving DecidableEq, Repr

/-- All payloads of a bulk send. -/
def BulkReport.total (r : BulkReport) : Nat := r.delivered + r.failed + r.abandoned

/-- How the pushes of one payload ended. -/
inductive PayloadOutcome where
  | delivered
  | undelivered (exhausted cancelled : List String)
  | lost (key reason : String)
  deriving DecidableEq, Repr

/-- Whether the link is still good. -/
def PayloadOutcome.keepsLink : PayloadOutcome → Bool
  | .lost _ _ => false
  | _ => true

/-- The outcome of keys that were all tried. -/
def PayloadOutcome.ofFailures (exhausted cancelled : List String) : PayloadOutcome :=
  if exhausted = [] ∧ cancelled = [] then .delivered else .undelivered exhausted cancelled

/-- What an engine is made with. -/
structure Engine where
  name : String
  destination : Destination
  retry : RetryPolicy
  pool : PoolSettings
  /-- The token that is cancelled when the engine stops. -/
  token : TokenId

namespace Engine

/-- The engine of a configuration, if that keeps the rules. -/
def ofConfig (c : Config) (token : TokenId) : Logged (Except ConfigError Engine) :=
  c.validate.andThen fun _ =>
    c.destination.andThen fun destination => .silent (.ok {
      name := c.name
      destination
      retry := c.retry
      pool := { endpoint := c.endpoint, config := c.pool }
      token })

variable (e : Engine)

/-- The store that the engine ships to, as `host:port`. -/
def endpoint : String := e.pool.endpoint.display

/-- The quoted form. -/
def quoted (phase : Phase) : String :=
  Text.record "DeliveryEngine" [
    ("name", Text.quoted e.name),
    ("endpoint", e.pool.endpoint.quoted),
    ("keys", Text.bracketed (e.destination.keys.map Text.quoted)),
    ("state", match phase with
      | .created => "Created"
      | .started => "Started"
      | .stopped => "Stopped")]

/-- A log entry of the engine. -/
def log (level : Level) (message : String) (fields : List (String × String)) : Dialogue Unit :=
  .log level .engine message (("sink", e.name) :: fields)

/-! ## Life -/

/-- Sets up the pool and takes sends from then on. -/
def startup : Dialogue (Except LifecycleError Unit) :=
  .ask .phase fun
    | .started => do
      e.log .warn "Delivery engine already started" []
      return .ok ()
    | .stopped => do
      e.log .error "Delivery engine cannot be restarted after shutdown" []
      return .error .stopped
    | .created => do
      match ← e.pool.startup with
      | .error err =>
        e.log .error "Failed to start connection pool" [("error", err.message)]
        return .error .stopped
      | .ok () =>
        Dialogue.request .markStarted
        e.log .info "Delivery engine started"
          [("endpoint", e.endpoint), ("keys", e.destination.display)]
        return .ok ()

/-- Whether the engine takes sends. -/
def ensureStarted : Dialogue (Except LifecycleError Unit) :=
  .ask .phase fun
    | .started => .done (.ok ())
    | .created => do
      e.log .error (LifecycleError.message .notStarted) []
      return .error .notStarted
    | .stopped => do
      e.log .error (LifecycleError.message .stopped) []
      return .error .stopped

/-- Takes no more sends, ends the waits between tries, and stops the pool. Answers whether all
links came back in time. -/
def shutdown (ms : Option Nat) : Dialogue Bool :=
  .ask .markStopped fun
    | .stopped => .done true
    | _ =>
      .ask (.cancel e.token) fun _ => do
        let drained ← e.pool.shutdown ms
        e.log .info "Delivery engine stopped" [("drained", Text.truth drained)]
        return drained

/-! ## One payload -/

/-- Pushes a payload to keys in order; the keys that failed so far stand last one first. -/
def deliverKeys (link : LinkId) (payload : Bytes) (token : TokenId) :
    (keys exhausted cancelled : List String) → Dialogue PayloadOutcome
  | [], exhausted, cancelled =>
    .done (.ofFailures exhausted.reverse cancelled.reverse)
  | key :: keys, exhausted, cancelled =>
    (push link key payload e.retry token).bind fun
      | .delivered _ => deliverKeys link payload token keys exhausted cancelled
      | .exhausted _ _ => deliverKeys link payload token keys (key :: exhausted) cancelled
      | .cancelled _ => deliverKeys link payload token keys exhausted (key :: cancelled)
      | .lost reason => .done (.lost key reason)

/-- Pushes a payload to every key over a link. -/
def deliver (link : LinkId) (payload : Bytes) (token : TokenId) : Dialogue PayloadOutcome :=
  e.deliverKeys link payload token e.destination.keys [] []

/-- What to log of a lost link. -/
def logLost (key reason : String) : Dialogue Unit :=
  e.log .error "Connection to list store lost, abandoning delivery"
    [("endpoint", e.endpoint), ("key", key), ("error", reason)]

/-- What to log when no link can be borrowed for a send. -/
def logUnreachable (reason : String) : Dialogue Unit :=
  e.log .error
    ("Unable to connect to list store. Please ensure that it's running on " ++ e.endpoint)
    [("endpoint", e.endpoint), ("error", reason)]

/-- What a send reports for an outcome. -/
def report : PayloadOutcome → Dialogue SendOutcome
  | .delivered => .done .delivered
  | .undelivered exhausted cancelled => .done (.failed (.undelivered exhausted cancelled))
  | .lost key reason => do
    e.logLost key reason
    return .failed (.connectionLost e.endpoint reason)

/-- Sends one payload over a link that is to be borrowed. -/
def sendOverLink (payload : Bytes) (token : TokenId) : Dialogue SendOutcome := do
  match ← acquire with
  | .error err =>
    e.logUnreachable err.message
    return .failed (.unavailable e.endpoint err.message)
  | .ok link =>
    let outcome ← e.deliver link payload token
    e.pool.release link outcome.keepsLink
    e.report outcome

/-- Sends one payload; the waits between tries end when the token is cancelled. -/
def sendWith (payload : Bytes) (token : TokenId) :
    Dialogue (Except LifecycleError SendOutcome) := do
  match ← e.ensureStarted with
  | .error err => return .error err
  | .ok () => return .ok (← e.sendOverLink payload token)

/-- Sends one payload; the waits between tries end when the engine stops. -/
def send (payload : Bytes) : Dialogue (Except LifecycleError SendOutcome) :=
  e.sendWith payload e.token

/-! ## Many payloads -/

/-- What the pushes of a batch came to. -/
structure Tally where
  delivered : Nat := 0
  failed : Nat := 0
  abandoned : Nat := 0
  /-- Whether the link is still good. -/
  healthy : Bool := true
  deriving DecidableEq, Repr

/-- Pushes payloads in order over one link until it is lost. -/
def deliverAll (link : LinkId) : List Bytes → Tally → Dialogue Tally
  | [], tally => .done tally
  | payload :: rest, tally =>
    (e.deliver link payload e.token).bind fun
      | .delivered => deliverAll link rest { tally with delivered := tally.delivered + 1 }
      | .undelivered _ _ => deliverAll link rest { tally with failed := tally.failed + 1 }
      | .lost key reason =>
        (e.logLost key reason).bind fun _ => .done
          { tally with failed := tally.failed + 1, abandoned := rest.length, healthy := false }

/-- The fields of a batch's log entries. -/
def batchFields (batch : String) : List (String × String) := [("batch_id", batch)]

/-- What to log of a batch that was sent. -/
def logBatch (r : BulkReport) : Dialogue Unit :=
  if 0 < r.failed ∨ 0 < r.abandoned then
    e.log .warn "Batch partially delivered" (batchFields r.batch ++ [
      ("delivered", Text.decimal r.delivered), ("failed", Text.decimal r.failed),
      ("abandoned", Text.decimal r.abandoned)])
  else
    e.log .debug "Batch delivered" (batchFields r.batch ++
      [("delivered", Text.decimal r.delivered)])

/-- Sends a batch over a link that is to be borrowed. -/
def bulkOverLink (payloads : List Bytes) (batch : String) : Dialogue BulkReport := do
  match ← acquire with
  | .error err =>
    e.log .error "Unable to connect to list store, abandoning batch" (batchFields batch ++ [
      ("endpoint", e.endpoint), ("abandoned", Text.decimal payloads.length),
      ("error", err.message)])
    return ⟨batch, 0, 0, payloads.length⟩
  | .ok link =>
    e.log .debug "Sending batch" (batchFields batch)
    let tally ← e.deliverAll link payloads {}
    e.pool.release link tally.healthy
    let report : BulkReport := ⟨batch, tally.delivered, tally.failed, tally.abandoned⟩
    e.logBatch report
    return report

/-- Sends payloads in order over one link. -/
def sendBulk (payloads : List Bytes) : Dialogue (Except LifecycleError BulkReport) := do
  match ← e.ensureStarted with
  | .error err => return .error err
  | .ok () =>
    let batch ← Dialogue.request .batchName
    return .ok (← e.bulkOverLink payloads batch)

/-- Sends payloads one after the other, each over a link of its own; how many are delivered. -/
def sendEach : List Bytes → Dialogue Nat
  | [] => .done 0
  | payload :: rest =>
    (e.send payload).bind fun result =>
      (sendEach rest).bind fun n => .done
        (match result with
        | .ok outcome => if outcome.isDelivered then n + 1 else n
        | .error _ => n)

/-- Lets senders send, each its own payloads in order; how many of each are delivered. One sender
follows the other, which is one of the orders that senders at the same time can take. -/
def sendAll : List (List Bytes) → Dialogue (List Nat)
  | [] => .done []
  | payloads :: rest =>
    (e.sendEach payloads).bind fun n => (sendAll rest).bind fun ns => .done (n :: ns)

/-- A bulk report accounts for all its payloads. -/
theorem total_eq (batch : String) (d f a : Nat) :
    (BulkReport.mk batch d f a).total = d + f + a := rfl

end Engine

/-! ## Calls -/

/-- What an engine tells of itself. -/
structure Description where
  name : String
  keys : List String
  endpoint : String
  retry : RetryPolicy
  quoted : String
  deriving DecidableEq, Repr

/-- What the engine tells of itself in a phase. -/
def Engine.describe (e : Engine) (phase : Phase) : Description where
  name := e.name
  keys := e.destination.keys
  endpoint := e.endpoint
  retry := e.retry
  quoted := e.quoted phase

/-- What can be asked of an engine from outside. Tokens are known by name. -/
inductive Call where
  | describe
  | startup
  | send (payload : Bytes)
  | sendWith (payload : Bytes) (token : String)
  | bulk (payloads : List Bytes)
  /-- Several senders at the same time, each with its payloads in order. -/
  | parallel (senders : List (List Bytes))
  | shutdown (ms : Option Nat)
  /-- A new token under a name. -/
  | newToken (name : String)
  /-- A token under a name, derived from the engine's. -/
  | engineToken (name : String)
  /-- A token under a name, derived from that of another name. -/
  | childToken (name parent : String)
  | cancel (token : String)
  | isCancelled (token : String)
  deriving DecidableEq, Repr

/-- What a call comes back with. -/
inductive Reply where
  | nothing
  | ok
  | outcome (outcome : SendOutcome)
  | report (report : BulkReport)
  /-- How many payloads of each sender were delivered. -/
  | counts (delivered : List Nat)
  | flag (value : Bool)
  | description (description : Description)
  | refused (error : LifecycleError)
  deriving DecidableEq, Repr

/-- Whether the one who calls hears what is logged meanwhile: senders log on their own. -/
def Call.isHeard : Call → Bool
  | .parallel _ => false
  | _ => true

/-- The talk of a call. A name that holds no token makes no request. -/
def Call.dialogue (e : Engine) : Call → Dialogue Reply
  | .describe => .ask .phase fun phase => .done (.description (e.describe phase))
  | .startup => e.startup.bind fun
    | .ok () => .done .ok
    | .error err => .done (.refused err)
  | .send payload => (e.send payload).bind fun
    | .ok d => .done (.outcome d)
    | .error err => .done (.refused err)
  | .sendWith payload name =>
    .ask (.token name) fun
      | none => .done .nothing
      | some token => (e.sendWith payload token).bind fun
        | .ok d => .done (.outcome d)
        | .error err => .done (.refused err)
  | .bulk payloads => (e.sendBulk payloads).bind fun
    | .ok r => .done (.report r)
    | .error err => .done (.refused err)
  | .parallel senders => (e.sendAll senders).bind fun counts => .done (.counts counts)
  | .shutdown ms => (e.shutdown ms).bind fun drained => .done (.flag drained)
  | .newToken name => .ask (.newToken name none) fun _ => .done .nothing
  | .engineToken name => .ask (.newToken name (some e.token)) fun _ => .done .nothing
  | .childToken name parent =>
    .ask (.token parent) fun
      | none => .done .nothing
      | some token => .ask (.newToken name (some token)) fun _ => .done .nothing
  | .cancel name =>
    .ask (.token name) fun
      | none => .done .nothing
      | some token => .ask (.cancel token) fun _ => .done .nothing
  | .isCancelled name =>
    .ask (.token name) fun
      | none => .done .nothing
      | some token => .ask (.isCancelled token) fun b => .done (.flag b)

end LogShipper.Delivery
