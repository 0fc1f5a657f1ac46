import LogShipper.Delivery.Dialogue
import LogShipper.Endpoint
import LogShipper.Pool.Config

/-!
# Borrowing links and giving them back

A link is borrowed from a running pool, waiting for one if need be. A link in bad health is
discarded when it is given back; one in good health is reset, pinged if the pool is set to, and
put back among the idle ones unless these are as many as the pool keeps.

`evict` is one background check: it holds a batch of idle links together, pings each, discards
those that fail and puts back the others. `shutdown` stops a pool for good.

Covers `startup`, `acquire`, `release`, the end of a lease that is not released (`lapse`),
`shutdown` and `evict_idle`. The phase is checked first, in an exchange of its own.

Out of scope: a system that has no thread left for background checks, and a check that breaks down;
both would only be logged.
-/

namespace LogShipper.Delivery

/-- What a pool is made with. -/
structure PoolSettings where
  endpoint : Endpoint
  config : PoolConfig

/-! ## Borrowing -/

/-- Borrows a link from the pool behind a check that has succeeded. -/
def borrow : Dialogue (Except PoolError LinkId) :=
  .ask .borrow fun
    | .ok link => .done (.ok link)
    | .error reason => .done (.error (.unavailable reason))

/-- Borrows a link. -/
def acquire : Dialogue (Except PoolError LinkId) :=
  .ask .poolPhase fun
    | .running => borrow
    | .created => .done (.error .notStarted)
    | .shutDown => .done (.error .shutDown)

namespace PoolSettings

variable (p : PoolSettings)

/-! ## The life of a pool, and giving back -/

/-- A log entry of the pool. -/
def log (level : Level) (message : String) (fields : List (String × String)) : Dialogue Unit :=
  .log level .pool message (("endpoint", p.endpoint.display) :: fields)

/-- Sets the pool up. No link is opened for it unless some are to be kept open unasked, so a store
that cannot be reached is no obstacle. -/
def startup : Dialogue (Except PoolError Unit) :=
  .ask .poolPhase fun
    | .running => do
      p.log .warn "Connection pool already started" []
      return .ok ()
    | .shutDown => .done (.error .shutDown)
    | .created =>
      .ask .openPool fun _ => do
        p.log .info "Connection pool created" [
          ("max_total", Text.decimal p.config.capacity),
          ("min_idle", Text.decimal p.config.minIdle.toNat),
          ("tls", Text.truth p.endpoint.isTls)]
        return .ok ()

/-- Discards a link. -/
def discard (link : LinkId) : Dialogue Unit := .request (.discard link)

/-- Puts a link back, unless as many are idle as the pool keeps. -/
def putBack (link : LinkId) : Dialogue Unit :=
  .ask .idleCount fun idle =>
    if p.config.maxIdle.toNat ≤ idle then do
      p.log .debug "Idle set full, closing returned connection"
        [("max_idle", Text.decimal p.config.maxIdle.toNat)]
      discard link
    else .request (.giveBack link)

/-- Pings a link that is given back, if the pool is set to. -/
def checkReturned (link : LinkId) : Dialogue Unit :=
  if p.config.testOnReturn then
    .ask (.ping link) fun
      | .ok () => p.putBack link
      | .error e => do
        p.log .warn "Return validation failed, discarding" [("error", e.message)]
        discard link
  else p.putBack link

/-- Gives a borrowed link back. -/
def release (link : LinkId) (healthy : Bool) : Dialogue Unit :=
  if healthy then
    .ask (.reset link) fun
      | .ok () => p.checkReturned link
      | .error e => do
        p.log .warn "Connection reset failed, discarding" [("error", e.message)]
        discard link
  else do
    p.log .debug "Discarding unhealthy connection" []
    discard link

/-- A borrower goes away without giving its link back: the link goes back as it is. -/
def lapse (link : LinkId) : Dialogue Unit := .request (.giveBack link)

/-- Stops the pool for good and waits until all lent links are back, at most so many milliseconds.
Answers whether they are. -/
def shutdown (ms : Option Nat) : Dialogue Bool :=
  .ask .closePool fun
    | .created => .done true
    | .shutDown => .done true
    | .running =>
      .ask (.drain ms) fun lent => do
        if lent ≠ 0 then
          p.log .warn "Timed out waiting for borrowed connections during shutdown"
            [("borrowed", Text.decimal lent)]
        Dialogue.request .forsakePool
        p.log .info "Connection pool shut down" [("drained", Text.truth (lent = 0))]
        return lent = 0

/-! ## Background checks -/

/-- Borrows idle links, at most so many. -/
def gather : Nat → Dialogue (List LinkId)
  | 0 => .done []
  | n + 1 =>
    .ask .tryBorrow fun
      | none => .done []
      | some link => (gather n).bind fun links => .done (link :: links)

/-- Pings the links of a batch; answers which of them failed. -/
def probe : List LinkId → Dialogue (List LinkId)
  | [] => .done []
  | link :: rest =>
    .ask (.ping link) fun
      | .ok () => probe rest
      | .error e => do
        p.log .debug "Evicting idle connection" [("error", e.message)]
        return link :: (← probe rest)

/-- Lets go of the links of a batch, in the order in which they were borrowed. -/
def disband (failed : List LinkId) : List LinkId → Dialogue Unit
  | [] => .done ()
  | link :: rest =>
    .ask (if failed.contains link then .discard link else .giveBack link) fun _ =>
      disband failed rest

/-- One background check. -/
def evict : Dialogue Unit := do
  let batch ← gather p.config.evictionBatchSize.toNat
  let failed ← p.probe batch
  if batch ≠ [] then
    p.log .debug "Idle eviction run" [("tested", Text.decimal batch.length),
      ("evicted", Text.decimal failed.length)]
  disband failed batch

end PoolSettings

end LogShipper.Delivery
