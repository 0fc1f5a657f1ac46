import LogShipper.Pool.State
import LogShipper.Store.Transport

/-!
# The world of a pool and its store

A `World` is all that the dialogues of delivery can change: the store, the pool, the clock, the
tokens, the engine's phase, and what was logged. It also keeps a record of everything that was
done to links, the latest act first. What is logged in the background is kept apart (`aside`).

Times are in microseconds.

Covers what one step of `acquire`, `release`, `shutdown` and `evict_idle` does to a pool and to its
store together, what `state` says of a pool, and what is logged where a link cannot be opened or
does not pass its check (`handle_error`).
-/

namespace LogShipper

open Delivery (Reply)

/-- Something done to a link, or from inside a push. -/
inductive Act where
  | opened (link : LinkId)
  | refused (reason : String)
  /-- A push began. -/
  | began (link : LinkId) (key : String) (payload : Bytes)
  /-- A call made from inside the push that began last came back. -/
  | called (reply : Reply)
  /-- The push that began last and has not ended is answered. -/
  | ended (link : LinkId) (answer : Except LinkError Unit)
  | pinged (link : LinkId) (answer : Except LinkError Unit)
  | reset (link : LinkId) (answer : Except LinkError Unit)
  | closed (link : LinkId)

/-- A link that someone else will give back. -/
structure Errand where
  due : Nat
  link : LinkId
  healthy : Bool
  deriving DecidableEq, Repr

/-- When a link will have been opened, or will have failed to be. -/
def Transport.due {σ : Type} (T : Transport σ) (o : Opening) : Nat :=
  o.begins + T.connectTime o.begins

/-- All that delivery can change. -/
structure World (σ : Type) where
  remote : σ
  pool : Pool := {}
  clock : Nat := 0
  errands : List Errand := []
  handles : Cancel.Handles := {}
  phase : Phase := .created
  /-- The name that batches get. -/
  batchName : String := ""
  /-- What was done to links, the latest act first. -/
  acts : List Act := []
  /-- What was logged, the latest entry first. -/
  log : List LogEntry := []
  /-- What was logged in the background, where no caller hears it, the latest entry first. -/
  aside : List LogEntry := []

namespace World

/-- The engine of a configuration, in a world of its own with what was logged meanwhile. -/
def ofConfig {σ : Type} (batchName : String) (remote : σ) (c : Config) :
    Except ConfigError (Delivery.Engine × World σ) :=
  let (token, forest) := Cancel.Forest.create {}
  let made := Delivery.Engine.ofConfig c token
  made.result.map fun e =>
    (e, { remote, handles := { forest }, batchName, log := made.log.reverse })

variable {σ : Type} (T : Transport σ) (s : Delivery.PoolSettings)

/-- What a pool says of its links, all of them and the idle ones; none while it does not run. -/
def stated (w : World σ) : Nat × Nat :=
  if w.pool.phase = .running then (w.pool.connections, w.pool.idle.length) else (0, 0)

/-- Adds to the record. -/
def record (act : Act) (w : World σ) : World σ := { w with acts := act :: w.acts }

/-- Adds to the log. -/
def raise (entry : LogEntry) (w : World σ) : World σ := { w with log := entry :: w.log }

/-- Adds to what is logged in the background. -/
def raiseAside (entry : LogEntry) (w : World σ) : World σ := { w with aside := entry :: w.aside }

/-- Puts aside what was logged since an earlier state. -/
def hush (before after : World σ) : World σ :=
  { after with
    log := before.log
    aside := after.log.take (after.log.length - before.log.length) ++ after.aside }

/-- Nothing was logged since. -/
@[simp] theorem hush_self (w : World σ) : w.hush w = w := by
  simp [hush]

/-- Does something in the background: what is logged meanwhile is put aside. -/
def quietly (f : World σ → World σ) (w : World σ) : World σ := w.hush (f w)

/-- Pings a link. -/
def ping (link : LinkId) (w : World σ) : Except LinkError Unit × World σ :=
  let (answer, remote) := T.ping link w.remote
  (answer, { w with remote }.record (.pinged link answer))

/-- Resets a link. -/
def reset (link : LinkId) (w : World σ) : Except LinkError Unit × World σ :=
  let (answer, remote) := T.reset link w.remote
  (answer, { w with remote }.record (.reset link answer))

/-- Closes a link. -/
def close (link : LinkId) (w : World σ) : World σ :=
  { w with remote := T.close link w.remote }.record (.closed link)

/-- Closes links one after the other. -/
def closeAll : List LinkId → World σ → World σ
  | [], w => w
  | link :: rest, w => closeAll rest (w.close T link)

/-- If nothing holds the pool any more, closes its idle links. -/
def settleForsaken (w : World σ) : World σ :=
  if w.pool.isForsaken then
    closeAll T w.pool.idle { w with pool := w.pool.forsake }
  else w

/-- Puts a borrowed link back among the idle ones. -/
def giveBack (link : LinkId) (w : World σ) : World σ :=
  { w with pool := w.pool.putBack link }.settleForsaken T

/-- Drops a borrowed link and closes it. -/
def discard (link : LinkId) (w : World σ) : World σ :=
  ({ w with pool := w.pool.drop s.config w.clock link }.close T link).settleForsaken T

/-- What is logged when a link cannot be opened, or does not pass the check before it is lent. -/
def checkFailed (e : LinkError) : LogEntry :=
  { level := .warn, source := .pool, message := "Pool failed to open connection"
    fields := [("endpoint", s.endpoint.display), ("error", e.message)] }

/-- Borrows an idle link: takes links off the stack until one passes its check. Each link taken is
one idle link less. -/
def tryBorrowFuel : Nat → World σ → Option LinkId × World σ
  | 0, w => (none, w)
  | fuel + 1, w =>
    match w.pool.take s.config w.clock with
    | none => (none, w)
    | some (link, pool) =>
      let w := { w with pool }
      if s.config.testOnBorrow then
        match w.ping T link with
        | (.ok (), w) => (some link, w)
        | (.error e, w) =>
          let w := w.raise (checkFailed s e)
          tryBorrowFuel fuel
            ({ w with pool := w.pool.blame e.message }.discard T s link)
      else (some link, w)

/-- Borrows an idle link, if one passes its check. -/
def tryBorrow (w : World σ) : Option LinkId × World σ := tryBorrowFuel T s w.pool.idle.length w

/-- Why a borrower got no link: the time is up, and the last failure is told with it. -/
def timedOut (p : Pool) : String :=
  match p.lastError with
  | none => "timed out waiting for connection"
  | some e => "timed out waiting for connection: " ++ e

/-- A borrower gives up; the last failure is forgotten with it. -/
def giveUp (w : World σ) : Except String LinkId × World σ :=
  (.error (timedOut w.pool), { w with pool := { w.pool with lastError := none } })

end World

end LogShipper
