import LogShipper.World.State

/-!
# Answering requests while time passes

`answerNow` answers a request without letting time pass. What happens in the background happens
when time passes: links are opened, links are given back by others, idle links are checked. Of
what is due, the earliest comes first. `answer` lets time pass where a request waits for
something: a borrower for a link, the end of a pool for the links it has lent, a try for its turn.

Calls made from inside a push are answered by the same rules, one level deeper; `depth` says how
many levels there are.

Covers the waiting in `acquire` (up to `max_wait_ms`), in `shutdown` and in `wait_for`, and what
goes on in the background: the opening of links, with another try after a failure, and `evict_idle`
every `eviction_interval_ms`.

Out of scope: idle links do not expire by age (`min_evictable_idle_ms`), neither when they are
looked for nor in the background. A closed pool is held by lent links alone, so its idle links go
with the last of these, though a borrower may have found it running before or a link may still be
opening. Threads go on as soon as they can, and links are opened side by side, however many; how
long one takes is up to the transport.
-/

namespace LogShipper.World

open Delivery (Request Dialogue Call Engine PoolSettings)

variable {σ : Type} (T : Transport σ)

/-- Answers a request without letting time pass. -/
def answerNow (s : PoolSettings) (r : Request) (w : World σ) : r.Answer × World σ :=
  match r with
  | .phase => (w.phase, w)
  | .markStarted => ((), { w with phase := .started })
  | .markStopped => (w.phase, { w with phase := .stopped })
  | .poolPhase => (w.pool.phase, w)
  | .openPool => ((), { w with pool := w.pool.start s.config w.clock })
  | .closePool => (w.pool.phase, { w with pool := w.pool.close })
  | .drain _ => (w.pool.lent.length, w)
  | .forsakePool => ((), w.settleForsaken T)
  | .borrow =>
    match w.tryBorrow T s with
    | (some link, w) => (.ok link, w)
    | (none, w) => w.giveUp
  | .tryBorrow => w.tryBorrow T s
  | .push link key payload =>
    let w := w.record (.began link key payload)
    let (_, remote) := T.beginPush link key payload w.remote
    let (answer, remote) := T.endPush link key payload remote
    (answer, { w with remote }.record (.ended link answer))
  | .ping link => w.ping T link
  | .reset link => w.reset T link
  | .idleCount => (w.pool.idle.length, w)
  | .giveBack link => ((), w.giveBack T link)
  | .discard link => ((), w.discard T s link)
  | .wait token _ =>
    (if w.handles.forest.isCancelled token then .cancelled else .elapsed, w)
  | .cancel token => ((), { w with handles := w.handles.cancel token })
  | .token name => (w.handles.token? name, w)
  | .newToken name none => ((), { w with handles := w.handles.create name })
  | .newToken name (some parent) =>
    ((), { w with handles := w.handles.deriveFrom name parent })
  | .isCancelled token => (w.handles.forest.isCancelled token, w)
  | .batchName => (w.batchName, w)
  | .log entry => ((), w.raise entry)

/-! ## What happens in the background -/

/-- Something that is due in the background. Idle links do not expire by age. -/
inductive Happening where
  /-- The opening at an index has succeeded or failed. -/
  | opening (index : Nat)
  /-- The errand at an index: a link is given back. -/
  | errand (index : Nat)
  /-- Idle links are checked. -/
  | eviction
  deriving DecidableEq, Repr

/-- All that is due some time. -/
def agenda (w : World σ) : List (Nat × Happening) :=
  w.pool.openings.mapIdx (fun i o => (T.due o, .opening i)) ++
    w.errands.mapIdx (fun i e => (e.due, .errand i)) ++
    (w.pool.nextEviction.map fun due => (due, .eviction)).toList

/-- The earliest of several things, the first of those due at one time. -/
def earliest : List (Nat × Happening) → Option (Nat × Happening)
  | [] => none
  | h :: rest =>
    match earliest rest with
    | none => some h
    | some later => if h.1 ≤ later.1 then some h else some later

/-- A link is opened, or is not. -/
def settleOpening (s : PoolSettings) (index : Nat) (w : World σ) : World σ :=
  let link := w.pool.opened
  match T.connect link s.endpoint w.remote with
  | (.ok (), remote) =>
    { w with remote, pool := w.pool.arrive index }.record (.opened link)
  | (.error e, remote) =>
    ({ w with remote, pool := w.pool.postpone s.config w.clock index e.message }.record
      (.refused e.reason)).raiseAside (checkFailed s e)

/-- Lets one thing happen. What is logged meanwhile is put aside. -/
def happen (s : PoolSettings) (h : Happening) (w : World σ) : World σ :=
  match h with
  | .opening index => w.settleOpening T s index
  | .errand index =>
    match w.errands[index]? with
    | none => w
    | some e =>
      { w with errands := w.errands.eraseIdx index }.quietly fun w =>
        ((s.release e.link e.healthy).run (answerNow T s) w).2
  | .eviction =>
    let w := w.quietly fun w => (s.evict.run (answerNow T s) w).2
    { w with pool := { w.pool with
        nextEviction := some (w.clock + s.config.evictionIntervalMs.toNat * 1000) } }

/-- Lets the next thing happen that is due by some time. -/
def next? (s : PoolSettings) (limit : Nat) (w : World σ) : Option (World σ) :=
  match earliest (w.agenda T) with
  | none => none
  | some (due, h) =>
    if due ≤ limit then some ({ w with clock := max w.clock due }.happen T s h) else none

/-- More than can happen until some time. At one time links are given back and checked once, and no
more of them are opened than there is room for at first and made by dropping some. -/
def busyFuel (s : PoolSettings) (limit : Nat) (w : World σ) : Nat :=
  (limit + 1 - w.clock + 1) * (3 * (s.config.capacity + w.errands.length + 1))

/-- Lets things happen until some time. -/
def passFuel (s : PoolSettings) (limit : Nat) : Nat → World σ → World σ
  | 0, w => w
  | fuel + 1, w =>
    match w.next? T s limit with
    | none => { w with clock := max w.clock limit }
    | some w => passFuel s limit fuel w

/-- Lets time pass until some time. -/
def pass (s : PoolSettings) (limit : Nat) (w : World σ) : World σ :=
  passFuel T s limit (w.busyFuel s limit) w

/-- Lets things happen until something holds or the time is up; whether it holds. -/
def untilFuel (s : PoolSettings) (limit : Nat) (goal : World σ → Bool) :
    Nat → World σ → Bool × World σ
  | 0, w => (goal w, w)
  | fuel + 1, w =>
    if goal w then (true, w)
    else match w.next? T s limit with
      | none => (false, { w with clock := max w.clock limit })
      | some w => untilFuel s limit goal fuel w

/-- Lets time pass until something holds, at the longest until some time; whether it holds. -/
def passUntil (s : PoolSettings) (limit : Nat) (goal : World σ → Bool) (w : World σ) :
    Bool × World σ :=
  untilFuel T s limit goal (w.busyFuel s limit) w

/-! ## Waiting -/

/-- Borrows a link, waiting at the longest until some time: when none is idle one is opened, and
the borrower sleeps until it is woken. -/
def borrowFuel (s : PoolSettings) (deadline : Nat) :
    Nat → World σ → Except String LinkId × World σ
  | 0, w => w.giveUp
  | fuel + 1, w =>
    match w.tryBorrow T s with
    | (some link, w) => (.ok link, w)
    | (none, w) =>
      let w := { w with pool := w.pool.openOne s.config w.clock }
      let seen := w.pool.wakeups
      match w.passUntil T s deadline fun w => w.pool.wakeups != seen with
      | (true, w) => borrowFuel s deadline fuel w
      | (false, w) => w.giveUp

/-- Borrows a link, waiting as long as the pool allows. -/
def borrow (s : PoolSettings) (w : World σ) : Except String LinkId × World σ :=
  let deadline := w.clock + s.config.waitMs * 1000
  borrowFuel T s deadline (w.busyFuel s deadline) w

/-- Waits until no link is lent; without a limit, as long as somebody is to give one back. -/
def drain (s : PoolSettings) (ms : Option Nat) (w : World σ) : Nat × World σ :=
  let limit := match ms with
    | some ms => w.clock + ms * 1000
    | none => (w.errands.map (·.due)).foldl max w.clock
  let w := (w.passUntil T s limit fun w => w.pool.lent.isEmpty).2
  (w.pool.lent.length, w)

/-- Waits so many milliseconds unless the token is cancelled. -/
def wait (s : PoolSettings) (token : Cancel.TokenId) (ms : Nat) (w : World σ) :
    Cancel.WaitOutcome × World σ :=
  if w.handles.forest.isCancelled token then (.cancelled, w)
  else (.elapsed, w.pass T s (w.clock + ms * 1000))

/-- Pushes: what is called from inside the push comes back before it is answered. -/
def push (call : Call → World σ → Delivery.Reply × World σ) (link : LinkId) (key : String)
    (payload : Bytes) (w : World σ) : Except LinkError Unit × World σ :=
  let w := w.record (.began link key payload)
  let (calls, remote) := T.beginPush link key payload w.remote
  let w := calls.foldl (fun w c =>
    let (reply, w) := call c w
    w.record (.called reply)) { w with remote }
  let (answer, remote) := T.endPush link key payload w.remote
  (answer, { w with remote }.record (.ended link answer))

/-- Answers a request, letting time pass where it waits. A push without calls of its own. -/
def answerPatiently (s : PoolSettings) (r : Request) (w : World σ) : r.Answer × World σ :=
  match r with
  | .borrow => w.borrow T s
  | .drain ms => w.drain T s ms
  | .wait token ms => w.wait T s token ms
  | r => w.answerNow T s r

/-- What a call comes back with; where no caller hears what was logged meanwhile, that is put
aside. -/
def overheard (c : Call) (before : World σ) (after : Delivery.Reply × World σ) :
    Delivery.Reply × World σ :=
  if c.isHeard then after else (after.1, before.hush after.2)

/-- Answers a request of an engine, with so many levels of calls from inside pushes. -/
def answer (e : Engine) : (depth : Nat) → (r : Request) → World σ → r.Answer × World σ
  | 0, r, w => w.answerPatiently T e.pool r
  | depth + 1, r, w =>
    match r with
    | .push link key payload =>
      w.push T (fun c w => overheard c w ((c.dialogue e).run (answer e depth) w)) link key payload
    | r => w.answerPatiently T e.pool r

/-- Makes a call on an engine. -/
def call (e : Engine) (depth : Nat) (c : Call) (w : World σ) : Delivery.Reply × World σ :=
  overheard c w ((c.dialogue e).run (answer T e depth) w)

end LogShipper.World
