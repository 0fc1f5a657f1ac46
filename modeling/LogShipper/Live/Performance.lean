import LogShipper.Live.Connection
import LogShipper.LogFilter.Basic
import LogShipper.Store.Tape
import LogShipper.Timestamp
import LogShipper.Uuid
import LogShipper.World.Time
import Std.Time.DateTime.Timestamp

/-!
# Holding a talk in the world outside

A talk of delivery is held by the rules of `World`, against a store that is reached over a network
and by the clock. What is to be done to links is found out on a tape and carried out one by one.
What is due in the background happens before the next request is answered, and while a request
waits.

Out of scope: more than one caller; the command makes one call after the other.
-/

namespace LogShipper.Live

open Delivery (Dialogue PoolSettings Request)

/-- The time of day. -/
def now : IO Timestamp := do
  let t ← Std.Time.Timestamp.now
  let nanos := t.toNanosecondsSinceUnixEpoch.val
  return ⟨nanos / 1000000000, (nanos % 1000000000).toNat⟩

/-- Microseconds on a clock that never goes back. -/
def clock : IO Nat := return (← IO.monoNanosNow) / 1000

/-- What a performance needs. -/
structure Performance where
  settings : PoolSettings
  network : Network
  login : Except LinkError Resp.Login
  filter : LogFilter
  world : IO.Ref (World Tape)

/-- Shows a log entry, if it is to be shown. -/
def printEntry (filter : LogFilter) (e : LogEntry) : IO Unit := do
  if filter.showsEntry e then
    IO.eprintln (e.line ((← now).text 6))

namespace Performance

variable (p : Performance)

/-- Carries out what is to be done to a link. -/
def carryOut : Deed → IO (Except LinkError Unit)
  | .connect link =>
    match p.login with
    | .error e => return .error e
    | .ok login => do
      let opened ← p.network.peer.enter link login
      if opened.toBool then printEntry p.filter (Resp.openedEntry p.settings.endpoint)
      return opened
  | .push link key payload => p.network.peer.push link key payload
  | .ping link => p.network.peer.ping link
  | .close link => do
    match ← p.network.peer.close link with
    | some failure => printEntry p.filter (Resp.quitFailed failure)
    | none => pure ()
    return .ok ()

/-- Changes the world, given the answers so far to what that takes. -/
partial def performFrom {α : Type} (f : World Tape → α × World Tape)
    (answers : List (Except LinkError Unit)) : IO α := do
  let (a, w) := f { (← p.world.get) with remote := { answers } }
  match w.remote.asked with
  | some deed => performFrom f (answers ++ [← p.carryOut deed])
  | none =>
    (w.log ++ w.aside).reverse.forM (printEntry p.filter)
    p.world.set { w with log := [], aside := [], acts := [] }
    return a

/-- Changes the world. -/
def perform {α : Type} (f : World Tape → α × World Tape) : IO α := p.performFrom f []

/-- Lets happen what is due. -/
partial def catchUp : IO Unit := do
  let time ← clock
  let happened ← p.perform fun w =>
    match w.next? Tape.transport p.settings time with
    | some w => (true, w)
    | none => (false, { w with clock := max w.clock time })
  if happened then catchUp

/-- Sleeps until some time, letting happen what is due, unless something comes to hold. -/
partial def sleepUntil (deadline : Nat) (goal : World Tape → Bool) : IO Bool := do
  p.catchUp
  let w ← p.world.get
  if goal w then return true
  let time ← clock
  if deadline ≤ time then return false
  let due := match World.earliest (w.agenda Tape.transport) with
    | some (due, _) => min due deadline
    | none => deadline
  IO.sleep (UInt32.ofNat (min 1000 ((due - time) / 1000 + 1)))
  sleepUntil deadline goal

/-- Borrows a link, waiting at the longest until some time. -/
partial def borrow (deadline : Nat) : IO (Except String LinkId) := do
  match ← p.perform fun w => w.tryBorrow Tape.transport p.settings with
  | some link => return .ok link
  | none =>
    p.perform fun w => ((), { w with pool := w.pool.openOne p.settings.config w.clock })
    let seen := (← p.world.get).pool.wakeups
    if ← p.sleepUntil deadline fun w => w.pool.wakeups != seen then borrow deadline
    else p.perform World.giveUp

/-- Waits so many milliseconds unless a token is cancelled. -/
def wait (token : Cancel.TokenId) (ms : Nat) : IO Cancel.WaitOutcome := do
  let deadline := (← clock) + ms * 1000
  let ended ← p.sleepUntil deadline fun w => w.handles.forest.isCancelled token
  return if ended then .cancelled else .elapsed

/-- Answers a request. -/
def answer : (r : Request) → IO r.Answer
  | .borrow => do
    p.catchUp
    p.borrow ((← clock) + p.settings.config.waitMs * 1000)
  | .wait token ms => p.wait token ms
  | .batchName => return uuid (← IO.getRandomBytes 16).toList
  | r => do
    p.catchUp
    p.perform fun w => w.answerNow Tape.transport p.settings r

/-- Holds a talk. -/
def hold {α : Type} : Dialogue α → IO α
  | .done a => return a
  | .ask r next => do hold (next (← p.answer r))

end Performance

end LogShipper.Live
