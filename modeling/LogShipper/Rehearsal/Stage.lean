import LogShipper.Store.Scripted
import LogShipper.World.Time

/-!
# Rehearsals

Delivery can be rehearsed against a scripted store, step by step. A `Stage` is the world of a
rehearsal and what is kept beside it: links that are held under names, and how much of what
happened has been reported. `Stage.report` tells what happened since the last report.

A `Cue` changes what the store answers, or waits for something in the background.

Out of scope: what is logged in the background is not reported.
-/

namespace LogShipper.Rehearsal

open Delivery (PoolSettings Reply Call)
open Scripted (Plan Failures)

/-! ## What happened -/

/-- A push as it was seen by the store. -/
structure PushRecord where
  link : LinkId
  key : String
  payload : Bytes
  /-- What calls made from inside the push came back with. -/
  replies : List Reply := []

/-- The pushes seen so far, and the places of those that have not ended, the latest first. -/
structure PushLog where
  records : List PushRecord := []
  pending : List Nat := []

namespace PushLog

/-- What an act adds. -/
def add (p : PushLog) : Act → PushLog
  | .began link key payload =>
    ⟨p.records ++ [⟨link, key, payload, []⟩], p.records.length :: p.pending⟩
  | .called reply =>
    match p.pending with
    | [] => p
    | i :: _ =>
      ⟨p.records.modify i fun r => { r with replies := r.replies ++ [reply] }, p.pending⟩
  | .ended _ _ => ⟨p.records, p.pending.drop 1⟩
  | _ => p

/-- The pushes among acts, which stand the latest first. -/
def ofActs (acts : List Act) : PushLog := acts.reverse.foldl add {}

end PushLog

/-- How often a store was asked to do something. -/
structure Tally where
  opened : Nat := 0
  closed : Nat := 0
  pings : Nat := 0
  deriving DecidableEq, Repr

/-- What an act adds. -/
def Tally.add (t : Tally) : Act → Tally
  | .opened _ => { t with opened := t.opened + 1 }
  | .closed _ => { t with closed := t.closed + 1 }
  | .pinged _ _ => { t with pings := t.pings + 1 }
  | _ => t

/-- How often the store was asked among acts. -/
def Tally.ofActs (acts : List Act) : Tally := acts.foldl Tally.add {}

/-- What is told about one step. -/
structure Report where
  /-- All links of the pool, and the idle ones; none while it does not run. -/
  connections : Nat
  idle : Nat
  store : Tally
  pushes : List PushRecord
  log : List LogEntry
  running : Bool
  phase : Phase

/-! ## The stage -/

/-- The world of a rehearsal. -/
structure Stage where
  settings : PoolSettings
  world : World ScriptedStore
  /-- The links that are held under names. -/
  leases : List (String × LinkId) := []
  /-- How many acts were reported. -/
  told : Nat := 0

namespace Stage

/-- The stage of a pool that is not started. -/
def ofSettings (settings : PoolSettings) : Stage := { settings, world := { remote := {} } }

/-- How long is waited for links to be opened or closed, in microseconds. -/
def patience : Nat := 10000000

/-- How long is waited for pings, in microseconds: less than a second. -/
def pingPatience : Nat := 500000

/-- Lets time pass until something holds, so long at most; whether it holds. -/
def await (longest : Nat) (goal : World ScriptedStore → Bool) (st : Stage) : Bool × Stage :=
  let w := st.world
  let (reached, w) :=
    w.passUntil ScriptedStore.transport st.settings (w.clock + longest) goal
  (reached, { st with world := w })

/-- Whether the pool runs. -/
def running (w : World ScriptedStore) : Bool := w.pool.phase == .running

/-- Lets links that are being opened be opened, unless the store refuses them. -/
def settle (st : Stage) : Stage :=
  if st.world.remote.refusing then st
  else (st.await patience fun w => w.pool.openings.isEmpty || !running w).2

/-- Tells what happened since the last report. -/
def report (st : Stage) : Report × Stage :=
  let w := st.world
  ({ connections := w.stated.1
     idle := w.stated.2
     store := .ofActs w.acts
     pushes := (PushLog.ofActs (w.acts.take (w.acts.length - st.told))).records
     log := w.log.reverse
     running := running w
     phase := w.phase },
   { st with world := { w with log := [] }, told := w.acts.length })

end Stage

/-! ## Cues -/

/-- A step that concerns the store, or waits for what happens in the background. -/
inductive Cue where
  | plan (key : String) (plan : Plan)
  /-- Makes a call from inside the push of a number. -/
  | hookAt (number : Nat) (call : Call)
  /-- Makes a call from inside the push that comes so many after the last one. -/
  | hookIn (count : Nat) (call : Call)
  | refuse
  | failConnect (n : Nat)
  | failPing (failures : Failures)
  | failReset (n : Nat)
  /-- Stops to refuse links, then waits until the pool has so many. -/
  | accept (connections : Nat)
  /-- Waits until the pool has so many links. -/
  | await (connections : Nat)
  /-- Waits for so many more pings. -/
  | awaitPings (n : Nat)
  /-- How many links were ever opened. -/
  | opened

/-- What a cue comes back with. -/
inductive CueAnswer where
  | nothing
  | flag (value : Bool)
  | count (n : Nat)
  deriving DecidableEq, Repr

namespace Stage

/-- Changes the store. -/
def arrange (f : ScriptedStore → ScriptedStore) (st : Stage) : Stage :=
  { st with world := { st.world with remote := f st.world.remote } }

/-- Waits until the pool has so many links. -/
def awaitConnections (n : Nat) (st : Stage) : CueAnswer × Stage :=
  let (reached, st) := st.await patience fun w => w.stated.1 == n
  (.flag reached, st)

/-- Follows a cue. -/
def cue (st : Stage) : Cue → CueAnswer × Stage
  | .plan key plan => (.nothing, st.arrange (·.setPlan key plan))
  | .hookAt number call =>
    (.nothing, st.arrange fun s => { s with hooks := s.hooks ++ [(number, call)] })
  | .hookIn count call =>
    (.nothing, st.arrange fun s => { s with hooks := s.hooks ++ [(s.attempts + count, call)] })
  | .refuse => (.nothing, st.arrange fun s => { s with refusing := true })
  | .failConnect n => (.nothing, st.arrange fun s => { s with connectFailures := n })
  | .failPing failures => (.nothing, st.arrange fun s => { s with pingFailures := failures })
  | .failReset n => (.nothing, st.arrange fun s => { s with resetFailures := n })
  | .accept n => (st.arrange fun s => { s with refusing := false }).awaitConnections n
  | .await n => st.awaitConnections n
  | .awaitPings n =>
    let goal := (Tally.ofActs st.world.acts).pings + n
    let (reached, st) := st.await pingPatience fun w => goal ≤ (Tally.ofActs w.acts).pings
    (.flag reached, st)
  | .opened => (.count st.world.pool.opened, st)

end Stage

end LogShipper.Rehearsal
