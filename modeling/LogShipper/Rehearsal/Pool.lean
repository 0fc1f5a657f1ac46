import LogShipper.Rehearsal.Stage

/-!
# Rehearsing a pool

The steps of a rehearsal in which links are borrowed from a pool and given back by hand. A
borrowed link is held under a name; a name that is used again lets go of the link it held before.

A step can have somebody else give back a link shortly after it began.
-/

namespace LogShipper.Rehearsal

open Delivery (Dialogue)

/-- A link that somebody else gives back while a step is under way. -/
structure Handover where
  lease : String
  healthy : Bool

/-- A step of a pool's rehearsal. -/
inductive PoolStep where
  | startup
  | acquire (lease : String) (handover : Option Handover)
  | push (lease key : String) (payload : Bytes)
  | release (lease : String) (healthy : Bool)
  /-- Goes away without giving the link back. -/
  | drop (lease : String)
  | shutdown (ms : Option Nat) (handover : Option Handover)
  /-- Lets go of the pool itself. -/
  | dropPool
  | cue (cue : Cue)

/-- What a step comes back with. -/
inductive PoolAnswer where
  | nothing
  | ok
  | noLease
  | flag (value : Bool)
  | count (n : Nat)
  | poolError (error : PoolError)
  | linkError (error : LinkError)
  deriving DecidableEq, Repr

/-- The answer to a cue. -/
def PoolAnswer.ofCue : CueAnswer → PoolAnswer
  | .nothing => .nothing
  | .flag b => .flag b
  | .count n => .count n

namespace Stage

/-- How long it takes somebody else to give a link back, in microseconds. -/
def handoverTime : Nat := 40000

/-- Holds a talk. -/
def hold {α : Type} (d : Dialogue α) (st : Stage) : α × Stage :=
  let (a, w) := d.run (World.answerPatiently ScriptedStore.transport st.settings) st.world
  (a, { st with world := w })

/-- The link that a name holds. -/
def lease? (st : Stage) (name : String) : Option LinkId := st.leases.lookup name

/-- The name holds nothing any more. -/
def forget (name : String) (st : Stage) : Stage :=
  { st with leases := st.leases.filter fun l => l.1 != name }

/-- Lets go of the link of a name as it is. -/
def lapse (name : String) (st : Stage) : Stage :=
  match st.lease? name with
  | none => st
  | some link => ((st.forget name).hold (Delivery.PoolSettings.lapse link)).2

/-- Holds a link under a name. -/
def keep (name : String) (link : LinkId) (st : Stage) : Stage :=
  let st := st.lapse name
  { st with leases := (name, link) :: st.leases }

/-- Does something while somebody else gives a link back; it is over when both are. -/
def during {α : Type} (handover : Option Handover) (f : Stage → α × Stage) (st : Stage) :
    α × Stage :=
  match handover with
  | none => f st
  | some h =>
    match st.lease? h.lease with
    | none => f st
    | some link =>
      let due := st.world.clock + handoverTime
      let world := { st.world with errands := st.world.errands ++ [⟨due, link, h.healthy⟩] }
      let (a, st) := f ({ st with world }.forget h.lease)
      (a, { st with world := st.world.pass ScriptedStore.transport st.settings due })

/-- Takes a step. -/
def poolStep (st : Stage) : PoolStep → PoolAnswer × Stage
  | .startup =>
    match st.hold st.settings.startup with
    | (.ok (), st) => (.ok, st)
    | (.error e, st) => (.poolError e, st)
  | .acquire name handover => st.during handover fun st =>
    match st.hold Delivery.acquire with
    | (.ok link, st) => (.ok, st.keep name link)
    | (.error e, st) => (.poolError e, st)
  | .push name key payload =>
    match st.lease? name with
    | none => (.noLease, st)
    | some link =>
      match st.hold (.request (.push link key payload)) with
      | (.ok (), st) => (.ok, st)
      | (.error e, st) => (.linkError e, st)
  | .release name healthy =>
    match st.lease? name with
    | none => (.noLease, st)
    | some link => (.nothing, ((st.forget name).hold (st.settings.release link healthy)).2)
  | .drop name => (.nothing, st.lapse name)
  | .shutdown ms handover => st.during handover fun st =>
    let (drained, st) := st.hold (st.settings.shutdown ms)
    (.flag drained, st)
  | .dropPool =>
    if running st.world then (.nothing, (st.hold (st.settings.shutdown (some 0))).2)
    else (.nothing, st)
  | .cue c =>
    let (a, st) := st.cue c
    (.ofCue a, st)

end Stage

end LogShipper.Rehearsal
