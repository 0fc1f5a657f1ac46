import LogShipper.Rehearsal.Stage

/-!
# Rehearsing an engine

The steps of a rehearsal in which calls are made on an engine. Calls can be made from inside the
pushes of other calls; there are no more levels of them than calls that are set up so, and always
one for the calls of the rehearsal itself.
-/

namespace LogShipper.Rehearsal

open Delivery (Dialogue Engine Call Reply)

/-- A step of an engine's rehearsal. -/
inductive EngineStep where
  | call (call : Call)
  | cue (cue : Cue)

/-- What a step comes back with. -/
inductive EngineAnswer where
  | reply (reply : Reply)
  | cue (answer : CueAnswer)

/-- The engine of a configuration on a stage of its own, with what was logged meanwhile. -/
def engineStage (batchName : String) (c : Config) : Except ConfigError (Engine × Stage) :=
  (World.ofConfig batchName {} c).map fun (e, world) => (e, { settings := e.pool, world })

namespace Stage

/-- The levels of calls from inside pushes. -/
def depth (st : Stage) : Nat := st.world.remote.hooks.length + 1

/-- Holds a talk with an engine. -/
def talk {α : Type} (e : Engine) (d : Dialogue α) (st : Stage) : α × Stage :=
  let (a, w) := d.run (World.answer ScriptedStore.transport e st.depth) st.world
  (a, { st with world := w })

/-- Takes a step. -/
def engineStep (e : Engine) (st : Stage) : EngineStep → EngineAnswer × Stage
  | .call c =>
    let (reply, world) := st.world.call ScriptedStore.transport e st.depth c
    (.reply reply, { st with world })
  | .cue c =>
    let (a, st) := st.cue c
    (.cue a, st)

end Stage

end LogShipper.Rehearsal
