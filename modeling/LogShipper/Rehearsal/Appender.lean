import LogShipper.Layer
import LogShipper.Rehearsal.Engine

/-!
# Rehearsing an appender and a layer

The steps of a rehearsal in which records are appended, and the events of one in which a layer
appends what a program raises.
-/

namespace LogShipper.Rehearsal

/-- A step of an appender's rehearsal. -/
inductive AppenderStep where
  | call (call : Appender.Call)
  | cue (cue : Cue)

/-- What a step comes back with. -/
inductive AppenderAnswer where
  | reply (reply : Appender.Reply)
  | cue (answer : CueAnswer)

namespace Stage

/-- Makes a call on an appender. -/
def appenderCall (a : Appender) (st : Stage) (c : Appender.Call) : Appender.Reply × Stage :=
  st.talk a.engine (c.dialogue a)

/-- Takes a step. -/
def appenderStep (a : Appender) (st : Stage) : AppenderStep → AppenderAnswer × Stage
  | .call c =>
    let (reply, st) := st.appenderCall a c
    (.reply reply, st)
  | .cue c =>
    let (answer, st) := st.cue c
    (.cue answer, st)

/-- Appends records one after the other. -/
def appendEach (a : Appender) (st : Stage) (rs : List Record) : Stage :=
  rs.foldl (fun st r => (st.appenderCall a (.append r)).2) st

/-- A program raises an event, and others while it is being appended; the layer appends what it
does not pass over, at a time. -/
def raise (l : Layer) (a : Appender) (time : Timestamp) (t : EventTree) (st : Stage) : Stage :=
  st.appendEach a ((l.visit false t).1.map (Record.ofEvent time))

/-- All that the lists of the store hold. -/
def stored (st : Stage) : Nat := (st.world.remote.lists.flatMap (·.2)).length

end Stage

end LogShipper.Rehearsal
