import LogShipper.Rehearsal.Appender

/-!
# A layer does not feed on itself

Appending an event raises others: a layout may log, the appender and its engine do, and so may a
transport. All of them come to the layer that is appending, and each may raise more in turn. A
layer that is appending differs from one that is free in one flag only, so all hangs on the flag
being up for as long as an append lasts, and down once it is over.

Covers `on_event`.

Results:
* `Layer.visitAll_free`: events, and all that they raise, at a layer that is free.
* `Rehearsal.Stage.raiseAll_eq`: what a program raises is appended as if nothing else were raised.
* `Layer.no_feedback`: which events are appended, in which order, and when the layer is free.
-/

namespace LogShipper

/-- The event at the root of a tree. -/
def EventTree.event : EventTree → Event
  | .node e _ => e

namespace Layer

variable (l : Layer)

/-! ## Events at a layer -/

/-- A layer that is free appends an event unless it passes it over, and nothing that the event
raises: while that is taken in, the layer is busy. -/
theorem visit_free (t : EventTree) : l.visit false t = ([t.event].filter l.passes, false) := by
  obtain ⟨e, raised⟩ := t
  have during : l.visitAll true raised = ([], true) := l.visitAll_busy raised
  cases h : l.passes e with
  | true => simp [visit, EventTree.event, h, during]
  | false => simp [visit, EventTree.event, h]

theorem visitAll_cons (busy : Bool) (t : EventTree) (ts : List EventTree) :
    l.visitAll busy (t :: ts) =
      ((l.visit busy t).1 ++ (l.visitAll (l.visit busy t).2 ts).1,
        (l.visitAll (l.visit busy t).2 ts).2) := by
  rw [visitAll]

/-- The induction is on the events; each of them leaves the layer as free as it was. -/
theorem visitAll_free (ts : List EventTree) :
    l.visitAll false ts = ((ts.map EventTree.event).filter l.passes, false) := by
  induction ts with
  | nil => rw [visitAll]; rfl
  | cons t ts ih =>
    rw [visitAll_cons, visit_free, ih]
    exact congrArg (·, false) (List.filter_append [t.event] _).symm

end Layer

/-! ## What is raised on a stage -/

namespace Rehearsal.Stage

/-- A program raises events one after the other, each at its time. -/
def raiseAll (l : Layer) (a : Appender) (timed : List (Timestamp × EventTree)) (st : Stage) :
    Stage :=
  timed.foldl (fun st t => st.raise l a t.1 t.2) st

/-- The records of the events that a layer does not pass over. -/
def passed (l : Layer) (timed : List (Timestamp × EventTree)) : List Record :=
  (timed.filter fun t => l.passes t.2.event).map fun t => .ofEvent t.1 t.2.event

theorem raise_eq (l : Layer) (a : Appender) (time : Timestamp) (t : EventTree) (st : Stage) :
    st.raise l a time t = st.appendEach a (passed l [(time, t)]) := by
  unfold raise passed
  rw [l.visit_free t]
  cases h : l.passes t.event with
  | true => simp [h]
  | false => simp [h]

theorem appendEach_append (a : Appender) (rs ss : List Record) (st : Stage) :
    st.appendEach a (rs ++ ss) = (st.appendEach a rs).appendEach a ss :=
  List.foldl_append

/-- What a program raises is appended as if nothing else were raised meanwhile. -/
theorem raiseAll_eq (l : Layer) (a : Appender) (timed : List (Timestamp × EventTree))
    (st : Stage) : st.raiseAll l a timed = st.appendEach a (passed l timed) := by
  induction timed generalizing st with
  | nil => rfl
  | cons t timed ih =>
    have split : passed l (t :: timed) = passed l [t] ++ passed l timed := by
      unfold passed
      rw [← List.map_append, ← List.filter_append, List.singleton_append]
    have first : st.raiseAll l a (t :: timed) = (st.raise l a t.1 t.2).raiseAll l a timed := rfl
    rw [first, ih, raise_eq, split, appendEach_append]

end Rehearsal.Stage

/-- **A layer does not feed on itself.** Of the events that a thread raises one after the other it
appends those that are no more verbose than it is set to and do not come from shipping, each once
and in order, and none of those that are raised during an append, at whatever depth; after each
event it is free. Each append is one call on the appender, and there are no others. -/
theorem Layer.no_feedback (l : Layer) (timed : List (Timestamp × EventTree)) :
    (l.visitAll false (timed.map Prod.snd)).1 = (timed.map fun t => t.2.event).filter (fun e =>
        e.level.verbosity ≤ l.maxLevel.verbosity && !isInternalTarget e.target) ∧
      (∀ n, (l.visitAll false ((timed.take n).map Prod.snd)).2 = false) ∧
      (∀ raised : List EventTree, l.visitAll true raised = ([], true)) ∧
      ∀ (a : Appender) (st : Rehearsal.Stage),
        st.raiseAll l a timed = st.appendEach a (Rehearsal.Stage.passed l timed) := by
  refine ⟨?_, fun n => ?_, l.visitAll_busy, fun a st => st.raiseAll_eq l a timed⟩
  · rw [l.visitAll_free, List.map_map]
    rfl
  · rw [l.visitAll_free]

end LogShipper
