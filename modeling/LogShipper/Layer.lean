import LogShipper.Appender

/-!
# Layers over events

A layer appends the events of a program. It passes over those that are more verbose than it is
set to and those of shipping itself, and, while it is appending one, everything that is raised
meanwhile on the same thread: `busy` says that this is so.

Processing an event can raise further events, and each of these others. An `EventTree` is an event
with what is raised while it is appended.

Covers `on_event` with its guard (`enter` and its end) and `with_max_level`.

Out of scope: spans, and what other threads raise; each thread is busy for itself.

Results:
* `visit_busy`: what is raised during an append is not appended.
-/

namespace LogShipper

/-- How verbose the events are that a layer appends. -/
structure Layer where
  maxLevel : Level := .info
  deriving DecidableEq, Repr

/-- An event, and what is raised while it is being appended. -/
inductive EventTree where
  | node (event : Event) (raised : List EventTree)

namespace Layer

/-- Whether events of such a level and target are appended at all. -/
def passes (l : Layer) (e : Event) : Bool :=
  e.level.verbosity ≤ l.maxLevel.verbosity && !isInternalTarget e.target

mutual

/-- Takes in an event and what it raises: the events that are appended, in order, and whether the
layer is busy afterwards. -/
def visit (l : Layer) (busy : Bool) : EventTree → List Event × Bool
  | .node e raised =>
    if l.passes e && !busy then
      let (appended, _) := l.visitAll true raised
      (e :: appended, false)
    else ([], busy)

/-- Takes in events one after the other. -/
def visitAll (l : Layer) (busy : Bool) : List EventTree → List Event × Bool
  | [] => ([], busy)
  | t :: rest =>
    let (first, busy) := l.visit busy t
    let (others, busy) := l.visitAll busy rest
    (first ++ others, busy)

end

theorem visit_busy (l : Layer) (t : EventTree) : l.visit true t = ([], true) := by
  cases t
  simp [visit]

theorem visitAll_busy (l : Layer) (ts : List EventTree) : l.visitAll true ts = ([], true) := by
  induction ts with
  | nil => simp [visitAll]
  | cons t rest ih => simp [visitAll, visit_busy, ih]

end Layer

end LogShipper
