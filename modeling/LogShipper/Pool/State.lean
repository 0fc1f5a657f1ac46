import LogShipper.Delivery.Dialogue
import LogShipper.Pool.Config

/-!
# The state of a pool

A pool holds idle links on a stack, knows which links it has lent, and opens links in the
background. `Pool` is that state, and each of its operations is one step that nothing else comes
between. Times are in microseconds.

A link is either idle or lent; it leaves the pool when it is dropped. The pool opens a link when a
borrower finds none idle, and, as often as fewer idle links are left than it is to keep, when an
idle link is taken or a link is dropped. It opens none beyond its capacity, counting those being
opened. An opening that fails is tried again after a while.

A borrower that waits is woken when a link becomes idle, which `wakeups` counts; dropping a link
wakes nobody.

Covers what `startup` (`start`), `acquire` (`take`, `openOne`), `release` and the end of a lease
(`putBack`, `drop`), `shutdown` (`close`, `forsake`) and the opening of links in the background
(`arrive`, `postpone`) do to a pool.

Out of scope: idle links do not expire by age, whatever `min_evictable_idle_ms` is. A closed pool is
held by the links that it has lent and by nothing else (`isForsaken`): a borrower who has found it
running and has not borrowed yet does not keep its idle links open, nor does an opening under way.

Results:
* `take_eq`: what taking a link leaves of a pool.
* `putBack_connections`: a link that is put back is still one of the pool's.
* `openOne_le`: opening keeps links and openings within the capacity.
-/

namespace LogShipper

/-- A link to be opened in the background. -/
structure Opening where
  /-- When that is begun. -/
  begins : Nat
  /-- How long it waits after it failed the last time. -/
  delay : Nat
  deriving DecidableEq, Repr

/-- The state of a pool. -/
structure Pool where
  phase : PoolPhase := .created
  /-- Idle links, the one that came last first. -/
  idle : List LinkId := []
  lent : List LinkId := []
  openings : List Opening := []
  /-- How many links were opened so far. -/
  opened : Nat := 0
  /-- The last failure to open or check a link since the last success. -/
  lastError : Option String := none
  /-- How often a waiting borrower was woken. -/
  wakeups : Nat := 0
  /-- When idle links are checked next. -/
  nextEviction : Option Nat := none
  deriving DecidableEq, Repr

namespace Pool

/-- The links of a pool, idle and lent. -/
def connections (p : Pool) : Nat := p.idle.length + p.lent.length

/-- Starts to open one link, unless the pool is full. -/
def openOne (c : PoolConfig) (now : Nat) (p : Pool) : Pool :=
  if p.connections + p.openings.length < c.capacity then
    { p with openings := p.openings ++ [⟨now, 0⟩] }
  else p

/-- Starts to open so many links. -/
def openMany (c : PoolConfig) (now : Nat) : Nat → Pool → Pool
  | 0, p => p
  | n + 1, p => openMany c now n (p.openOne c now)

/-- Starts to open as many links as idle ones are missing. -/
def refill (c : PoolConfig) (now : Nat) (p : Pool) : Pool :=
  openMany c now (c.floor - p.idle.length) p

/-- Starts the pool. -/
def start (c : PoolConfig) (now : Nat) (p : Pool) : Pool :=
  { p with
    phase := .running
    nextEviction :=
      if c.evicts then some (now + c.evictionIntervalMs.toNat * 1000) else none }.refill c now

/-- Closes the pool: it lends no more and checks no more. -/
def close (p : Pool) : Pool := { p with phase := .shutDown, nextEviction := none }

/-- Takes the idle link that came last. -/
def take (c : PoolConfig) (now : Nat) (p : Pool) : Option (LinkId × Pool) :=
  match p.idle with
  | [] => none
  | link :: idle => some (link, { p with idle, lent := link :: p.lent }.refill c now)

/-- Puts a lent link back among the idle ones. -/
def putBack (link : LinkId) (p : Pool) : Pool :=
  { p with idle := link :: p.idle, lent := p.lent.erase link, wakeups := p.wakeups + 1 }

/-- Drops a lent link. -/
def drop (c : PoolConfig) (now : Nat) (link : LinkId) (p : Pool) : Pool :=
  { p with lent := p.lent.erase link }.refill c now

/-- Remembers why a link could not be opened or did not pass its check. -/
def blame (reason : String) (p : Pool) : Pool := { p with lastError := some reason }

/-- An opening has succeeded: the new link is idle. -/
def arrive (index : Nat) (p : Pool) : Pool :=
  { p with
    idle := p.opened :: p.idle
    openings := p.openings.eraseIdx index
    opened := p.opened + 1
    lastError := none
    wakeups := p.wakeups + 1 }

/-- How long to wait after a failed opening: twice as long each time, from 0.4 seconds on, but no
longer than half the time a borrower waits. -/
def backoff (c : PoolConfig) (delay : Nat) : Nat :=
  min (c.waitMs * 500) (2 * max 200000 delay)

/-- An opening has failed and is tried again later. -/
def postpone (c : PoolConfig) (now index : Nat) (reason : String) (p : Pool) : Pool :=
  { p with
    openings := p.openings.modify index fun o =>
      ⟨now + backoff c o.delay, backoff c o.delay⟩ }.blame reason

/-- Nothing holds a closed pool any more: its idle links go, and with them its openings. -/
def forsake (p : Pool) : Pool := { p with idle := [], openings := [] }

/-- Whether nothing holds the pool any more. -/
def isForsaken (p : Pool) : Bool := p.phase == .shutDown && p.lent.isEmpty

/-! ## What the steps do to the number of links -/

@[simp] theorem openOne_connections (c : PoolConfig) (now : Nat) (p : Pool) :
    (p.openOne c now).connections = p.connections := by
  unfold openOne
  split <;> rfl

/-- Opening keeps links and openings within the capacity. -/
theorem openOne_le {c : PoolConfig} {now : Nat} {p : Pool}
    (h : p.connections + p.openings.length ≤ c.capacity) :
    (p.openOne c now).connections + (p.openOne c now).openings.length ≤ c.capacity := by
  unfold openOne
  split
  · rename_i hlt
    simp only [connections, List.length_append, List.length_singleton] at hlt ⊢
    omega
  · exact h

@[simp] theorem openMany_connections (c : PoolConfig) (now n : Nat) (p : Pool) :
    (openMany c now n p).connections = p.connections := by
  induction n generalizing p with
  | zero => rfl
  | succ n ih => simp [openMany, ih]

@[simp] theorem refill_connections (c : PoolConfig) (now : Nat) (p : Pool) :
    (p.refill c now).connections = p.connections := by
  simp [refill]

/-- What taking a link leaves of a pool. -/
theorem take_eq {c : PoolConfig} {now : Nat} {p q : Pool} {link : LinkId}
    (h : p.take c now = some (link, q)) :
    ∃ idle, p.idle = link :: idle ∧
      q = ({ p with idle, lent := link :: p.lent } : Pool).refill c now := by
  unfold take at h
  split at h
  · cases h
  · rename_i idle hi
    obtain ⟨rfl, rfl⟩ := Prod.mk.inj (Option.some.inj h)
    exact ⟨idle, hi, rfl⟩

theorem putBack_connections {p : Pool} {link : LinkId} (h : link ∈ p.lent) :
    (p.putBack link).connections = p.connections := by
  have := List.length_erase_of_mem h
  have hpos := List.length_pos_of_mem h
  simp only [putBack, connections, List.length_cons]
  omega

end Pool

end LogShipper
