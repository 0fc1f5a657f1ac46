import LogShipper.Proofs.Pool.Lateness
import LogShipper.Proofs.World.Borrowing

/-!
# Waking a borrower

When all links of a pool are lent, a borrower sleeps until a link becomes idle or its time is up. A
link that comes back meanwhile is put back or dropped. Put back, it is idle, and the borrower gets
it. Dropped, it makes room for another one, but that wakes nobody, and a borrower that sleeps opens
nothing. It is left to the pool to open one, which it does only if it is to keep some idle.

Covers `acquire` beside `release` and the end of a lease.

Results:
* `endsIn_putBack`, `Full.endsIn_drop`: how its sleep ends when a link is put back, or dropped.
* `Full.awakening`: what becomes of a borrower in whose sleep a link comes back.
-/

namespace LogShipper

open Delivery (Request Dialogue PoolSettings)

/-! ## Refilling a pool -/

namespace Pool

variable {c : PoolConfig} {now : Nat} {p : Pool}

theorem openOne_of_full (h : c.capacity ≤ p.connections + p.openings.length) :
    p.openOne c now = p := if_neg (Nat.not_lt.mpr h)

theorem openMany_of_full (n : Nat) (h : c.capacity ≤ p.connections + p.openings.length) :
    openMany c now n p = p := by
  induction n with
  | zero => rfl
  | succ n ih =>
    unfold openMany
    rw [openOne_of_full h]
    exact ih

/-- If there is room for one link, one is opened however many are missing. -/
theorem openMany_of_room {n : Nat} (hn : 0 < n)
    (h : p.connections + p.openings.length + 1 = c.capacity) :
    openMany c now n p = { p with openings := p.openings ++ [⟨now, 0⟩] } := by
  cases n with
  | zero => exact absurd hn (Nat.lt_irrefl 0)
  | succ n =>
    have opened : p.openOne c now =
        { p with openings := p.openings ++ [⟨now, 0⟩] } :=
      if_pos (by omega)
    unfold openMany
    rw [opened]
    refine openMany_of_full n (Nat.le_of_eq ?_)
    rw [← h, List.length_append, List.length_singleton]
    rfl

/-- A pool that drops one of its links, when all that it may have are lent, opens another one only
if it is to keep some idle. -/
theorem drop_of_all_lent {link : LinkId} (hidle : p.idle = []) (hopenings : p.openings = [])
    (hlent : p.lent.length = c.capacity) (hlink : link ∈ p.lent) :
    p.drop c now link =
      { p with
        lent := p.lent.erase link
        openings := if 0 < c.floor then [⟨now, 0⟩] else [] } := by
  obtain ⟨phase, idle, lent, openings, opened, lastError, wakeups, nextEviction⟩ := p
  dsimp only at hidle hopenings hlent hlink
  subst hidle hopenings
  have erased := List.length_erase_of_mem hlink
  have some := List.length_pos_of_mem hlink
  unfold drop refill
  by_cases hfloor : 0 < c.floor
  · rw [if_pos hfloor]
    refine openMany_of_room hfloor ?_
    simp only [connections, List.length_nil]
    omega
  · rw [if_neg hfloor, Nat.eq_zero_of_not_pos hfloor]
    rfl

end Pool

namespace World

variable {σ : Type} {T : Transport σ} {s : PoolSettings} {w : World σ} {link : LinkId}
  {limit due seen : Nat}

/-! ## Going to sleep, and waking up -/

/-- A borrower sleeps until it is woken, and looks for an idle link again; or until its time is
up. -/
def sleep (T : Transport σ) (s : PoolSettings) (deadline seen fuel : Nat) (w : World σ) :
    Except String LinkId × World σ :=
  match w.passUntil T s deadline fun w => w.pool.wakeups != seen with
  | (true, w) => borrowFuel T s deadline fuel w
  | (false, w) => w.giveUp

/-- When a borrower that comes now gives up. -/
def deadline (s : PoolSettings) (w : World σ) : Nat := w.clock + s.config.waitMs * 1000

/-- With no link idle, and no room for one, a borrower goes to sleep at once. -/
theorem borrow_eq_sleep (hidle : w.pool.idle = [])
    (hfull : s.config.capacity ≤ w.pool.connections + w.pool.openings.length) :
    w.borrow T s = w.sleep T s (w.deadline s) w.pool.wakeups (w.busyFuel s (w.deadline s) - 1) := by
  obtain ⟨n, hn⟩ := exists_busyFuel s (w.deadline s) w
  show borrowFuel T s (w.deadline s) (w.busyFuel s (w.deadline s)) w = _
  rw [hn, borrowFuel, tryBorrow_of_idle_nil hidle]
  dsimp only
  rw [Pool.openOne_of_full hfull]
  rfl

/-- How the sleep of a borrower ends that comes back with this: there is an idle link that passes
its check, or the time is up. -/
def EndsIn (T : Transport σ) (x : Except String LinkId) : Bool × World σ → Prop
  | (true, w) => ∃ link idle, w.pool.idle = link :: idle ∧ (T.ping link w.remote).1 = .ok () ∧
      x = .ok link
  | (false, w) => x = .error (timedOut w.pool)

theorem EndsIn.sleep {got : Except String LinkId}
    (h : EndsIn T got (w.passUntil T s limit fun v => v.pool.wakeups != seen)) (fuel : Nat) :
    (w.sleep T s limit seen (fuel + 1)).1 = got := by
  unfold World.sleep
  revert h
  generalize w.passUntil T s limit _ = slept
  obtain ⟨woken, v⟩ := slept
  cases woken with
  | true =>
    rintro ⟨link, idle, hidle, hping, rfl⟩
    obtain ⟨w₁, hgot⟩ := tryBorrow_of_ping (s := s) hidle hping
    dsimp only
    rw [borrowFuel, hgot]
  | false =>
    rintro rfl
    rfl

/-! ## A link that comes back -/

/-- All links that a pool may have are lent. -/
structure Full (s : PoolSettings) (w : World σ) : Prop where
  phase : w.pool.phase = .running
  idle : w.pool.idle = []
  openings : w.pool.openings = []
  lent : w.pool.lent.length = s.config.capacity
  errands : w.errands = []
  checks : w.pool.nextEviction ≠ none → s.config.evicts = true

/-- Links can be opened to a store, and it answers pings before and after. -/
structure Serves (T : Transport σ) (s : PoolSettings) (remote : σ) : Prop where
  accepts : ∀ link, (T.connect link s.endpoint remote).1 = .ok ()
  answers : ∀ link, (T.ping link remote).1 = .ok ()
  answers_then : ∀ link link', (T.ping link' (T.connect link s.endpoint remote).2).1 = .ok ()

/-- The store once a link was given back. -/
def storeAfter (T : Transport σ) (s : PoolSettings) (link : LinkId) (healthy : Bool)
    (w : World σ) : σ :=
  if w.retains T s link healthy then inspected T s.config.testOnReturn link healthy w.remote
  else T.close link (inspected T s.config.testOnReturn link healthy w.remote)

/-- What a borrower comes back with in whose sleep a link comes back: that link if it is idle then,
or the next one that the pool opens of its own accord if that is soon enough. -/
def outcome (T : Transport σ) (s : PoolSettings) (link : LinkId) (due : Nat) (retained : Bool) (w : World σ) :
    Except String LinkId :=
  if retained then .ok link
  else if 0 < s.config.floor ∧ due + T.connectTime due ≤ w.deadline s then .ok w.pool.opened
  else .error (timedOut w.pool)

namespace Full

theorem asleep (h : Full s w) : Asleep s w.pool.wakeups w := ⟨h.idle, rfl, h.checks⟩

theorem full (h : Full s w) : w.pool.connections + w.pool.openings.length = s.config.capacity := by
  unfold Pool.connections
  rw [h.idle, h.openings, h.lent]
  exact Nat.zero_add _

theorem chores (T : Transport σ) (h : Full s w) : w.chores T = [] := by
  unfold World.chores
  rw [h.openings, h.errands]
  rfl

end Full

/-- A link that is put back wakes a borrower. -/
theorem endsIn_putBack {p : Pool} {fuel : Nat} (hpool : w.pool = p.putBack link)
    (hseen : p.wakeups = seen) (hping : (T.ping link w.remote).1 = .ok ()) :
    EndsIn T (.ok link) (untilFuel T s limit (fun v => v.pool.wakeups != seen) fuel w) := by
  have woken : (w.pool.wakeups != seen) = true := by
    rw [hpool, ← hseen]
    exact bne_iff_ne.mpr (Nat.succ_ne_self _)
  rw [untilFuel_of_goal woken]
  exact ⟨link, p.idle, congrArg Pool.idle hpool, hping, rfl⟩

/-- If nothing wakes a borrower, its time is up some day. -/
theorem Asleep.endsIn_timedOut {p : Pool} {fuel : Nat} (h : Asleep s seen w)
    (hlate : ∀ c ∈ w.chores T, limit < c.1) (hfuel : checksLeft limit w < fuel)
    (hlast : w.pool.lastError = p.lastError) :
    EndsIn T (.error (timedOut p))
      (untilFuel T s limit (fun v => v.pool.wakeups != seen) fuel w) := by
  obtain ⟨now, next, hslept⟩ := h.untilFuel_none (T := T) hlate hfuel
  rw [hslept]
  show Except.error (timedOut p) = Except.error (timedOut (w.doze now next).pool)
  unfold timedOut doze
  rw [hlast]

/-- **A link that is dropped wakes nobody**; only one that is opened in its place does. -/
theorem Full.endsIn_drop {fuel : Nat} {next : Option Nat} {v : World σ} (h : Full s w)
    (hlink : link ∈ w.pool.lent) (hnext : next ≠ none → s.config.evicts = true)
    (hpool : v.pool = { w.pool with nextEviction := next }.drop s.config due link)
    (hclock : v.clock = due) (herrands : v.errands = [])
    (hfuel : checksLeft (w.deadline s) (w.doze due next) < fuel) (hserves : Serves T s v.remote) :
    EndsIn T (w.outcome T s link due false)
      (untilFuel T s (w.deadline s) (fun u => u.pool.wakeups != w.pool.wakeups) fuel v) := by
  rw [Pool.drop_of_all_lent (p := { w.pool with nextEviction := next }) h.idle h.openings h.lent
    hlink] at hpool
  have asleep : Asleep s w.pool.wakeups v := by
    refine ⟨?_, ?_, ?_⟩ <;> rw [hpool]
    · exact h.idle
    · exact hnext
  have same : checksLeft (w.deadline s) v = checksLeft (w.deadline s) (w.doze due next) :=
    checksLeft_congr (by rw [hpool]; rfl) hclock
  rw [← same] at hfuel
  unfold outcome
  -- a link is opened in place of the dropped one, in time or not, or none is
  by_cases hfloor : 0 < s.config.floor
  · have chores : v.chores T = [(due + T.connectTime due, .opening 0)] := by
      unfold World.chores
      rw [hpool, herrands, if_pos hfloor]
      rfl
    have opened : v.pool.opened = w.pool.opened := by rw [hpool]
    by_cases htime : due + T.connectTime due ≤ w.deadline s
    · obtain ⟨u, hwoken, hidle, hremote⟩ := asleep.untilFuel_opening (T := T) (by rw [chores]; rfl)
        htime hfuel (hserves.accepts _)
      rw [hwoken, if_neg Bool.false_ne_true, if_pos ⟨hfloor, htime⟩]
      refine ⟨_, [], hidle, ?_, by rw [opened]⟩
      rw [hremote]
      exact hserves.answers_then _ _
    · rw [if_neg Bool.false_ne_true, if_neg fun hboth => htime hboth.2]
      refine asleep.endsIn_timedOut ?_ hfuel (by rw [hpool])
      rw [chores]
      simpa using htime
  · have chores : v.chores T = [] := by
      unfold World.chores
      rw [hpool, herrands, if_neg hfloor]
      rfl
    rw [if_neg Bool.false_ne_true, if_neg fun hboth => hfloor hboth.1]
    refine asleep.endsIn_timedOut ?_ hfuel (by rw [hpool])
    rw [chores]
    exact fun _ hc => absurd hc List.not_mem_nil

theorem retains_doze {healthy : Bool} (now : Nat) (next : Option Nat) :
    (w.doze now next).retains T s link healthy = w.retains T s link healthy := by
  unfold retains reset doze
  dsimp only
  cases (T.reset link w.remote).1 <;> rfl

/-- A link is given back while a borrower sleeps. -/
theorem Full.endsIn_release {healthy : Bool} {fuel : Nat} {next : Option Nat} (h : Full s w)
    (hlink : link ∈ w.pool.lent) (hnext : next ≠ none → s.config.evicts = true)
    (hfuel : checksLeft (w.deadline s) (w.doze due next) < fuel)
    (hserves : Serves T s (w.storeAfter T s link healthy)) :
    EndsIn T (w.outcome T s link due (w.retains T s link healthy))
      (untilFuel T s (w.deadline s) (fun u => u.pool.wakeups != w.pool.wakeups) fuel
        ((w.doze due next).quietly fun u => ((s.release link healthy).run (answerNow T s) u).2)) := by
  obtain ⟨v, hv⟩ := Settles.release (T := T) (s := s) link healthy (w.doze due next)
  have running : v.pool.phase = .running := by
    rw [hv.pool]
    exact h.phase
  have after := hv.after
  have remote := hv.remote
  rw [retains_doze] at after
  unfold storeAfter at hserves
  unfold quietly
  dsimp only
  rw [after]
  cases hretains : w.retains T s link healthy with
  | true =>
    rw [hretains, if_pos rfl] at hserves
    rw [if_pos rfl, giveBack_of_running link running]
    refine endsIn_putBack (p := v.pool) rfl (by rw [hv.pool]; rfl) ?_
    show (T.ping link v.remote).1 = _
    rw [remote]
    exact hserves.answers link
  | false =>
    rw [hretains, if_neg Bool.false_ne_true] at hserves
    rw [if_neg Bool.false_ne_true, discard_of_running link running]
    have rest := hv.rest
    have clock : v.clock = due := congrArg Rest.clock rest
    have errands : v.errands = [] := (congrArg Rest.errands rest).trans h.errands
    have dropped : v.pool.drop s.config v.clock link =
        { w.pool with nextEviction := next }.drop s.config due link := by
      rw [hv.pool, clock]
      rfl
    refine h.endsIn_drop hlink hnext dropped clock errands hfuel ?_
    show Serves T s (T.close link v.remote)
    rw [remote]
    exact hserves

/-- A borrower that sleeps while a link is given back. -/
theorem Full.borrow_released {healthy : Bool} (h : Full s w) (hlink : link ∈ w.pool.lent)
    (hclock : w.clock ≤ due) (hdue : due ≤ w.deadline s)
    (hserves : Serves T s (w.storeAfter T s link healthy)) :
    (({ w with errands := [⟨due, link, healthy⟩] } : World σ).borrow T s).1 =
      w.outcome T s link due (w.retains T s link healthy) := by
  let w₀ : World σ := { w with errands := [⟨due, link, healthy⟩] }
  have asleep : Asleep s w.pool.wakeups w₀ := ⟨h.idle, rfl, h.checks⟩
  have first : earliest (w₀.chores T) = some (due, .errand 0) := by
    unfold World.chores
    rw [h.openings]
    rfl
  obtain ⟨next, fuel, hfuel, asleep', hgoes⟩ := asleep.untilFuel_some (T := T) (n := 1) first hdue
    (checksLeft_succ_lt_busyFuel s (w.deadline s) w₀)
  have now : max w₀.clock due = due := Nat.max_eq_right hclock
  rw [now] at hfuel asleep' hgoes
  have released : (w₀.doze due next).happen T s (.errand 0) =
      (w.doze due next).quietly fun u => ((s.release link healthy).run (answerNow T s) u).2 := by
    have alone : ({ w₀.doze due next with errands := [] } : World σ) = w.doze due next := by
      unfold doze
      rw [h.errands]
    rw [← alone]
    rfl
  have hnext : next ≠ none → s.config.evicts = true := asleep'.checks
  have ends := h.endsIn_release (T := T) hlink hnext hfuel hserves
  rw [← released, ← hgoes] at ends
  obtain ⟨n, hn⟩ := exists_busyFuel s (w₀.deadline s) w₀
  rw [borrow_eq_sleep (w := w₀) h.idle (Nat.le_of_eq h.full.symm), hn]
  exact EndsIn.sleep ends n

/-- A borrower that sleeps while the holder of a link goes away. -/
theorem Full.sleep_lapsed (h : Full s w) (hserves : Serves T s w.remote) :
    (((PoolSettings.lapse link).run (answerNow T s)
        (w.passUntil T s due fun v => v.pool.wakeups != w.pool.wakeups).2).2.sleep T s
      (w.deadline s) w.pool.wakeups (w.busyFuel s (w.deadline s) - 1)).1 = .ok link := by
  have none_due : ∀ c ∈ w.chores T, due < c.1 := by
    rw [h.chores]
    exact fun _ hc => absurd hc List.not_mem_nil
  obtain ⟨now, next, hslept⟩ := h.asleep.untilFuel_none (T := T) none_due
    (Nat.lt_of_succ_lt (checksLeft_succ_lt_busyFuel s due w))
  have slept : (w.passUntil T s due fun v => v.pool.wakeups != w.pool.wakeups).2 =
      w.doze now next := congrArg Prod.snd hslept
  have lapsed : ((PoolSettings.lapse link).run (answerNow T s) (w.doze now next)).2 =
      { w.doze now next with pool := (w.doze now next).pool.putBack link } :=
    giveBack_of_running link h.phase
  obtain ⟨n, hn⟩ := exists_busyFuel s (w.deadline s) w
  rw [slept, lapsed, hn]
  refine EndsIn.sleep ?_ n
  exact endsIn_putBack rfl rfl (hserves.answers link)

/-- What becomes of a borrower that comes when all links are lent, if one of them comes back before
its time is up. -/
structure Awakening (T : Transport σ) (s : PoolSettings) (link : LinkId) (due : Nat)
    (w : World σ) : Prop where
  /-- It sleeps. -/
  sleeps : w.borrow T s =
    w.sleep T s (w.deadline s) w.pool.wakeups (w.busyFuel s (w.deadline s) - 1)
  /-- The link is given back, in good health or not. -/
  released : ∀ healthy, Serves T s (w.storeAfter T s link healthy) →
    (Delivery.acquire.run (answerPatiently T s)
      { w with errands := [⟨due, link, healthy⟩] }).1 =
      (w.outcome T s link due (w.retains T s link healthy)).mapError .unavailable
  /-- The holder of the link goes away. -/
  lapsed : Serves T s w.remote →
    (((PoolSettings.lapse link).run (answerNow T s)
        (w.passUntil T s due fun v => v.pool.wakeups != w.pool.wakeups).2).2.sleep T s
      (w.deadline s) w.pool.wakeups (w.busyFuel s (w.deadline s) - 1)).1 = .ok link

/-- **Which links that come back wake a borrower**: those that are idle then. One that is dropped
leaves it asleep, though there is room for another, and it gets that one only if the pool is to keep
links open unasked. -/
theorem Full.awakening (T : Transport σ) (h : Full s w) (hlink : link ∈ w.pool.lent)
    (hclock : w.clock ≤ due) (hdue : due ≤ w.deadline s) : Awakening T s link due w where
  sleeps := borrow_eq_sleep h.idle (Nat.le_of_eq h.full.symm)
  released healthy hserves := by
    rw [acquire_of_running T s (w := { w with errands := [⟨due, link, healthy⟩] }) h.phase,
      h.borrow_released hlink hclock hdue hserves]
  lapsed hserves := h.sleep_lapsed hserves

/-- The only link of a pool is given back in bad health while a borrower waits. A link could be
opened in its place, and none is. -/
theorem left_asleep :
    let s : PoolSettings :=
      { endpoint := { host := "localhost" }
        config := { maxTotal := 1, testOnBorrow := false, maxWaitMs := 250 } }
    let w : World ScriptedStore :=
      { remote := {}, pool := { phase := .running, lent := [0], opened := 1 } }
    (∀ link, (ScriptedStore.transport.connect link s.endpoint w.remote).1 = .ok ()) ∧
    (Delivery.acquire.run (answerPatiently ScriptedStore.transport s)
      { w with errands := [⟨40000, 0, false⟩] }).1 =
      .error (.unavailable "timed out waiting for connection") := by
  exact ⟨fun _ => rfl, by rfl⟩

theorem awakening_of_two_links :
    let s : PoolSettings :=
      { endpoint := { host := "localhost" }
        config := { maxTotal := 2, minIdle := 1, evictionIntervalMs := 10, maxWaitMs := 250 } }
    let w : World ScriptedStore :=
      { remote := {}
        pool := { phase := .running, lent := [1, 0], opened := 2, nextEviction := some 10000 } }
    Full s w ∧ 0 ∈ w.pool.lent ∧ w.clock ≤ 40000 ∧ 40000 ≤ w.deadline s ∧
      Serves ScriptedStore.transport s (w.storeAfter ScriptedStore.transport s 0 false) ∧
      Serves ScriptedStore.transport s w.remote ∧
      Awakening ScriptedStore.transport s 0 40000 w := by
  intro s w
  have full : Full s w := ⟨rfl, rfl, rfl, by decide, rfl, fun _ => by decide⟩
  exact ⟨full, by decide, by decide, by decide, ⟨fun _ => rfl, fun _ => rfl, fun _ _ => rfl⟩,
    ⟨fun _ => rfl, fun _ => rfl, fun _ _ => rfl⟩,
    full.awakening ScriptedStore.transport (by decide) (by decide) (by decide)⟩

end World

end LogShipper
