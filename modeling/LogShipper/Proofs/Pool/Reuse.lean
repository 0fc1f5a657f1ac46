import LogShipper.Proofs.Delivery.Tenures
import LogShipper.Proofs.Pool.Floor

/-!
# Pools that are borrowed from by one

Somebody who borrows one link and lets go of it as the pool would have it may find it there the next
time, or not, which three numbers decide. A link that is given back is closed if as many links are
idle as the pool keeps at most. If the pool opens that many unasked, it opens one whenever a link is
borrowed, and has no room for the borrowed one when it comes back: each time one link is opened and
one is closed (`Wasteful`). Otherwise a link is closed only as long as there are enough idle ones
without it, and from then on none is opened any more (`Frugal`).

Results:
* `Frugal.serves`: what one answer keeps if the pool opens fewer links unasked than it keeps.
* `Wasteful.serves`, `Wasteful.borrow`: what answers keep if it opens as many.
-/

namespace LogShipper

open Delivery (Request Tenure thrift after_atRest)

/-! ## Answers to somebody who borrows one link -/

/-- All that an answer to somebody who borrows one link can do to a pool. -/
inductive Pool.Serves (c : PoolConfig) (now : Nat) (p : Pool) : (r : Request) → r.Answer → Pool → Prop
    where
  | lent {link : LinkId} {q : Pool} (h : p.take c now = some (link, q)) :
      Serves c now p .borrow (.ok link) q
  | refused (reason : String) (h : p.idle = []) :
      Serves c now p .borrow (.error reason) { p with lastError := none }
  | counted : Serves c now p .idleCount p.idle.length p
  | returned (link : LinkId) : Serves c now p (.giveBack link) () (p.putBack link)
  | dropped (link : LinkId) : Serves c now p (.discard link) () (p.drop c now link)
  | atRest {r : Request} (hr : r.isAtRest = true) (x : r.Answer) : Serves c now p r x p

/-- Where a link is idle, it is lent. -/
theorem Pool.Serves.lends {c : PoolConfig} {now : Nat} {p q : Pool} {x : Except String LinkId}
    (h : p.Serves c now .borrow x q) (hidle : p.idle ≠ []) :
    ∃ link, x = .ok link ∧ p.take c now = some (link, q) := by
  cases h with
  | lent ht => exact ⟨_, rfl, ht⟩
  | refused reason h => exact absurd h hidle
  | atRest hr => exact absurd hr Bool.false_ne_true

namespace Pool

variable {c : PoolConfig} {now : Nat} {p q : Pool} {t : Tenure} {r : Request} {x : r.Answer}

/-- The pool opens fewer links unasked than it keeps, or it keeps all it has room for. -/
def HasRoom (c : PoolConfig) : Prop :=
  c.minIdle.toNat < c.maxIdle.toNat ∨ c.capacity ≤ c.maxIdle.toNat

theorem HasRoom.floor_le (h : HasRoom c) : c.floor ≤ c.maxIdle.toNat := by
  unfold HasRoom at h
  unfold PoolConfig.floor
  omega

theorem refill_le (now : Nat) (h : p.connections + p.openings.length ≤ c.capacity) :
    (p.refill c now).connections + (p.refill c now).openings.length ≤ c.capacity := by
  unfold refill
  generalize c.floor - p.idle.length = n
  induction n generalizing p with
  | zero => exact h
  | succ n ih => exact ih (openOne_le h)

/-- The links that were opened and those that are being opened are no more than there is room for,
and no link was closed that will be missed: as many are open as the pool keeps, or all that were
opened. -/
structure Suffices (c : PoolConfig) (p : Pool) : Prop where
  fits : p.connections + p.openings.length ≤ c.capacity
  few : p.opened + p.openings.length ≤ c.capacity
  kept : c.maxIdle.toNat ≤ p.connections ∨ p.opened = p.connections

namespace Suffices

/-- **Refilling**: if as many links are open as the pool keeps, none is missing or there is no room
for another one. -/
theorem refill (h : Suffices c p) (hroom : HasRoom c) (hlent : p.lent.length ≤ 1) (now : Nat) :
    Suffices c (p.refill c now) := by
  have fits := refill_le now h.fits
  have same : (p.refill c now).connections = p.connections := refill_connections c now p
  have opened : (p.refill c now).opened = p.opened := by
    obtain ⟨os, hos⟩ := refill_eq c now p
    rw [hos]
  refine ⟨fits, ?_, by rw [same, opened]; exact h.kept⟩
  rw [opened]
  rcases h.kept with hfull | hall
  · -- all links that are open but the one that is lent are idle
    rcases hroom with hfewer | hmost
    · have enough : c.floor ≤ p.idle.length := by
        unfold connections at hfull
        unfold PoolConfig.floor
        omega
      rw [refill_of_floor_le now enough]
      exact h.few
    · have := h.few
      omega
  · omega

/-- **A link is taken** while none is lent. -/
theorem take (h : Suffices c p) (hroom : HasRoom c) (hlent : p.lent = []) {link : LinkId}
    (ht : p.take c now = some (link, q)) : Suffices c q := by
  obtain ⟨idle, hi, rfl⟩ := take_eq ht
  have same : ({ p with idle, lent := link :: p.lent } : Pool).connections = p.connections := by
    simp only [connections, hi, List.length_cons]
    omega
  have moved : Suffices c { p with idle, lent := link :: p.lent } :=
    ⟨same ▸ h.fits, h.few, same ▸ h.kept⟩
  refine moved.refill hroom ?_ now
  rw [hlent]
  exact Nat.le_refl 1

/-- With no link open, one can be opened for a borrower that waits. -/
theorem openOne (h : Suffices c p) (hnone : p.connections < c.maxIdle.toNat) (now : Nat) :
    Suffices c (p.openOne c now) := by
  have fits : (p.openOne c now).connections + (p.openOne c now).openings.length ≤ c.capacity :=
    openOne_le h.fits
  have same : (p.openOne c now).connections = p.connections := openOne_connections c now p
  have opened : (p.openOne c now).opened = p.opened := by
    obtain ⟨os, hos⟩ := openOne_eq c now p
    rw [hos]
  have all : p.opened = p.connections := h.kept.resolve_left (Nat.not_le_of_lt hnone)
  refine ⟨fits, ?_, .inr ?_⟩
  · omega
  · rw [opened, same, all]

theorem arrive (h : Suffices c p) {index : Nat} (hi : index < p.openings.length) :
    Suffices c (p.arrive index) := by
  have erased := List.length_eraseIdx_of_lt hi
  obtain ⟨fits, few, kept⟩ := h
  unfold connections at fits kept
  refine ⟨?_, ?_, ?_⟩ <;> simp only [Pool.arrive, connections, List.length_cons] <;> omega

end Suffices

/-- A pool with links enough for one sender. -/
structure Frugal (c : PoolConfig) (t : Tenure) (p : Pool) : Prop extends Suffices c p where
  running : p.phase = .running
  lent : p.lent = t.links
  /-- Where the sender has found no room, there is none. -/
  crowded : ∀ link, t = .crowded link → c.maxIdle.toNat ≤ p.idle.length

namespace Frugal

theorem start (hroom : HasRoom c) : (({} : Pool).start c now).Frugal c .seeking where
  toSuffices := by
    refine Suffices.refill ⟨Nat.zero_le _, Nat.zero_le _, .inr rfl⟩ hroom (Nat.zero_le _) now
  running := World.refill_phase c now _
  lent := refill_lent c now _
  crowded _ h := by cases h

/-- Somebody who holds no link may look for one. -/
theorem seek (h : p.Frugal c t) (hnone : t.links = []) : p.Frugal c .seeking where
  toSuffices := h.toSuffices
  running := h.running
  lent := h.lent.trans hnone
  crowded _ h := by cases h

theorem arrive (h : p.Frugal c t) {index : Nat} (hi : index < p.openings.length) :
    (p.arrive index).Frugal c t where
  toSuffices := h.toSuffices.arrive hi
  running := h.running
  lent := h.lent
  crowded link ht := Nat.le_succ_of_le (h.crowded link ht)

/-- A borrower that finds no link waits for one. -/
theorem openOne (h : p.Frugal c .seeking) (hmost : 1 ≤ c.maxIdle.toNat) (hidle : p.idle = [])
    (now : Nat) : (p.openOne c now).Frugal c .seeking where
  toSuffices := by
    refine h.toSuffices.openOne ?_ now
    unfold connections
    rw [hidle, h.lent]
    exact hmost
  running := (World.openOne_phase c now p).trans h.running
  lent := (openOne_lent c now p).trans h.lent
  crowded _ h := by cases h

/-- **What one answer keeps**, if the pool has room. -/
theorem serves (h : p.Frugal c t) (hroom : HasRoom c) (hr : (thrift c.maxIdle.toNat).allows t r)
    (hs : p.Serves c now r x q) : q.Frugal c ((thrift c.maxIdle.toNat).after t r x) := by
  cases hs with
  | @lent link q ht =>
    obtain rfl : t = .seeking := hr
    have hlent : q.lent = [link] := (take_lent ht).trans (congrArg (link :: ·) h.lent)
    exact ⟨h.toSuffices.take hroom h.lent ht, (World.take_phase ht).trans h.running, hlent,
      fun _ h => by cases h⟩
  | refused reason hidle =>
    obtain rfl : t = .seeking := hr
    exact ⟨⟨h.fits, h.few, h.kept⟩, h.running, h.lent, fun _ h => by cases h⟩
  | counted =>
    obtain ⟨link, rfl⟩ : ∃ link, t = .holding link := hr
    show p.Frugal c (if c.maxIdle.toNat ≤ p.idle.length then .crowded link else .roomy link)
    split
    · rename_i hfull
      exact ⟨h.toSuffices, h.running, h.lent, fun _ _ => hfull⟩
    · exact ⟨h.toSuffices, h.running, h.lent, fun _ h => by cases h⟩
  | returned link =>
    obtain rfl : t = .roomy link := hr
    have lent : p.lent = [link] := h.lent
    have same : (p.putBack link).connections = p.connections :=
      putBack_connections (by rw [lent]; exact List.mem_cons_self)
    refine ⟨⟨same ▸ h.fits, h.few, same ▸ h.kept⟩, h.running, ?_, fun _ h => by cases h⟩
    show p.lent.erase link = []
    rw [lent, List.erase_cons_head]
  | dropped link =>
    -- none is opened for it: without it as many are idle as the pool keeps
    obtain rfl : t = .crowded link := hr
    have full := h.crowded link rfl
    have lent : p.lent = [link] := h.lent
    have fits := h.fits
    rw [drop_of_floor_le link now (Nat.le_trans hroom.floor_le full), lent, List.erase_cons_head]
    unfold connections at fits
    refine ⟨⟨?_, h.few, .inl ?_⟩, h.running, rfl, fun _ h => by cases h⟩
    · simp only [connections, List.length_nil]
      omega
    · exact full
  | atRest hrest x =>
    rw [after_atRest hrest]
    exact h

end Frugal

/-! ## Pools with links too few -/

/-- The pool opens as many links unasked as it keeps, and has room for more. -/
structure IsTight (c : PoolConfig) : Prop where
  same : c.minIdle.toNat = c.maxIdle.toNat
  less : c.maxIdle.toNat < c.capacity

theorem IsTight.floor_eq (h : IsTight c) : c.floor = c.maxIdle.toNat := by
  have := h.same
  have := h.less
  unfold PoolConfig.floor
  omega

/-- Where there is room for all that are missing, as many are being opened. -/
theorem refill_openings
    (h : p.connections + p.openings.length + (c.floor - p.idle.length) ≤ c.capacity) :
    (p.refill c now).openings.length = p.openings.length + (c.floor - p.idle.length) := by
  unfold refill
  revert h
  generalize c.floor - p.idle.length = n
  intro h
  induction n generalizing p with
  | zero => rfl
  | succ n ih =>
    have opened : (p.openOne c now).openings.length = p.openings.length + 1 := by
      unfold openOne
      rw [if_pos (by omega), List.length_append, List.length_singleton]
    have same : (p.openOne c now).connections = p.connections := openOne_connections c now p
    refine (ih (p := p.openOne c now) ?_).trans ?_ <;> omega

/-- A pool in which as many links are idle as it keeps, and somebody who has borrowed one besides
and learns so, or has learned it. -/
structure Wasteful (c : PoolConfig) (n : Nat) (t : Tenure) (p : Pool) : Prop where
  running : p.phase = .running
  lent : p.lent = t.links
  idle : p.idle.length = c.maxIdle.toNat
  openings : p.openings = []
  opened : p.opened = n
  not_seeking : t ≠ .seeking
  not_roomy : ∀ link, t ≠ .roomy link

namespace Wasteful

variable {n : Nat}

/-- **What one answer keeps**: the link that was borrowed is closed. -/
theorem serves (h : p.Wasteful c n t) (htight : IsTight c)
    (hr : (thrift c.maxIdle.toNat).allows t r) (hs : p.Serves c now r x q) :
    q.Wasteful c n ((thrift c.maxIdle.toNat).after t r x) := by
  cases hs with
  -- nothing is borrowed or put back by somebody who has found no room for a link
  | lent ht => exact absurd hr h.not_seeking
  | refused reason hidle => exact absurd hr h.not_seeking
  | counted =>
    obtain ⟨link, rfl⟩ : ∃ link, t = .holding link := hr
    have full : (thrift c.maxIdle.toNat).after (.holding link) .idleCount p.idle.length =
        .crowded link := if_pos (Nat.le_of_eq h.idle.symm)
    rw [full]
    exact ⟨h.running, h.lent, h.idle, h.openings, h.opened, nofun, nofun⟩
  | returned link => exact absurd hr (h.not_roomy link)
  | dropped link =>
    obtain rfl : t = .crowded link := hr
    have lent : p.lent = [link] := h.lent
    have enough : c.floor ≤ p.idle.length := Nat.le_of_eq (htight.floor_eq.trans h.idle.symm)
    rw [drop_of_floor_le link now enough, lent, List.erase_cons_head]
    exact ⟨h.running, rfl, h.idle, h.openings, h.opened, nofun, nofun⟩
  | atRest hrest x =>
    rw [after_atRest hrest]
    exact h

/-- **A link is borrowed, and another one opened for it**: as many are idle again. -/
theorem borrow (h : p.Wasteful c n .parted) (htight : IsTight c) {link : LinkId}
    (ht : p.take c now = some (link, q)) :
    q.openings.length = 1 ∧ (q.arrive 0).Wasteful c (n + 1) (.holding link) := by
  have running := (World.take_phase ht).trans h.running
  obtain ⟨hidle, hlent, hopened⟩ := take_spec ht
  have one : q.openings.length = 1 := by
    obtain ⟨idle, hi, rfl⟩ := take_eq ht
    have few : idle.length + 1 = c.maxIdle.toNat := by
      rw [← h.idle, hi, List.length_cons]
    have missing : c.floor - idle.length = 1 := by
      have := htight.floor_eq
      omega
    have := htight.less
    rw [refill_openings] <;>
      simp only [connections, h.lent, h.openings, Tenure.links, List.length_cons,
        List.length_nil, missing]
    omega
  obtain ⟨o, ho⟩ := List.length_eq_one_iff.mp one
  refine ⟨one, running, ?_, ?_, ?_, ?_, (fun h => by cases h), fun _ h => by cases h⟩
  · show q.lent = [link]
    rw [hlent, h.lent]
    rfl
  · show q.idle.length + 1 = _
    rw [← h.idle, hidle, List.length_cons]
  · show q.openings.eraseIdx 0 = []
    rw [ho]
    rfl
  · show q.opened + 1 = n + 1
    rw [hopened, h.opened]

end Wasteful

/-- A pool in which so many of the links that it opens unasked are still being opened. -/
structure Filling (c : PoolConfig) (missing : Nat) (p : Pool) : Prop where
  running : p.phase = .running
  lent : p.lent = []
  openings : p.openings.length = missing
  idle : p.idle.length + missing = c.maxIdle.toNat
  opened : p.opened = p.idle.length

namespace Filling

variable {m : Nat}

theorem start (htight : IsTight c) : (({} : Pool).start c now).Filling c c.maxIdle.toNat := by
  have fits := htight.less
  have floor := htight.floor_eq
  have missing : (({} : Pool).start c now).openings.length = c.maxIdle.toNat := by
    refine (refill_openings ?_).trans ?_ <;>
      simp only [connections, List.length_nil, floor] <;> omega
  obtain ⟨os, hos⟩ := refill_eq c now { ({} : Pool) with
    phase := .running
    nextEviction := if c.evicts then some (now + c.evictionIntervalMs.toNat * 1000) else none }
  have started : ({} : Pool).start c now = _ := hos
  rw [started] at missing ⊢
  exact ⟨rfl, rfl, missing, Nat.zero_add _, rfl⟩

theorem arrive (h : p.Filling c (m + 1)) : (p.arrive 0).Filling c m where
  running := h.running
  lent := h.lent
  openings := by
    have := h.openings
    show (p.openings.eraseIdx 0).length = m
    rw [List.length_eraseIdx_of_lt] <;> omega
  idle := by
    have := h.idle
    show p.idle.length + 1 + m = _
    omega
  opened := congrArg (· + 1) h.opened

theorem wasteful (h : p.Filling c 0) : p.Wasteful c c.maxIdle.toNat .parted where
  running := h.running
  lent := h.lent
  idle := h.idle
  openings := List.eq_nil_of_length_eq_zero h.openings
  opened := h.opened.trans h.idle
  not_seeking := nofun
  not_roomy := nofun

end Filling

end Pool

end LogShipper
