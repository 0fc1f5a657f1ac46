import LogShipper.Proofs.World.Gist
import LogShipper.Proofs.World.Prompt
import LogShipper.Proofs.World.Sleeping

/-!
# A borrower gets a link

If all links can be opened in time and none fails, and nobody else has any, whoever borrows a link
gets one: the one that is idle, or the one that is opened next.

Results:
* `Waits.passUntil`: the link that a borrower waits for arrives in time.
* `borrow_ok`: a borrower gets a link.
-/

namespace LogShipper.World

open Delivery (Request Dialogue PoolSettings)

variable {σ V : Type} {T : Transport σ} {tame : σ → Prop} {memory : σ → V}
  {reply : V → String → Bytes → Except String Unit × V} {s : PoolSettings} {g : Gist V}
  {w w₁ : World σ} {limit bound : Nat}

/-! ## Waiting for a link -/

/-- A borrower sleeps, and a link will be opened before some time. -/
structure Waits (T : Transport σ) (s : PoolSettings) (bound seen : Nat) (w : World σ) : Prop
    extends Asleep s seen w where
  errands : w.errands = []
  due : ∃ o ∈ w.pool.openings, T.due o ≤ bound
  opens : ∀ link, (T.connect link s.endpoint w.remote).1 = .ok ()

/-- What happens first is that a link is opened. -/
theorem Waits.first {seen : Nat} (h : Waits T s bound seen w) :
    ∃ due index, earliest (w.chores T) = some (due, .opening index) ∧ due ≤ bound := by
  obtain ⟨o, ho, hdue⟩ := h.due
  obtain ⟨i, hi, rfl⟩ := List.getElem_of_mem ho
  have chores : w.chores T = w.pool.openings.mapIdx fun i o => (T.due o, .opening i) := by
    unfold World.chores
    rw [h.errands]
    exact List.append_nil _
  have hmem : (T.due w.pool.openings[i], Happening.opening i) ∈ w.chores T := by
    rw [chores]
    exact List.mem_mapIdx.mpr ⟨i, hi, rfl⟩
  obtain ⟨first, hfirst⟩ := earliest_isSome (List.ne_nil_of_mem hmem)
  have hle := Nat.le_trans (earliest_le hfirst hmem) hdue
  have opening := earliest_mem hfirst
  rw [chores] at opening
  obtain ⟨index, hindex, rfl⟩ := List.mem_mapIdx.mp opening
  exact ⟨_, index, hfirst, hle⟩

/-- **The link that a borrower waits for arrives in time.** -/
theorem Waits.passUntil {seen : Nat} (h : Waits T s bound seen w) (hlimit : bound ≤ limit) :
    (w.passUntil T s limit fun v => v.pool.wakeups != seen).1 = true ∧
      (w.passUntil T s limit fun v => v.pool.wakeups != seen).2.pool.idle ≠ [] := by
  obtain ⟨due, index, hfirst, hdue⟩ := h.first
  obtain ⟨v, hwoken, hidle, -⟩ := h.toAsleep.untilFuel_opening hfirst
    (Nat.le_trans hdue hlimit) (Nat.lt_of_succ_lt (checksLeft_succ_lt_busyFuel s limit w))
    (h.opens _)
  have woken : w.passUntil T s limit (fun v => v.pool.wakeups != seen) = (true, v) := hwoken
  rw [woken, hidle]
  exact ⟨rfl, List.cons_ne_nil _ _⟩

/-! ## Borrowing -/

/-- An idle link that passes its check is lent. -/
theorem tryBorrow_of_ping {link : LinkId} {idle : List LinkId} (h : w.pool.idle = link :: idle)
    (hping : (T.ping link w.remote).1 = .ok ()) : ∃ w₁, w.tryBorrow T s = (some link, w₁) := by
  have taken : w.pool.take s.config w.clock = some (link,
      { w.pool with idle, lent := link :: w.pool.lent }.refill s.config w.clock) := by
    unfold Pool.take
    rw [h]
  unfold tryBorrow
  rw [h, List.length_cons, tryBorrowFuel, taken]
  dsimp only
  split
  · split
    · exact ⟨_, rfl⟩
    · rename_i e w₁ hp
      have failed : (T.ping link w.remote).1 = .error e := congrArg Prod.fst hp
      rw [hping] at failed
      cases failed
  · exact ⟨_, rfl⟩

/-- If every link passes its check, an idle link is lent. -/
theorem tryBorrow_of_idle (hT : T.Obliging tame memory reply) (hw : tame w.remote)
    (h : w.pool.idle ≠ []) : ∃ link w₁, w.tryBorrow T s = (some link, w₁) := by
  obtain ⟨link, idle, hidle⟩ := List.exists_cons_of_ne_nil h
  exact ⟨link, tryBorrow_of_ping hidle (hT.ping link w.remote hw).1⟩

/-- With no link lent and none idle, a link is being opened, and will be in time. -/
theorem openOne_due (hp : InTime T s w) (hlent : w.pool.lent = []) (hidle : w.pool.idle = []) :
    ∃ o ∈ (w.pool.openOne s.config w.clock).openings,
      T.due o ≤ w.clock + s.config.waitMs * 1000 := by
  have hcapacity := s.config.one_le_capacity
  unfold Pool.openOne
  split
  · exact ⟨⟨w.clock, 0⟩, List.mem_append_right _ List.mem_cons_self,
      Nat.add_le_add_left (hp.to_come w.clock) w.clock⟩
  · rename_i hfull
    have none : w.pool.connections = 0 := by
      unfold Pool.connections
      rw [hlent, hidle]
      rfl
    have some : w.pool.openings ≠ [] := by
      intro hnil
      rw [none, hnil] at hfull
      exact hfull hcapacity
    obtain ⟨o, rest, ho⟩ := List.exists_cons_of_ne_nil some
    have hmem : o ∈ w.pool.openings := ho ▸ List.mem_cons_self
    exact ⟨o, hmem, hp.under_way o hmem⟩

/-- Who finds no idle link waits for one, if links can be opened in time. -/
theorem waits_openOne (hT : T.Obliging tame memory reply) (hw : tame w.remote)
    (hp : InTime T s w) (hchecks : Checks s w) (hlent : w.pool.lent = [])
    (herrands : w.errands = []) (hidle : w.pool.idle = []) :
    Waits T s (w.clock + s.config.waitMs * 1000) (w.pool.openOne s.config w.clock).wakeups
      { w with pool := w.pool.openOne s.config w.clock } where
  idle := by
    obtain ⟨os, hos⟩ := Pool.openOne_eq s.config w.clock w.pool
    rw [hos]
    exact hidle
  errands := herrands
  wakeups := rfl
  due := openOne_due hp hlent hidle
  checks := by
    obtain ⟨os, hos⟩ := Pool.openOne_eq s.config w.clock w.pool
    rw [hos]
    exact hchecks
  opens link := (hT.connect link s.endpoint w.remote hw).1

/-- **A borrower gets a link** if links can be opened in time and nobody else has any. -/
theorem borrow_ok (hT : T.Obliging tame memory reply) (hw : Shows tame memory g w)
    (hp : InTime T s w) (hchecks : Checks s w) (hlent : w.pool.lent = [])
    (herrands : w.errands = []) :
    ∃ link w₁, w.borrow T s = (.ok link, w₁) := by
  -- time enough to look twice, and to wait in between
  obtain ⟨fuel, hfuel⟩ := exists_busyFuel s (w.clock + s.config.waitMs * 1000) w
  unfold borrow
  dsimp only
  rw [hfuel, borrowFuel]
  by_cases hidle : w.pool.idle = []
  · rw [tryBorrow_of_idle_nil hidle]
    dsimp only
    have arrived := (waits_openOne hT hw.tame hp hchecks hlent herrands hidle).passUntil
      (Nat.le_refl _)
    have opening : Shows tame memory g { w with pool := w.pool.openOne s.config w.clock } :=
      hw.congr rfl rfl rfl
    have shown : Shows tame memory g (World.passUntil T s (w.clock + s.config.waitMs * 1000)
        (fun v => v.pool.wakeups != (w.pool.openOne s.config w.clock).wakeups) _).2 :=
      (steady_shows hT g).passUntil opening
    generalize World.passUntil T s (w.clock + s.config.waitMs * 1000) _ _ = got at arrived shown ⊢
    obtain ⟨woken, w₂⟩ := got
    obtain ⟨rfl, hidle₂⟩ := arrived
    obtain ⟨link, w₃, hgot⟩ := tryBorrow_of_idle (s := s) hT shown.tame hidle₂
    dsimp only
    rw [borrowFuel, hgot]
    exact ⟨link, w₃, rfl⟩
  · obtain ⟨link, w₁, hgot⟩ := tryBorrow_of_idle (s := s) hT hw.tame hidle
    rw [hgot]
    exact ⟨link, w₁, rfl⟩

end LogShipper.World
