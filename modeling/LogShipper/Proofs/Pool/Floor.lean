import LogShipper.Proofs.Pool.Traffic
import LogShipper.Proofs.World.Lifecycle

/-!
# Idle links that are kept open unasked

A pool is to keep some links idle, as far as those that are lent leave room for them. While it runs,
the idle links and the links being opened are together never fewer (`Pool.KeepsFloor`). To take a
link and to drop one starts the openings that are missing then; to put one back gives up at most the
room that it took; and an opening that fails is tried again.

Covers `acquire`, `release`, the end of a lease, `evict_idle` and the opening of links while a pool
runs.

Out of scope: links that expire by age (`World/Time.lean`).

Results:
* `Pool.refill_keepsFloor`: refilling makes up for whatever is missing.
* `World.Floored.answerNow`, `Traffic.floored_step`: one request, and one event.
* `Traffic.floor_kept`: the idle links of a pool in use, and how they come back.
-/

namespace LogShipper

open Delivery (Request PoolSettings)

/-! ## Pools -/

namespace Pool

variable {c : PoolConfig} {now : Nat} {p : Pool}

/-- As many links are idle or being opened as are to be kept idle, or as those that are lent leave
room for. -/
def KeepsFloor (c : PoolConfig) (p : Pool) : Prop :=
  min c.minIdle.toNat (c.capacity - p.lent.length) ≤ p.idle.length + p.openings.length

theorem openOne_openings (c : PoolConfig) (now : Nat) (p : Pool) :
    min (p.openings.length + 1) (c.capacity - p.connections) ≤
        (p.openOne c now).openings.length ∧
      p.openings.length ≤ (p.openOne c now).openings.length := by
  unfold openOne
  split
  · rw [List.length_append, List.length_singleton]
    omega
  · omega

/-- **Links are opened until there are so many**, or until there is no more room. -/
theorem openMany_openings (c : PoolConfig) (now n : Nat) (p : Pool) :
    min (p.openings.length + n) (c.capacity - p.connections) ≤
        (openMany c now n p).openings.length ∧
      p.openings.length ≤ (openMany c now n p).openings.length := by
  induction n generalizing p with
  | zero => exact ⟨Nat.min_le_left _ _, Nat.le_refl _⟩
  | succ n ih =>
    obtain ⟨first, more⟩ := openOne_openings c now p
    obtain ⟨rest, still⟩ := ih (p.openOne c now)
    rw [openOne_connections] at rest
    show _ ≤ (openMany c now n (p.openOne c now)).openings.length ∧
      _ ≤ (openMany c now n (p.openOne c now)).openings.length
    omega

/-- **Refilling a pool makes up for whatever is missing.** -/
theorem refill_keepsFloor (c : PoolConfig) (now : Nat) (p : Pool) :
    (p.refill c now).KeepsFloor c := by
  obtain ⟨os, hos⟩ := refill_eq c now p
  obtain ⟨enough, -⟩ := openMany_openings c now (c.floor - p.idle.length) p
  change min _ _ ≤ (p.refill c now).openings.length at enough
  rw [hos] at enough ⊢
  unfold KeepsFloor
  unfold PoolConfig.floor connections at enough
  dsimp only at enough ⊢
  omega

/-- Where none is missing, refilling changes nothing. -/
theorem refill_of_floor_le (now : Nat) (h : c.floor ≤ p.idle.length) : p.refill c now = p := by
  unfold refill
  rw [Nat.sub_eq_zero_of_le h]
  rfl

theorem take_openings {q : Pool} {link : LinkId} (h : p.take c now = some (link, q))
    (hle : c.floor ≤ q.idle.length) : q.openings = p.openings := by
  obtain ⟨idle, -, rfl⟩ := take_eq h
  obtain ⟨os, hos⟩ := refill_eq c now { p with idle, lent := link :: p.lent }
  have enough : c.floor ≤ idle.length := by
    rw [hos] at hle
    exact hle
  rw [refill_of_floor_le now enough]

theorem drop_of_floor_le (link : LinkId) (now : Nat) (h : c.floor ≤ p.idle.length) :
    p.drop c now link = { p with lent := p.lent.erase link } :=
  refill_of_floor_le now h

theorem take_keepsFloor {q : Pool} {link : LinkId} (h : p.take c now = some (link, q)) :
    q.KeepsFloor c := by
  obtain ⟨idle, -, rfl⟩ := take_eq h
  exact refill_keepsFloor c now _

namespace KeepsFloor

theorem openOne (h : p.KeepsFloor c) (now : Nat) : (p.openOne c now).KeepsFloor c := by
  obtain ⟨-, more⟩ := openOne_openings c now p
  obtain ⟨os, hos⟩ := openOne_eq c now p
  rw [hos] at more ⊢
  exact Nat.le_trans h (Nat.add_le_add_left more _)

/-- A link that is put back is idle in the room that it took. -/
theorem putBack (h : p.KeepsFloor c) (link : LinkId) : (p.putBack link).KeepsFloor c := by
  have hlent : p.lent.length ≤ (p.lent.erase link).length + 1 := by
    have := List.length_erase (a := link) (l := p.lent)
    split at this <;> omega
  unfold KeepsFloor at h ⊢
  unfold Pool.putBack
  dsimp only
  rw [List.length_cons]
  omega

theorem arrive (h : p.KeepsFloor c) {index : Nat} (hi : index < p.openings.length) :
    (p.arrive index).KeepsFloor c := by
  have := List.length_eraseIdx_of_lt hi
  unfold KeepsFloor at h ⊢
  unfold Pool.arrive
  dsimp only
  rw [List.length_cons]
  omega

theorem postpone (h : p.KeepsFloor c) (now index : Nat) (reason : String) :
    (p.postpone c now index reason).KeepsFloor c := by
  unfold KeepsFloor at h ⊢
  unfold Pool.postpone Pool.blame
  rw [List.length_modify]
  exact h

end KeepsFloor

end Pool

/-! ## Worlds -/

namespace World

variable {σ : Type} {T : Transport σ} {s : PoolSettings} {w w₁ : World σ}

/-- A pool that keeps as many links idle as it is to, as long as it runs. -/
def Floored (s : PoolSettings) (w : World σ) : Prop :=
  w.pool.phase = .running → w.pool.KeepsFloor s.config

/-- Dropping a link makes up for it. -/
theorem floored_discard (link : LinkId) (w : World σ) : (w.discard T s link).Floored s := by
  intro hrun
  have running : w.pool.phase = .running :=
    (congrArg Phases.pool (phases_discard T s link w)).symm.trans hrun
  rw [discard_of_running link running]
  exact Pool.refill_keepsFloor s.config w.clock _

theorem floored_start (w : World σ) :
    ({ w with pool := w.pool.start s.config w.clock } : World σ).Floored s :=
  fun _ => Pool.refill_keepsFloor s.config w.clock _

namespace Floored

theorem congr (h : w.Floored s) (hpool : w₁.pool = w.pool) : w₁.Floored s := by
  unfold Floored
  rw [hpool]
  exact h

theorem giveBack (h : w.Floored s) (link : LinkId) : (w.giveBack T link).Floored s := by
  intro hrun
  have running : w.pool.phase = .running :=
    (congrArg Phases.pool (phases_giveBack T link w)).symm.trans hrun
  rw [giveBack_of_running link running]
  exact (h running).putBack link

theorem settleForsaken (h : w.Floored s) : (w.settleForsaken T).Floored s := by
  intro hrun
  have running : w.pool.phase = .running :=
    (congrArg Phases.pool (phases_settleForsaken T w)).symm.trans hrun
  have held : w.pool.isForsaken = false := by simp [Pool.isForsaken, running]
  unfold World.settleForsaken
  rw [if_neg (by simp [held])]
  exact h running

/-- **Borrowing an idle link**, whatever links are dropped on the way to it. -/
theorem borrowed {x : Option LinkId} (h : w.Floored s) (hb : Borrowed T s w x w₁) :
    w₁.Floored s := by
  induction hb with
  | none w => exact h
  | unchecked ht => exact fun _ => Pool.take_keepsFloor ht
  | passed ht hp =>
    intro _
    rw [(ping_spec hp).1]
    exact Pool.take_keepsFloor ht
  | failed _ _ _ ih => exact ih (floored_discard _ _)

/-- **One request.** -/
theorem answerNow (h : w.Floored s) (r : Request) : (w.answerNow T s r).2.Floored s := by
  cases r with
  | borrow =>
    refine answerNow_borrow T s (P := fun got => got.2.Floored s) w
      (fun _ _ hb => h.borrowed hb) fun w₁ hb => ?_
    have borrowed : w₁.Floored s := h.borrowed hb
    exact borrowed
  | tryBorrow => exact h.borrowed (borrowed_tryBorrow T s w)
  | openPool => exact floored_start w
  | closePool => exact fun hrun => PoolPhase.noConfusion hrun
  | forsakePool => exact h.settleForsaken
  | giveBack link => exact h.giveBack link
  | discard link => exact floored_discard link w
  | newToken name parent => cases parent <;> exact h
  | _ => exact h.congr rfl

/-- A link that was opened is idle; one that could not be opened is tried again. -/
theorem settleOpening (h : w.Floored s) {index : Nat} (hi : index < w.pool.openings.length) :
    (w.settleOpening T s index).Floored s := by
  unfold World.settleOpening
  dsimp only
  split
  · exact fun hrun => (h hrun).arrive hi
  · exact fun hrun => (h hrun).postpone _ _ _

end Floored

/-- What is idle or being opened is as much, whether the opening succeeds or fails; if it succeeds,
one link less is being opened. -/
theorem settleOpening_stock {index : Nat} (hi : index < w.pool.openings.length) :
    let v := w.settleOpening T s index
    v.pool.idle.length + v.pool.openings.length =
        w.pool.idle.length + w.pool.openings.length ∧
      ((T.connect w.pool.opened s.endpoint w.remote).1 = .ok () →
        v.pool.openings.length + 1 = w.pool.openings.length) := by
  have erased := List.length_eraseIdx_of_lt hi
  unfold settleOpening
  dsimp only
  split
  · simp only [record, Pool.arrive, List.length_cons]
    omega
  · rename_i e remote hc
    refine ⟨?_, fun hok => ?_⟩
    · simp only [record, raiseAside, Pool.postpone, Pool.blame, List.length_modify]
    · rw [hc] at hok
      cases hok

end World

/-! ## A pool in use -/

namespace Traffic

variable {σ : Type} {T : Transport σ} {s : PoolSettings} {t : Traffic σ}

theorem floored_await (h : t.world.Floored s) : (t.await T s).world.Floored s := by
  have borrowed := h.borrowed (World.borrowed_tryBorrow T s t.world)
  intro hrun
  refine (borrowed ?_).openOne _
  exact (World.openOne_phase s.config _ _).symm.trans hrun

theorem floored_advance (h : t.world.Floored s) (index : Nat) (patient : Bool) :
    (t.advance T s index patient).world.Floored s := by
  unfold advance
  split
  · exact h
  · exact h
  · dsimp only
    split
    · exact floored_await h
    · exact h.answerNow _

/-- **One event.** -/
theorem floored_step (h : t.world.Floored s) (event : Event σ) :
    (t.step T s event).world.Floored s := by
  cases event with
  | startup => exact h
  | acquire => exact h
  | release link healthy =>
    simp only [step, beginWith]
    split <;> exact h
  | lapse link =>
    simp only [step, beginWith]
    split <;> exact h
  | evict => exact h
  | shutdown ms => exact h
  | advance index patient => exact floored_advance h index patient
  | opening index =>
    simp only [step]
    split
    · rename_i hi
      exact h.settleOpening hi
    · exact h
  | store remote => exact h.congr rfl

theorem floored_run (h : t.world.Floored s) (events : List (Event σ)) :
    (t.run T s events).world.Floored s := by
  induction events generalizing t with
  | nil => exact h
  | cons event events ih => exact ih (floored_step h event)

/-- How many links are to be idle: as many as the pool is to keep, or as those that are held leave
room for. -/
def due (s : PoolSettings) (t : Traffic σ) : Nat :=
  min s.config.minIdle.toNat (max 1 s.config.maxTotal.toNat - t.held.length)

/-- An opening succeeds or fails. -/
theorem step_opening {index : Nat} (hi : index < t.world.pool.openings.length) :
    t.step T s (.opening index) = { t with world := t.world.settleOpening T s index } :=
  if_pos hi

/-- If links can be opened, all that are being opened are idle in the end. -/
theorem run_openings {tame : σ → Prop}
    (hopens : ∀ link remote, tame remote → (T.connect link s.endpoint remote).1 = .ok () ∧
      tame (T.connect link s.endpoint remote).2) (ht : tame t.world.remote) {n : Nat}
    (hn : t.world.pool.openings.length = n) :
    let u := t.run T s (List.replicate n (.opening 0))
    u.world.pool.openings = [] ∧ u.held = t.held ∧
      u.world.pool.idle.length = t.world.pool.idle.length + n := by
  induction n generalizing t with
  | zero => exact ⟨List.eq_nil_of_length_eq_zero hn, rfl, rfl⟩
  | succ n ih =>
    have hi : 0 < t.world.pool.openings.length := by omega
    obtain ⟨hok, htame⟩ := hopens t.world.pool.opened t.world.remote ht
    obtain ⟨same, fewer⟩ := World.settleOpening_stock (T := T) (s := s) hi
    have opened := step_opening (T := T) (s := s) hi
    have remote : (t.world.settleOpening T s 0).remote =
        (T.connect t.world.pool.opened s.endpoint t.world.remote).2 := by
      unfold World.settleOpening
      dsimp only
      split <;> rename_i hc <;> rw [hc] <;> rfl
    obtain ⟨none, held, idle⟩ := ih (t := t.step T s (.opening 0))
      (by rw [opened]; exact remote ▸ htame) (by rw [opened]; have := fewer hok; dsimp only; omega)
    rw [opened] at none held idle
    have := fewer hok
    refine ⟨?_, ?_, ?_⟩
    · rw [List.replicate_succ, run, List.foldl_cons, opened]
      exact none
    · rw [List.replicate_succ, run, List.foldl_cons, opened]
      exact held
    · rw [List.replicate_succ, run, List.foldl_cons, opened]
      refine idle.trans ?_
      dsimp only
      omega

/-- The idle links of a pool in use. -/
structure Stocked (T : Transport σ) (s : PoolSettings) (t : Traffic σ) : Prop where
  /-- As many links as are to be idle are idle or being opened. -/
  floor : t.world.pool.phase = .running →
    due s t ≤ t.world.pool.idle.length + t.world.pool.openings.length
  /-- An opening that fails stays one, and a link that was opened is idle. -/
  retried : ∀ index < t.world.pool.openings.length,
    let u := t.step T s (.opening index)
    u.held = t.held ∧ u.world.pool.idle.length + u.world.pool.openings.length =
      t.world.pool.idle.length + t.world.pool.openings.length
  /-- Once links can be opened again, as many are idle as are to be. -/
  restored : t.world.pool.phase = .running → ∀ tame : σ → Prop,
    (∀ link remote, tame remote → (T.connect link s.endpoint remote).1 = .ok () ∧
      tame (T.connect link s.endpoint remote).2) → tame t.world.remote →
    let u := t.run T s (List.replicate t.world.pool.openings.length (.opening 0))
    u.world.pool.openings = [] ∧ u.held = t.held ∧ due s u ≤ u.world.pool.idle.length

theorem Balanced.stocked (hb : Balanced s t) (hf : t.world.Floored s) : Stocked T s t := by
  have floor (hrun : t.world.pool.phase = .running) :
      due s t ≤ t.world.pool.idle.length + t.world.pool.openings.length := by
    unfold due
    rw [← hb.lent.length_eq]
    exact hf hrun
  refine ⟨floor, fun index hi => ?_, fun hrun tame hopens ht => ?_⟩
  · obtain ⟨same, -⟩ := World.settleOpening_stock (T := T) (s := s) hi
    rw [step_opening hi]
    exact ⟨rfl, same⟩
  · obtain ⟨none, held, idle⟩ := run_openings hopens ht rfl
    refine ⟨none, held, ?_⟩
    unfold due
    rw [held, idle]
    exact floor hrun

/-- **The idle links of a pool in use**, whoever does what in whatever order: while it runs, those
that are to be idle are idle or being opened, and no opening is given up. -/
theorem floor_kept (T : Transport σ) (s : PoolSettings) (remote : σ) (events : List (Event σ)) :
    Stocked T s (run T s ⟨{ remote }, [], []⟩ events) :=
  ((balanced_start remote).run events).stocked (floored_run (fun hrun => by cases hrun) events)

/-- A pool for two links that keeps both idle: one is taken and dropped while there is no room for
another, and made up for when it is gone. -/
example :
    let s : PoolSettings :=
      { endpoint := { host := "localhost" }, config := { maxTotal := 2, minIdle := 2 } }
    let t := run ScriptedStore.transport s ⟨{ remote := {} }, [], []⟩
      [.startup, .advance 0 false, .advance 0 false, .advance 0 false, .advance 0 false,
        .opening 0, .opening 0, .acquire, .advance 0 false, .advance 0 false, .advance 0 false]
    let u := run ScriptedStore.transport s t
      [.release 1 false, .advance 0 false, .advance 0 false, .advance 0 false]
    (t.held = [1] ∧ t.world.pool.idle = [0] ∧ t.world.pool.openings.length = 0) ∧
      u.held = [] ∧ u.world.pool.idle = [0] ∧ u.world.pool.openings.length = 1 := by
  decide +kernel

end Traffic

end LogShipper
